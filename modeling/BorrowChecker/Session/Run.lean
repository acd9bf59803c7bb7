import BorrowChecker.Cache.Store
import BorrowChecker.Session.Report
import BorrowChecker.Trace.Check
import BorrowChecker.View.Stage

/-!
Checking files. A file passes through four stages: it is loaded, its bodies are validated, those that
are fit are checked unless their findings are in the cache, and all that was found is reported. Each
stage is timed, traced and told to whoever watches. A run may be cancelled; a file then stops after
the stage it is in.
-/

namespace BorrowChecker

namespace Session

open Ownership Trace

structure PhaseEvent where
  file : Text
  stage : Stage
  isEnd : Bool
deriving DecidableEq, Repr

structure Watcher (m : Type → Type) where
  progress : ProgressEvent → m Unit
  phase : PhaseEvent → m Unit
  isCancelled : m Bool

def Watcher.none {m : Type → Type} [Monad m] : Watcher m :=
  { progress := fun _ => pure (), phase := fun _ => pure (), isCancelled := pure false }

structure Run (m : Type → Type) where
  host : Host m
  watcher : Watcher m
  store : Option (Cache.Store m) := none
  /-- The version of the program, which cached findings have to share. -/
  version : Text
  /-- How many diagnostics a file may have; zero or less is no limit. -/
  limit : Int := 0

structure Checked where
  findings : List BodyFindings
  isCached : Bool := false

/-- The key of cached findings: the contents of a file, for a version of the program and a layout of
the cache. -/
def cacheKey (version : Text) (content : Digest) : Digest :=
  content.combine [version, Text.ofNat Cache.currentLayout.toNat]

def acceptable? (version : Text) (bodies : Nat) : Cache.Lookup → Option (List BodyFindings)
  | .hit e => if e.version = version ∧ e.bodies = bodies then some (e.findings.getD []) else none
  | _ => none

def foundIn (findings : List BodyFindings) (body : Text) : Nat :=
  ((findings.find? fun f => f.body == body).map fun f => f.found.length).getD 0

def finished (isBad : Bool) : Status := if isBad then .error else .done

def bodyStatus : BodyStatus → Status × Nat
  | .queued => (.queued, 0)
  | .working => (.working, 0)
  | .done found => (finished (found != 0), found)

namespace Run

variable {m : Type → Type} [Monad m]

def tell (s : Run m) (e : ProgressEvent) : Traced m Unit := liftM (s.watcher.progress e)

def stage {α : Type} (s : Run m) (path : Text) (stage : Stage) (parent : Nat)
    (work : Nat → Traced m (α × Text)) : Traced m (α × Timing.Lap) := do
  liftM (s.watcher.phase ⟨path, stage, false⟩)
  let start ← s.host.clock
  let span ← Traced.enter s.host.clock .pass stage.print parent
  let (result, note) ← work (if span.isSome then Span.idOf span else parent)
  Traced.leave s.host.clock span note
  let stop ← s.host.clock
  liftM (s.watcher.phase ⟨path, stage, true⟩)
  return (result, { name := stage.print, start, duration := stop - start, note, isDone := true })

def load (s : Run m) (path : Text) (_ : Nat) : Traced m (Loaded × Text) := do
  let loaded := Loaded.ofData path (← s.host.read path)
  match loaded.module with
  | .error _ => return (loaded, "failed")
  | .ok m => return (loaded, Text.ofNat m.bodies.length ++ " bodies")

def check (s : Run m) (path name : Text) (digest : Digest) (fit : List Mir.Body) (parent : Nat) :
    Traced m (Checked × Text) := do
  let tellBody (body : Text) (status : BodyStatus) : Traced m Unit :=
    s.tell { file := path, body, stage := .check, status := (bodyStatus status).1,
             errors := (bodyStatus status).2 }
  let key := cacheKey s.version digest
  let recalled ← match s.store with
    | none => pure .miss
    | some store => liftM (store.get key)
  match acceptable? s.version fit.length recalled with
  | some findings =>
    for b in fit do
      tellBody b.name (.done (foundIn findings b.name))
    return (⟨findings, true⟩, "cached")
  | none =>
    let findings ← checkModule s.host.clock tellBody parent name fit
    if let some store := s.store then
      if !(← liftM s.watcher.isCancelled) then
        -- a store that cannot be written is no reason to stop
        discard (liftM (store.put key
          { module := name, version := s.version, bodies := fit.length,
            findings := if findings.isEmpty then none else some findings }))
    return (⟨findings, false⟩, Text.ofNat findings.length ++ " bodies with errors")

/-- The stages of a file below a span: what is to be said about it, the stages it went through, and
whether the run was cancelled on the way. -/
def stages (s : Run m) (path : Text) (parent : Nat) :
    Traced m (FileReport × List Timing.Lap × Bool) := do
  s.tell { file := path, stage := .load, status := .working }
  let (loaded, lap) ← s.stage path .load parent (s.load path)
  let bag : Bag := { limit := s.limit }
  match loaded.module with
  | .error fault =>
    s.tell { file := path, stage := .load, status := .error }
    return ({ path, digest := loaded.digest, module := .error fault
              bag := bag.add fault.diagnostic }, [lap], false)
  | .ok m =>
    let laps := [lap]
    let (screened, lap) ← s.stage path .validate parent fun _ =>
      let screened := screen m
      return (screened, Text.ofNat screened.rejected.length ++ " invalid")
    let laps := laps ++ [lap]
    let report : FileReport :=
      { path, digest := loaded.digest, module := .ok m, rejected := screened.rejected
        bag := bag.addAll (screened.rejected.map Rejected.diagnostic) }
    if ← liftM s.watcher.isCancelled then return (report, laps, true)
    let (checked, lap) ← s.stage path .check parent (s.check path m.name loaded.digest screened.fit)
    let laps := laps ++ [lap]
    let report := { report with findings := checked.findings, isCached := checked.isCached }
    if ← liftM s.watcher.isCancelled then return (report, laps, true)
    let (report, lap) ← s.stage path .report parent fun _ =>
      let report := { report with bag := report.bag.addAll (diagnostics m checked.findings) }
      return (report, Text.ofNat (FileReport.violationCount m checked.findings) ++ " errors")
    s.tell { file := path, stage := .report, status := finished report.hasErrors
             errors := report.bag.size }
    return (report, laps ++ [lap], false)

/-- Checks a file below a span. Also answers whether the run was cancelled before all was done. -/
def checkFile (s : Run m) (parent : Nat) (path : Text) : Traced m (FileReport × Bool) := do
  let span ← Traced.enter s.host.clock .driver path parent
  let (report, laps, isCancelled) ← s.stages path (if span.isSome then Span.idOf span else parent)
  let shown := span.map (Span.attr "diagnostics" (Text.ofNat report.bag.size))
  Traced.leave s.host.clock shown []
  return ({ report with timing := (Timing.Timer.mk laps).report }, isCancelled)

def checkNext (s : Run m) (parent : Nat) (path : Text) : Traced m (Option FileReport × Bool) := do
  if ← liftM s.watcher.isCancelled then return (none, true)
  let (report, isCancelled) ← s.checkFile parent path
  return (some report, isCancelled)

/-- Checks files in order. Those that a cancelled run did not come to have no report. -/
def checkFiles (s : Run m) (parent : Nat) (paths : List Text) :
    Traced m (List (Option FileReport) × Bool) := do
  for path in paths do
    s.tell { file := path, stage := .load, status := .queued }
  let results ← paths.mapM (s.checkNext parent)
  return (results.map Prod.fst, results.any Prod.snd)

end Run

variable {m : Type → Type} [Monad m]

/-- The files that a path stands for: itself, or those in a known format below a directory. -/
def expandPath (host : Host m) (path : Text) : m (Except FileFault (List Text)) := do
  match ← host.kind path with
  | .error fault => return .error fault
  | .ok .file => return .ok [path]
  | .ok .directory =>
    match ← host.filesBelow path with
    | .error fault => return .error fault
    | .ok files =>
      let found := (files.map fun file => Path.join [path, file]).filter fun file =>
        (FileFormat.ofPath? file).isSome
      return .ok (found.mergeSort fun a b => !b.before a)

def expandPaths (host : Host m) : List Text → m (Except FileFault (List Text))
  | [] => return .ok []
  | path :: rest => do
    match ← expandPath host path with
    | .error fault => return .error fault
    | .ok files => return (← expandPaths host rest).map (files ++ ·)

end Session

end BorrowChecker
