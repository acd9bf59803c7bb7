import BorrowChecker.Text.Json

/-!
How long the stages of a run take. A timer measures stages in the order in which they start; only
those that were stopped are reported.
-/

namespace BorrowChecker

namespace Timing

/-- A stage that is running, or was stopped after some nanoseconds. -/
structure Lap where
  name : Text
  start : Nat
  duration : Nat := 0
  note : Text := []
  isDone : Bool := false
deriving DecidableEq, Repr

structure Timer where
  laps : List Lap := []
deriving DecidableEq, Repr

/-- A finished stage, in milliseconds. -/
structure Phase where
  name : Text := []
  duration : Double := ⟨0⟩
  note : Text := []
deriving DecidableEq, Repr

/-- The finished stages and their sum; there may be no list of stages at all. -/
structure Report where
  total : Double := ⟨0⟩
  phases : Option (List Phase) := none
deriving DecidableEq, Repr

def milliseconds (nanos : Nat) : Double := Double.ofQuotient nanos 1000000

namespace Timer

def start (t : Timer) (now : Nat) (name : Text) : Nat × Timer :=
  (t.laps.length, { laps := t.laps ++ [{ name, start := now }] })

/-- Stops a stage; only the first stop counts. -/
def stop (t : Timer) (now : Nat) (lap : Nat) (note : Text) : Timer :=
  { laps := t.laps.modify lap fun l =>
      if l.isDone then l else { l with duration := now - l.start, note, isDone := true } }

def report (t : Timer) : Report :=
  let done := t.laps.filter Lap.isDone
  { total := milliseconds (done.foldl (fun n l => n + l.duration) 0)
    phases := if done.isEmpty then none
      else some (done.map fun l => ⟨l.name, milliseconds l.duration, l.note⟩) }

end Timer

namespace Report

/-- Blanks put to the right until the text has so many code points. -/
def padName (columns : Nat) (text : Text) : Text :=
  text ++ List.replicate (columns - text.codePoints.length) 32

def row (name : Text) (duration : Double) (note : Text) : Text :=
  "  " ++ padName 12 name ++ " " ++ Text.padLeft 8 32 (duration.fixed 3) ++ " ms" ++
    Text.guarded (!note.isEmpty) ("  // " ++ note) ++ "\n"

def printPhase (p : Phase) : Text := row p.name p.duration p.note

def print (r : Report) : Text :=
  "timings:\n" ++ (r.phases.getD []).flatMap printPhase ++ row "total" r.total []

end Report

structure FileTiming where
  path : Text := []
  isCached : Bool := false
  report : Report := {}
deriving DecidableEq, Repr

namespace FileTiming

def jsonPhase (p : Phase) : Json :=
  .object ([Json.member "name" (.string p.name), Json.member "duration_ms" (.double p.duration)] ++
    Json.textMember "note" p.note)

def jsonPhases : Option (List Phase) → Json
  | none => .null
  | some phases => .array (phases.map jsonPhase)

def json (f : FileTiming) : Json :=
  .object ([Json.member "kind" (.string "file")] ++ Json.textMember "path" f.path ++
    (if f.isCached then [Json.member "cached" (.bool true)] else []) ++
    [Json.member "total_ms" (.double f.report.total),
      Json.member "phases" (jsonPhases f.report.phases)])

def print (asJson : Bool) (f : FileTiming) : Text :=
  if asJson then f.json.compact ++ [10] else f.path ++ [10] ++ f.report.print

end FileTiming

end Timing

end BorrowChecker
