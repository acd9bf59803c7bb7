import BorrowChecker.Cli.Settings

/-!
The command that checks files.
-/

namespace BorrowChecker

namespace Cli

open Session Trace

def renderOptions (s : Settings) (layout : Layout) (areMany : Bool) (path : Text) : RenderOptions :=
  match layout with
  | .json => { layout, notes := true, source := path, shown := s.config.maxDiagnostics }
  | .short => { layout, color := s.useColor, notes := !s.isQuiet }
  | .pretty =>
    { layout, color := s.useColor, notes := true, body := !s.isQuiet
      source := Text.guarded areMany path }

/-- The diagnostics of files. Documents of several files make up one list; files that have nothing
to say are left out of the long form. -/
def printReports (s : Settings) (reports : List FileReport) : Text :=
  let layout := (Layout.ofName? s.config.format).getD .pretty
  let options (r : FileReport) := renderOptions s layout (1 < reports.length) r.path
  match layout with
  | .json =>
    let docs := reports.map fun r => r.bag.json (options r)
    match docs with
    | [doc] => doc.indented 0 ++ [10]
    | _ => (Json.array docs).indented 0 ++ [10]
  | .short => reports.flatMap fun r => r.bag.short (options r)
  | .pretty =>
    let talking := reports.filter fun r => r.bag.size != 0 || r.bag.dropped != 0
    Text.joined [10] (talking.map fun r => r.bag.pretty (options r))

variable {m : Type → Type} [Monad m]

def openTrace (around : Surroundings m) (c : Config) : Shell m (Option Span) := do
  let level := ((Level.named.find? fun (_, name) => name == c.level).map Prod.fst).getD .off
  if level = .off then return none
  if !(c.output.isEmpty || c.output == "-") then
    Shell.demand .trace (around.host.write c.output [])
    modify fun console => { console with traceFile := some c.output }
  modify fun console => { console with tracer := { level, format := .ofPath c.output } }
  Shell.traced (Traced.enter around.host.clock .driver (Command.path .check) 0)

def closeTrace (around : Surroundings m) (root : Option Span) : Shell m Unit := do
  Shell.traced (Traced.leave around.host.clock root [])
  let console ← get
  if let some path := console.traceFile then
    discard (Shell.ask (around.host.write path console.traced))

def profiles (g : Given) (flags : List Text) : List Text :=
  (flags.filterMap g.text?).filter fun path => !path.isEmpty

def openProfiles (around : Surroundings m) (g : Given) : Shell m Unit := do
  for path in profiles g ["cpu-profile", "runtime-trace"] do
    Shell.demand .profile (around.host.write path [])

def closeProfiles (around : Surroundings m) (g : Given) : Shell m Unit := do
  for path in profiles g ["mem-profile"] do
    if let .error fault ← Shell.ask (around.host.write path []) then
      Shell.warn ("profile: " ++ fault.message ++ "\n")

/-- The cache that the settings ask for. A run goes on without one that cannot be had. -/
def openStore (around : Surroundings m) (s : Settings) : Shell m (Option (Cache.Store m)) := do
  if !s.config.isCaching || s.ignoresCache then return none
  match ← Shell.ask (Cache.Store.makeRoot around.host s.config.cacheDir program) with
  | .ok root => return some (.inDirectory around.host root)
  | .error fault =>
    if !s.isQuiet then Shell.warn ("warning: result cache disabled: " ++ fault.message ++ "\n")
    return none

def openWatcher (around : Surroundings m) (s : Settings) (paths : List Text) : m (Watcher m) := do
  if s.useView then return { Watcher.none with progress := ← around.openView paths }
  return .none

def checkPaths (around : Surroundings m) (s : Settings) (root : Option Span) (args : List Text) :
    Shell m Unit := do
  let paths ← Shell.demand .file (expandPaths around.host args)
  if paths.isEmpty then throw (.nothingFound args)
  let run : Run m :=
    { host := around.host, version := around.build.version, limit := s.config.maxDiagnostics
      store := ← openStore around s
      watcher := ← Shell.ask (openWatcher around s paths) }
  let (results, isCancelled) ← Shell.traced (run.checkFiles (Span.idOf root) paths)
  if isCancelled then throw .cancelled
  let reports := results.filterMap id
  Shell.print (printReports s reports)
  if s.showsTimings then
    Shell.warn (reports.flatMap fun r => r.timings.print (s.config.format == Layout.json.print))
  if reports.any FileReport.hasErrors then throw .diagnostics
  if !s.isQuiet && s.config.format == Layout.pretty.print then
    Shell.print ("checked " ++ Text.ofNat reports.length ++ " file(s), no errors\n")

def check (around : Surroundings m) (g : Given) : Shell m Unit := do
  let s ← loadSettings around g
  let root ← openTrace around s.config
  Shell.andFinally (do
    openProfiles around g
    Shell.andFinally (checkPaths around s root g.args) (closeProfiles around g))
    (closeTrace around root)

end Cli

end BorrowChecker
