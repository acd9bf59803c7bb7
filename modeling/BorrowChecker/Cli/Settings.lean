import BorrowChecker.Cli.Shell

/-!
The settings of a run: those of a file, with the flags of the command line over them.
-/

namespace BorrowChecker

namespace Cli

structure Settings where
  config : Config
  isQuiet : Bool := false
  showsTimings : Bool := false
  ignoresCache : Bool := false
  useColor : Bool := false
  useView : Bool := false
deriving DecidableEq, Repr

/-- Settings from a file with the given flags over them. A trace that is asked for without a level is
one of the phases. -/
def overridden (g : Given) (c : Config) : Config :=
  let level := (g.text? "trace-level").getD c.level
  { c with
    color := (g.text? "color").getD c.color
    format := (g.text? "format").getD c.format
    ui := (g.text? "ui").getD c.ui
    output := (g.text? "trace").getD c.output
    level := if g.isSet "trace" ∧ ¬ g.isSet "trace-level" ∧ level = Trace.Level.off.print then
        Trace.Level.phase.print
      else level
    jobs := (g.integer? "jobs").getD c.jobs
    maxDiagnostics := (g.integer? "max-diagnostics").getD c.maxDiagnostics }

variable {m : Type → Type} [Monad m]

/-- Whether output is coloured when nobody says so: on a terminal that shows colours, unless the
environment asks for none. -/
def automaticColor (around : Surroundings m) : m Bool := do
  let refused ← around.host.environment "NO_COLOR"
  let terminal ← around.host.environment "TERM"
  return around.isOutTerminal && refused.isEmpty && terminal != "dumb"

def isSwitchedOn (name : Text) (automatic : Bool) : Bool :=
  ((Switch.ofName? name).getD .off).isOn automatic

def loadSettings (around : Surroundings m) (g : Given) : Shell m Settings := do
  let explicit := (g.text? "config").getD []
  let (config, _) ← Shell.demand .config (Config.resolve around.host explicit ".")
  let config := overridden g config
  if !config.flaws.isEmpty then throw (.settings config.flaws)
  let isQuiet := g.isOn "quiet"
  return {
    config, isQuiet
    showsTimings := g.isOn "timings"
    ignoresCache := g.isOn "no-cache"
    useColor := isSwitchedOn config.color (← Shell.ask (automaticColor around))
    useView := isSwitchedOn config.ui around.isErrTerminal && !isQuiet }

end Cli

end BorrowChecker
