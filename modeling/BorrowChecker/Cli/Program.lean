import BorrowChecker.Cli.Check
import BorrowChecker.Mir.Dump

/-!
The program: it finds the command that its arguments name and runs it.
-/

namespace BorrowChecker

namespace Cli

variable {m : Type → Type} [Monad m]

def loadModule (around : Surroundings m) (path : Text) : Shell m Handoff.Module := do
  let data ← Shell.demand .file (around.host.read path)
  match File.read path data with
  | .ok m => return m
  | .error fault => throw (.content fault)

def dump (around : Surroundings m) (path : Text) : Shell m Unit := do
  Shell.print (← loadModule around path).meaning.dump

def encode (around : Surroundings m) (g : Given) (source target : Text) : Shell m Unit := do
  let packed ← loadModule around source
  let module := packed.meaning
  if !module.flaws.isEmpty then throw (.invalid source module.flaws)
  Shell.demand .file (around.host.replace target ".mirpack-" (Pack.encodeModule packed))
  if !g.isOn "quiet" then
    Shell.print ("wrote " ++ target ++ " (" ++ Text.ofNat module.bodies.length ++ " bodies)\n")

def version (around : Surroundings m) (g : Given) : Shell m Unit := do
  if g.text? "format" = some Layout.json.print then
    Shell.print (around.build.json.indented 0 ++ [10])
  else
    let mode := (g.text? "color").getD Switch.auto.print
    let automatic ← Shell.ask (automaticColor around)
    let useColor := mode == Switch.on.print || (automatic && mode != Switch.off.print)
    Shell.print (around.build.describe (around.build.colored useColor))

def Flag.helpLine (f : Flag) : Text := "  " ++ Text.padRight 20 f.shown ++ "  " ++ f.usage ++ "\n"

def Command.helpLine (c : Command) : Text :=
  "  " ++ Text.padRight 12 c.name ++ c.summary ++ "\n"

def help (c : Command) : Text :=
  c.summary ++ "\n\nUsage:\n  " ++ c.path ++ " [flags] [arguments]\n" ++
    Text.guarded (c == .root)
      ("\nAvailable Commands:\n" ++ Text.joined [] (Command.named.map Command.helpLine)) ++
    "\nFlags:\n" ++ Text.joined [] (c.flags.map Flag.helpLine)

def runCommand (around : Surroundings m) (args : List Text) : Shell m Unit := do
  let usage {α : Type} (r : Except UsageFault α) : Shell m α :=
    liftM (m := Except Failure) (r.mapError .usage)
  let (c, rest) ← usage (findCommand args)
  let g ← usage ((Flag.readAll c.flags {} rest).mapError .flag)
  if g.isOn "help" then Shell.print (help c)
  else if g.isOn "version" then
    Shell.print (program ++ " version " ++ around.build.version ++ "\n")
  else
    if let some fault := c.argumentFault? g.args then throw (.usage fault)
    match c, g.args with
    | .check, _ => check around g
    | .dump, path :: _ => dump around path
    | .encode, source :: target :: _ => encode around g source target
    | .version, _ => version around g
    | _, _ => Shell.print (help c)

structure Finished where
  status : Nat
  out : Text
  err : Text
deriving DecidableEq, Repr

/-- Runs the program. Time is counted from its start; any failure ends it with status one. -/
def run (around : Surroundings m) (args : List Text) : m Finished := do
  let start ← around.host.clock
  let host := { around.host with clock := return (← around.host.clock) - start }
  let (result, console) ← (runCommand { around with host } args).run.run {}
  match result with
  | .ok () => return ⟨0, console.out, console.err⟩
  | .error failure =>
    let line := match failure.message? with
      | none => []
      | some message => program ++ ": " ++ message ++ "\n"
    return ⟨1, console.out, console.err ++ line⟩

end Cli

end BorrowChecker
