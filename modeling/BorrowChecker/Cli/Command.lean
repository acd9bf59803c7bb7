import BorrowChecker.Cli.Flag
import BorrowChecker.Text.Case

/-!
Which command a command line names, and what it needs. The command is the first argument that is
neither a flag nor the value of one.
-/

namespace BorrowChecker

namespace Cli

def program : Text := "borrowck"

def commonFlags : List Flag := [
  { name := "color", kind := .text, usage := "colorize output (auto|on|off)" },
  { name := "quiet", kind := .switch, usage := "suppress non-essential output" },
  { name := "timings", kind := .switch, usage := "show timing information" },
  { name := "max-diagnostics", kind := .integer,
    usage := "maximum number of diagnostics to show per file (0=unlimited)" },
  { name := "config", kind := .text,
    usage := "path to borrowck.toml (default: nearest one above the working directory)" },
  { name := "format", kind := .text, usage := "diagnostic output format (pretty|short|json)" },
  { name := "jobs", kind := .integer, usage := "max parallel workers (0=auto)" },
  { name := "ui", kind := .text, usage := "progress view (auto|on|off)" },
  { name := "no-cache", kind := .switch,
    usage := "ignore the result cache even when borrowck.toml enables it" },
  { name := "trace", kind := .text, usage := "write trace events to this file (- for stderr)" },
  { name := "trace-level", kind := .text, usage := "trace level (off|phase|detail|debug)" },
  { name := "cpu-profile", kind := .text, usage := "write a CPU profile to this file" },
  { name := "mem-profile", kind := .text, usage := "write a heap profile to this file on exit" },
  { name := "runtime-trace", kind := .text, usage := "write a runtime trace to this file" }]

def helpFlag : Flag := { name := "help", kind := .switch, letter := some 104, usage := "show help" }

def versionFlag : Flag :=
  { name := "version", kind := .switch, letter := some 118, usage := "show the version" }

inductive Command where
  | check
  | dump
  | encode
  | version
  | help
  | completion
  | root
deriving DecidableEq, Repr

namespace Command

def name : Command → Text
  | check => "check"
  | dump => "dump"
  | encode => "encode"
  | version => "version"
  | help => "help"
  | completion => "completion"
  | root => []

def summary : Command → Text
  | check => "Borrow-check MIR modules"
  | dump => "Print a MIR module in textual form"
  | encode => "Convert a TOML or YAML module to the binary msgpack form"
  | version => "Show borrowck build information"
  | help => "Help about any command"
  | completion => "Generate the autocompletion script for the specified shell"
  | root => "Ownership and borrow checker for MIR modules"

def named : List Command := [check, dump, encode, version, help, completion]

def ofName? (name : Text) : Option Command := named.find? fun c => c.name == name

def flags (c : Command) : List Flag :=
  if c = root then commonFlags ++ [helpFlag, versionFlag] else commonFlags ++ [helpFlag]

def path (c : Command) : Text := Text.joined " " ([program, c.name].filter fun w => !w.isEmpty)

end Command

/-- Whether an argument is a flag whose value is the argument after it. -/
def wantsValue (arg : Text) : Bool :=
  !arg.contains 61 &&
    match arg with
    | 45 :: 45 :: name =>
      ((Flag.find? commonFlags name).map fun f => decide (f.kind ≠ .switch)).getD true
    | [45, _] => true
    | _ => false

/-- The arguments that are neither flags nor values of flags, up to two dashes. -/
def words : List Text → List Text
  | [] => []
  | [45, 45] :: _ => []
  | arg :: rest =>
    if wantsValue arg then
      match rest with
      | [] | [_] => []
      | _ :: rest => words rest
    else if arg.isEmpty ∨ arg.head? = some 45 then words rest
    else arg :: words rest

def dropWord (word : Text) : List Text → List Text
  | [] => []
  | [45, 45] :: rest => [45, 45] :: rest
  | arg :: rest =>
    if wantsValue arg then
      match rest with
      | [] => [arg]
      | value :: rest => arg :: value :: dropWord word rest
    else if arg = word then rest
    else arg :: dropWord word rest

def editDistance (a b : Text) : Nat :=
  (a.foldl (fun (row : List Nat) x =>
    (b.zip (row.zip (row.drop 1))).foldl (fun (next : List Nat) (y, diagonal, above) =>
      next ++ [if x == y then diagonal else
        1 + min diagonal (min above (next.getLastD 0))])
      [row.headD 0 + 1])
    (List.range (b.length + 1))).getLastD 0

/-- The commands that an unknown one may have been meant for: they begin with it or are nearly the
same. -/
def suggestions (typed : Text) : List Text :=
  ((Command.named.filter fun c => c != .help).map Command.name).filter fun name =>
    editDistance typed.lower name ≤ 2 || name.startsWith typed.lower

inductive UsageFault where
  | unknownCommand (typed : Text) (after : Command) (suggested : List Text)
  | flag (fault : FlagFault)
  | tooFew (least given : Nat)
  | notExactly (wanted given : Nat)
deriving DecidableEq, Repr

def UsageFault.message : UsageFault → Text
  | unknownCommand typed after suggested =>
    "unknown command " ++ Quoted.encode typed ++ " for " ++ Quoted.encode after.path ++
      Text.guarded (!suggested.isEmpty)
        ("\n\nDid you mean this?\n" ++ Text.joined [] (suggested.map fun name => 9 :: (name ++ [10])))
  | flag fault => fault.message
  | tooFew least given =>
    "requires at least " ++ Text.ofNat least ++ " arg(s), only received " ++ Text.ofNat given
  | notExactly wanted given =>
    "accepts " ++ Text.ofNat wanted ++ " arg(s), received " ++ Text.ofNat given

def findCommand (args : List Text) : Except UsageFault (Command × List Text) :=
  match (words args).head? with
  | none => .ok (.root, args)
  | some word =>
    match Command.ofName? word with
    | some c => .ok (c, dropWord word args)
    | none => .error (.unknownCommand word .root (suggestions word))

def Command.argumentFault? (c : Command) (args : List Text) : Option UsageFault :=
  match c with
  | check => if args.isEmpty then some (.tooFew 1 0) else none
  | dump => if args.length = 1 then none else some (.notExactly 1 args.length)
  | encode => if args.length = 2 then none else some (.notExactly 2 args.length)
  | version => args.head?.map fun arg => .unknownCommand arg .version []
  | help | completion | root => none

end Cli

end BorrowChecker
