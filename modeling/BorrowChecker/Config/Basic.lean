import BorrowChecker.Diagnostic.Render
import BorrowChecker.Trace.Level

/-!
The settings of the program. They are kept as they are written; those that name no choice, or are
too small, are flaws.
-/

namespace BorrowChecker

inductive Switch where
  | auto
  | on
  | off
deriving DecidableEq, Repr

namespace Switch

def print : Switch → Text
  | auto => "auto"
  | on => "on"
  | off => "off"

def all : List Switch := [auto, on, off]

def ofName? (name : Text) : Option Switch := all.find? fun s => s.print == name

def isOn (s : Switch) (automatic : Bool) : Bool :=
  match s with
  | auto => automatic
  | on => true
  | off => false

end Switch

structure Config where
  /-- How many bodies to check at once; zero leaves the choice to the program. -/
  jobs : Int := 0
  /-- How many diagnostics a file may have; zero is no limit. -/
  maxDiagnostics : Int := 100
  format : Text := "pretty"
  color : Text := "auto"
  ui : Text := "off"
  level : Text := "off"
  output : Text := "-"
  isCaching : Bool := false
  cacheDir : Text := []
deriving DecidableEq, Repr

inductive ConfigFlaw where
  | negative (key : Text) (value : Int)
  | notOneOf (key value : Text) (choices : List Text)
deriving DecidableEq, Repr

namespace ConfigFlaw

def message : ConfigFlaw → Text
  | negative key value => key ++ " must be >= 0, got " ++ Text.ofInt value
  | notOneOf key value choices =>
    key ++ ": invalid value " ++ Quoted.encode value ++ " (expected one of [" ++
      Text.joined " " choices ++ "])"

def messages (flaws : List ConfigFlaw) : Text := Text.joined "\n" (flaws.map message)

end ConfigFlaw

namespace Config

def signFlaw? (key : Text) (value : Int) : Option ConfigFlaw :=
  if value < 0 then some (.negative key value) else none

def choiceFlaw? (key value : Text) (choices : List Text) : Option ConfigFlaw :=
  if choices.contains value then none else some (.notOneOf key value choices)

def formats : List Text := [Layout.pretty, Layout.short, Layout.json].map Layout.print

def switches : List Text := Switch.all.map Switch.print

def levels : List Text := Trace.Level.named.map Prod.snd

def flaws (c : Config) : List ConfigFlaw :=
  [signFlaw? "check.jobs" c.jobs,
    signFlaw? "check.max_diagnostics" c.maxDiagnostics,
    choiceFlaw? "output.format" c.format formats,
    choiceFlaw? "output.color" c.color switches,
    choiceFlaw? "output.ui" c.ui switches,
    choiceFlaw? "trace.level" c.level levels].filterMap id

end Config

end BorrowChecker
