import BorrowChecker.Number.Literal

/-!
Flags of a command line. A flag stands anywhere among the arguments, as `--name value` or
`--name=value`; a switch needs no value, and some switches have a letter. Two dashes alone end the
flags.
-/

namespace BorrowChecker

namespace Cli

inductive FlagKind where
  | text
  | integer
  | switch
deriving DecidableEq, Repr

structure Flag where
  name : Text
  kind : FlagKind
  letter : Option UInt8 := none
  usage : Text := []
deriving DecidableEq, Repr

inductive FlagValue where
  | text (value : Text)
  | integer (value : Int)
  | switch (value : Bool)
deriving DecidableEq, Repr

inductive FlagFault where
  | badForm (arg : Text)
  | unknown (name : Text)
  | unknownLetter (letter : UInt8) (letters : Text)
  | noValue (arg : Text)
  | refused (flag : Flag) (value : Text) (fault : NumberFault)
deriving DecidableEq, Repr

def Flag.shown (f : Flag) : Text :=
  match f.letter with
  | none => "--" ++ f.name
  | some letter => "-" ++ [letter] ++ ", --" ++ f.name

def FlagFault.message : FlagFault → Text
  | badForm arg => "bad flag syntax: " ++ arg
  | unknown name => "unknown flag: --" ++ name
  | unknownLetter letter letters =>
    "unknown shorthand flag: " ++ Quoted.encodeChar letter.toNat ++ " in -" ++ letters
  | noValue arg => "flag needs an argument: " ++ arg
  | refused flag value fault =>
    "invalid argument " ++ Quoted.encode value ++ " for " ++ Quoted.encode flag.shown ++ " flag: " ++
      fault.message

structure Given where
  values : List (Text × FlagValue) := []
  args : List Text := []
deriving DecidableEq, Repr

namespace Given

def isSet (g : Given) (name : Text) : Bool := (g.values.lookup name).isSome

/-- The value of a flag; of several, the last. -/
def text? (g : Given) (name : Text) : Option Text :=
  match g.values.lookup name with
  | some (.text t) => some t
  | _ => none

def integer? (g : Given) (name : Text) : Option Int :=
  match g.values.lookup name with
  | some (.integer n) => some n
  | _ => none

def isOn (g : Given) (name : Text) : Bool :=
  match g.values.lookup name with
  | some (.switch b) => b
  | _ => false

def set (g : Given) (f : Flag) (value : FlagValue) : Given :=
  { g with values := (f.name, value) :: g.values }

end Given

namespace Flag

def readValue (f : Flag) (value : Text) : Except FlagFault FlagValue :=
  let refuse (fault : NumberFault) : FlagFault := .refused f value fault
  match f.kind with
  | .text => .ok (.text value)
  | .integer => ((Text.readSignedLiteral 64 value).mapError refuse).map .integer
  | .switch => ((Text.readBool value).mapError refuse).map .switch

def read (f : Flag) (value : Text) (g : Given) : Except FlagFault Given :=
  (f.readValue value).map (g.set f)

def find? (flags : List Flag) (name : Text) : Option Flag := flags.find? fun f => f.name == name

def readLetters (flags : List Flag) (g : Given) : Text → Except FlagFault Given
  | [] => .ok g
  | letter :: rest =>
    match flags.find? fun f => f.letter == some letter with
    | none => .error (.unknownLetter letter (letter :: rest))
    | some f =>
      match rest with
      | 61 :: value :: more => f.read (value :: more) g
      | _ => do readLetters flags (← f.read "true" g) rest

def cutName (body : Text) : Text × Option Text :=
  let name := body.takeWhile (· != 61)
  (name, if name.length < body.length then some (body.drop (name.length + 1)) else none)

def readAll (flags : List Flag) (g : Given) : List Text → Except FlagFault Given
  | [] => .ok g
  | arg :: rest =>
    match arg with
    | [45, 45] => .ok { g with args := g.args ++ rest }
    | 45 :: 45 :: first :: more =>
      if first = 45 ∨ first = 61 then .error (.badForm arg)
      else
        match find? flags (cutName (first :: more)).1, (cutName (first :: more)).2 with
        | none, _ => .error (.unknown (cutName (first :: more)).1)
        | some f, some value => do readAll flags (← f.read value g) rest
        | some f, none =>
          if f.kind = .switch then do readAll flags (← f.read "true" g) rest
          else
            match rest with
            | [] => .error (.noValue arg)
            | value :: rest => do readAll flags (← f.read value g) rest
    | 45 :: first :: more => do readAll flags (← readLetters flags g (first :: more)) rest
    | _ => readAll flags { g with args := g.args ++ [arg] } rest

end Flag

end Cli

end BorrowChecker
