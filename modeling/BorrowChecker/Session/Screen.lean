import BorrowChecker.Diagnostic.Bag
import BorrowChecker.Mir.Flaw

/-!
Telling the bodies of a module that are fit to be checked from those that are not. A body is fit when
it is there, is the first with its name, and has no flaw.
-/

namespace BorrowChecker

namespace Session

open Mir

inductive Unfit where
  | absent
  | definedTwice
  | malformed (flaws : List Flaw)
deriving DecidableEq, Repr

def Unfit.message : Unfit → Text
  | absent => "missing body"
  | definedTwice => "defined twice"
  | malformed flaws => Flaw.messages flaws

structure Rejected where
  name : Text
  reason : Unfit
deriving DecidableEq, Repr

def judge (seen : List Text) (index : Nat) : List (Option Body) → List (Except Rejected Body)
  | [] => []
  | none :: rest => .error ⟨"#" ++ Text.ofNat index, .absent⟩ :: judge seen (index + 1) rest
  | some b :: rest =>
    (if b.name ∈ seen then .error ⟨b.name, .definedTwice⟩
      else if b.isValid then .ok b
      else .error ⟨b.name, .malformed b.flaws⟩) ::
      judge (b.name :: seen) (index + 1) rest

structure Screened where
  fit : List Body
  rejected : List Rejected

def screen (m : Module) : Screened :=
  let judged := judge [] 0 m.bodies
  { fit := judged.filterMap Except.toOption
    rejected := judged.filterMap fun
      | .error r => some r
      | .ok _ => none }

def Rejected.diagnostic (r : Rejected) : Diagnostic :=
  { severity := .error, code := .invalidBody
    message := "malformed body `" ++ r.name ++ "`"
    primary := { body := r.name }
    notes := (r.reason.message.splitOnByte 10).map fun line => ⟨{ body := r.name }, line⟩ }

end Session

end BorrowChecker
