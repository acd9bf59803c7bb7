import BorrowChecker.Ownership.Violation

/-!
What every list of violations of a body has to satisfy: locations lie in the body, located
violations come in the order of their second location and before the others, none is repeated, and
each names a declared local.
-/

namespace BorrowChecker

namespace Ownership

open Mir

inductive Breach where
  | absentBody
  | repeated (index : Nat) (v : Violation)
  | namelessLifetime (index : Nat)
  | afterLifetimes (index : Nat) (kind : ViolationKind)
  | unknownLocal (index : Nat) (id : LocalId)
  | unknownBlock (index : Nat) (loc : Location)
  | beyondBlock (index : Nat) (loc : Location) (statements : Nat)
  | outOfOrder (index : Nat) (loc previous : Location)
deriving DecidableEq, Repr

namespace Breach

def numbered (index : Nat) : Text := "error " ++ Text.ofNat index

def message : Breach → Text
  | absentBody => "nil body"
  | repeated index v => numbered index ++ " reported twice: " ++ v.print
  | namelessLifetime index => numbered index ++ ": lifetime error without a name"
  | afterLifetimes index kind => numbered index ++ ": " ++ kind.print ++ " after lifetime errors"
  | unknownLocal index id => numbered index ++ ": unknown local " ++ id.print
  | unknownBlock index loc =>
    numbered index ++ ": location " ++ loc.print ++ ": no block " ++ loc.block.print
  | beyondBlock index loc statements =>
    numbered index ++ ": location " ++ loc.print ++ ": block " ++ loc.block.print ++ " has " ++
      Text.ofNat statements ++ " statements"
  | outOfOrder index loc previous =>
    numbered index ++ " at " ++ loc.print ++ " reported after " ++ previous.print

end Breach

def locationBreach? (b : Body) (index : Nat) (loc : Location) : Option Breach :=
  match b.block? loc.block with
  | none => some (.unknownBlock index loc)
  | some block =>
    if 0 ≤ loc.statement ∧ loc.statement ≤ block.statements.length then none
    else some (.beyondBlock index loc block.statements.length)

def locatedBreach? (b : Body) (index : Nat) (previous : Option Location) (v : Violation) :
    Option Breach :=
  if (b.local? v.place).isNone then some (.unknownLocal index v.place)
  else
    match locationBreach? b index v.first with
    | some breach => some breach
    | none =>
      match locationBreach? b index v.second with
      | some breach => some breach
      | none =>
        match previous with
        | none => none
        | some loc => if v.second.before loc then some (.outOfOrder index v.second loc) else none

def breachAfter? (b : Body) (seen : List Violation) (previous : Option Location)
    (lifetimes : Bool) : List Violation → Option Breach
  | [] => none
  | v :: rest =>
    let index := seen.length
    if v ∈ seen then some (.repeated index v)
    else if v.kind = .undeclaredLifetime then
      if v.lifetime.isEmpty then some (.namelessLifetime index)
      else breachAfter? b (v :: seen) previous true rest
    else if lifetimes then some (.afterLifetimes index v.kind)
    else
      match locatedBreach? b index previous v with
      | some breach => some breach
      | none => breachAfter? b (v :: seen) (some v.second) lifetimes rest

def breach? (b : Option Body) (found : List Violation) : Option Breach :=
  match b with
  | none => some .absentBody
  | some b => breachAfter? b [] none false found

end Ownership

end BorrowChecker
