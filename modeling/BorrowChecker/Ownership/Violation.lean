import BorrowChecker.Mir.Body
import BorrowChecker.Diagnostic.Code

/-!
Violations of the ownership and borrowing rules.
-/

namespace BorrowChecker

namespace Ownership

open Mir

inductive ViolationKind where
  | useAfterMove
  | doubleFree
  | useAfterFree
  | mutableBorrowConflict
  | moveWhileBorrowed
  | undeclaredLifetime
  | unknown (code : UInt8)
deriving DecidableEq, Repr

namespace ViolationKind

def ofCode (code : UInt8) : ViolationKind :=
  match code with
  | 0 => useAfterMove
  | 1 => doubleFree
  | 2 => useAfterFree
  | 3 => mutableBorrowConflict
  | 4 => moveWhileBorrowed
  | 5 => undeclaredLifetime
  | code => unknown code

def toCode : ViolationKind → UInt8
  | useAfterMove => 0
  | doubleFree => 1
  | useAfterFree => 2
  | mutableBorrowConflict => 3
  | moveWhileBorrowed => 4
  | undeclaredLifetime => 5
  | unknown code => code

def print : ViolationKind → Text
  | useAfterMove => "UseAfterMove"
  | doubleFree => "DoubleFree"
  | useAfterFree => "UseAfterFree"
  | mutableBorrowConflict => "MutableBorrowConflict"
  | moveWhileBorrowed => "MoveWhileBorrowed"
  | undeclaredLifetime => "UndeclaredLifetime"
  | unknown _ => "Unknown"

def code : ViolationKind → Code
  | useAfterMove => .useAfterMove
  | doubleFree => .doubleFree
  | useAfterFree => .useAfterFree
  | mutableBorrowConflict => .mutableConflict
  | moveWhileBorrowed => .moveWhileBorrowed
  | undeclaredLifetime => .undeclaredLifetime
  | unknown _ => .unknown

def labels : ViolationKind → Text × Text
  | useAfterMove => ("moved at", "used at")
  | doubleFree => ("first drop at", "second drop at")
  | useAfterFree => ("freed at", "used at")
  | mutableBorrowConflict => ("first mutable borrow at", "second mutable borrow at")
  | moveWhileBorrowed => ("borrowed at", "moved at")
  | undeclaredLifetime | unknown _ => ([], [])

end ViolationKind

/-- One violation. A located one names a local and two locations, an undeclared lifetime has its
name and the bound it stands in. -/
structure Violation where
  kind : ViolationKind
  place : LocalId := 0
  first : Location := ⟨0, 0⟩
  second : Location := ⟨0, 0⟩
  lifetime : Text := []
  bound : Bound := ⟨[], []⟩
deriving DecidableEq, Repr

namespace Violation

def located (kind : ViolationKind) (place : LocalId) (first second : Location) : Violation :=
  { kind, place, first, second }

def undeclared (lifetime : Text) (bound : Bound) : Violation :=
  { kind := .undeclaredLifetime, place := LocalId.missing, lifetime, bound }

def message (v : Violation) (name : Text) : Text :=
  match v.kind with
  | .useAfterMove => "use of moved value `" ++ name ++ "`"
  | .doubleFree => "value `" ++ name ++ "` dropped twice"
  | .useAfterFree => "use of freed value `" ++ name ++ "`"
  | .mutableBorrowConflict => "cannot borrow `" ++ name ++ "` as mutable more than once"
  | .moveWhileBorrowed => "cannot move `" ++ name ++ "` while borrowed"
  | .undeclaredLifetime =>
    "undeclared lifetime `'" ++ v.lifetime ++ "` in bound `" ++ v.bound.print ++ "`"
  | .unknown _ => "borrow check error"

def headline (v : Violation) : Text :=
  "error[" ++ v.kind.code.id ++ "]: " ++ v.message v.place.print

def print (v : Violation) : Text :=
  if v.kind.labels.1.isEmpty then v.headline
  else
    v.headline ++ "\n  --> " ++ v.kind.labels.1 ++ " " ++ v.first.print ++
      "\n  --> " ++ v.kind.labels.2 ++ " " ++ v.second.print

end Violation

end Ownership

end BorrowChecker
