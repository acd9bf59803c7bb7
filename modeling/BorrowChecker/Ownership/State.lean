import BorrowChecker.Mir.Body

/-!
What is known about every local at one point of a body: whether it still owns its value, and which
references to it are in use. States of the same body form a lattice, ordered by how much they
forbid.
-/

namespace BorrowChecker

namespace Ownership

open Mir

/-- How a local stands, from the least to the most restrictive. -/
inductive Tag where
  | owned
  | uninitialized
  | dropped
  | moved
deriving DecidableEq, Repr

namespace Tag

def rank : Tag → Nat
  | owned => 0
  | uninitialized => 1
  | dropped => 2
  | moved => 3

def print : Tag → Text
  | owned => "owned"
  | uninitialized => "uninitialized"
  | dropped => "dropped"
  | moved => "moved"

def ofName? (name : Text) : Option Tag :=
  [owned, uninitialized, dropped, moved].find? fun t => t.print == name

end Tag

inductive BorrowKind where
  | shared
  | exclusive
deriving DecidableEq, Repr

namespace BorrowKind

def rank : BorrowKind → Nat
  | shared => 0
  | exclusive => 1

def print : BorrowKind → Text
  | shared => "shared"
  | exclusive => "exclusive"

def ofName? (name : Text) : Option BorrowKind := [shared, exclusive].find? fun k => k.print == name

end BorrowKind

structure Borrow where
  kind : BorrowKind
  site : Location
  holder : LocalId
deriving DecidableEq, Repr

namespace Borrow

def before (a b : Borrow) : Bool :=
  if a.site ≠ b.site then a.site.before b.site
  else if a.holder ≠ b.holder then a.holder < b.holder
  else a.kind.rank < b.kind.rank

/-- The order of a sort: what is not later may stand first. -/
def upTo (a b : Borrow) : Bool := !b.before a

def sort (borrows : List Borrow) : List Borrow := borrows.mergeSort upTo

def append (borrows : List Borrow) (br : Borrow) : List Borrow :=
  if borrows.contains br then borrows else borrows ++ [br]

def insert (br : Borrow) (borrows : List Borrow) : List Borrow :=
  if borrows.contains br then borrows else sort (borrows ++ [br])

def union (a b : List Borrow) : List Borrow := sort (b.foldl append a)

def print (br : Borrow) : Text :=
  br.kind.print ++ "@" ++ br.site.print ++ "->" ++ br.holder.print

end Borrow

structure Slot where
  tag : Tag := .owned
  since : Location := ⟨0, 0⟩
  borrows : List Borrow := []
deriving DecidableEq, Repr

namespace Slot

/-- The more restrictive tag with its location, the left one when they tie, and all borrows. -/
def join (a b : Slot) : Slot :=
  { tag := if a.tag.rank < b.tag.rank then b.tag else a.tag
    since := if a.tag.rank < b.tag.rank then b.since else a.since
    borrows := Borrow.union a.borrows b.borrows }

def addBorrow (s : Slot) (br : Borrow) : Slot := { s with borrows := br.insert s.borrows }

def keepBorrows (keep : Borrow → Bool) (s : Slot) : Slot :=
  { s with borrows := s.borrows.filter keep }

def print (s : Slot) : Text :=
  s.tag.print ++ "@" ++ s.since.print ++ s.borrows.flatMap fun br => 32 :: br.print

end Slot

structure NoSlot where
  place : LocalId
  slots : Nat
deriving DecidableEq, Repr

namespace NoSlot

def message (e : NoSlot) : Text :=
  "runtime error: index out of range [" ++ Text.ofInt e.place ++ "]" ++
    Text.guarded (0 ≤ e.place) (" with length " ++ Text.ofNat e.slots)

end NoSlot

abbrev State := List Slot

namespace State

/-- Parameters own what they are passed; all else starts without a value. -/
def initial (b : Body) : State :=
  (List.range b.locals.length).map fun (i : Nat) =>
    { tag := if b.isParam i then .owned else .uninitialized }

def slot (s : State) (id : LocalId) : Slot :=
  if id < 0 then {} else s.getD id.toNat {}

def update (s : State) (id : LocalId) (change : Slot → Slot) : State :=
  if id < 0 then s else s.modify id.toNat change

def change (s : State) (id : LocalId) (f : Slot → Slot) : Except NoSlot State :=
  if 0 ≤ id ∧ id < s.length then .ok (s.update id f) else .error ⟨id, s.length⟩

def join (a b : State) : State := List.zipWith Slot.join a b

def releaseHolder (s : State) (holder : LocalId) : State :=
  s.map (Slot.keepBorrows fun br => br.holder != holder)

def print (s : State) : List Text := s.map Slot.print

end State

end Ownership

end BorrowChecker
