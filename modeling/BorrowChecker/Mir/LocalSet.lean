import BorrowChecker.Mir.Operand

/-!
Finite sets of locals, kept in ascending order, so that two sets are equal when they have the same
members.
-/

namespace BorrowChecker

namespace Mir

structure LocalSet where
  members : List LocalId
  ascending : members.Pairwise (· < ·)
deriving DecidableEq, Repr

namespace LocalSet

def place (id : Int) : List Int → List Int
  | [] => [id]
  | x :: rest =>
    if id < x then id :: x :: rest
    else if id = x then x :: rest
    else x :: place id rest

theorem mem_place (id x : Int) (l : List Int) : x ∈ place id l ↔ x = id ∨ x ∈ l := by
  induction l with
  | nil => simp [place]
  | cons y rest ih => grind [place]

theorem pairwise_place (id : Int) (l : List Int) (sorted : l.Pairwise (· < ·)) :
    (place id l).Pairwise (· < ·) := by
  induction l with
  | nil => simp [place]
  | cons y rest ih =>
    rw [List.pairwise_cons] at sorted
    unfold place
    split
    case isTrue below =>
      refine List.pairwise_cons.mpr ⟨fun x member => ?_, List.pairwise_cons.mpr sorted⟩
      rcases List.mem_cons.mp member with rfl | old
      · exact below
      · exact Int.lt_trans below (sorted.1 x old)
    case isFalse above =>
      split
      · exact List.pairwise_cons.mpr sorted
      · refine List.pairwise_cons.mpr ⟨fun x member => ?_, ih sorted.2⟩
        rcases (mem_place id x rest).mp member with same | old
        · omega
        · exact sorted.1 x old

def empty : LocalSet := ⟨[], .nil⟩

def has (s : LocalSet) (id : LocalId) : Bool := s.members.contains id

def size (s : LocalSet) : Nat := s.members.length

def insert (s : LocalSet) (id : LocalId) : LocalSet :=
  ⟨place id s.members, pairwise_place id s.members s.ascending⟩

def filter (s : LocalSet) (keep : LocalId → Bool) : LocalSet :=
  ⟨s.members.filter keep, s.ascending.filter keep⟩

def insertAll (s : LocalSet) (ids : List LocalId) : LocalSet := ids.foldl insert s

def eraseAll (s : LocalSet) (ids : List LocalId) : LocalSet := s.filter fun id => !ids.contains id

def ofList (ids : List LocalId) : LocalSet := empty.insertAll ids

def union (s t : LocalSet) : LocalSet := s.insertAll t.members

def difference (s t : LocalSet) : LocalSet := s.eraseAll t.members

end LocalSet

end Mir

end BorrowChecker
