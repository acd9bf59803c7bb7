import BorrowChecker.Proofs.Lattice
import Mathlib.Data.List.Sort

/-!
The laws of joins. Lists of references in order are determined by their members, so on states whose
lists are in order the join is the least upper bound: it is idempotent and associative, also in its
locations, and commutative but for the locations of tags that tie. A join leaves a state as it is
exactly when it adds a state below it, which is the test by which the analysis knows that it is done.
-/

namespace BorrowChecker

namespace Ownership

open Mir

theorem Tag.rank_inj {t u : Tag} (same : t.rank = u.rank) : t = u := by
  cases t <;> cases u <;> simp_all [Tag.rank]

namespace Borrow

instance : Std.Irrefl fun a b : Borrow => a.before b := ⟨before_irrefl⟩

instance : Std.Antisymm fun a b : Borrow => a.before b :=
  ⟨fun a _ first second => absurd (before_trans first second) (before_irrefl a)⟩

instance (borrows : List Borrow) : Decidable (Ordered borrows) :=
  inferInstanceAs (Decidable (List.Pairwise ..))

/-- Each set of references has one list. -/
theorem Ordered.ext {a b : List Borrow} (left : Ordered a) (right : Ordered b)
    (same : ∀ br, br ∈ a ↔ br ∈ b) : a = b := List.Pairwise.eq_of_mem_iff left right same

theorem union_assoc {a : List Borrow} (b c : List Borrow) (ordered : Ordered a) :
    union a (union b c) = union (union a b) c := by
  refine (ordered_union _ ordered).ext (ordered_union _ (ordered_union _ ordered)) ?_
  intro br
  simp only [mem_union, or_assoc]

theorem union_comm {a b : List Borrow} (left : Ordered a) (right : Ordered b) :
    union a b = union b a := by
  refine (ordered_union _ left).ext (ordered_union _ right) ?_
  intro br
  rw [mem_union, mem_union, or_comm]

theorem union_eq_left_iff {a b : List Borrow} (ordered : Ordered a) : union a b = a ↔ b ⊆ a := by
  constructor
  · intro same br member
    rw [← same]
    exact mem_union.mpr (.inr member)
  · intro subset
    refine (ordered_union _ ordered).ext ordered ?_
    intro br
    rw [mem_union]
    exact or_iff_left_of_imp fun member => subset member

end Borrow

namespace Slot

theorem join_assoc {a : Slot} (b c : Slot) (ordered : Borrow.Ordered a.borrows) :
    a.join (b.join c) = (a.join b).join c := by
  have borrows := Borrow.union_assoc b.borrows c.borrows ordered
  by_cases first : a.tag.rank < b.tag.rank
  · by_cases second : b.tag.rank < c.tag.rank
    · have third : a.tag.rank < c.tag.rank := by omega
      simp [join, first, second, third, borrows]
    · simp [join, first, second, borrows]
  · by_cases second : b.tag.rank < c.tag.rank
    · simp [join, first, second, borrows]
    · have third : ¬ a.tag.rank < c.tag.rank := by omega
      simp [join, first, second, third, borrows]

theorem tag_join_comm (a b : Slot) : (a.join b).tag = (b.join a).tag := by
  refine Tag.rank_inj ?_
  rw [rank_join, rank_join, Nat.max_comm]

/-- The location depends on the order of a join only when the tags tie. -/
theorem since_join_comm {a b : Slot} (different : a.tag ≠ b.tag) :
    (a.join b).since = (b.join a).since := by
  have apart : a.tag.rank ≠ b.tag.rank := fun same => different (Tag.rank_inj same)
  by_cases first : a.tag.rank < b.tag.rank
  · have second : ¬ b.tag.rank < a.tag.rank := by omega
    simp [join, first, second]
  · have second : b.tag.rank < a.tag.rank := by omega
    simp [join, first, second]

theorem join_below {a b c : Slot} (left : a.Below c) (right : b.Below c) : (a.join b).Below c := by
  refine ⟨by rw [rank_join]; exact Nat.max_le.mpr ⟨left.1, right.1⟩, ?_⟩
  intro br member
  exact (Borrow.mem_union.mp member).elim (fun old => left.2 old) fun new => right.2 new

theorem join_eq_left_iff {a b : Slot} (ordered : Borrow.Ordered a.borrows) :
    a.join b = a ↔ b.Below a := by
  constructor
  · intro same
    have below := below_join_right a b
    rwa [same] at below
  · intro below
    have lower : ¬ a.tag.rank < b.tag.rank := Nat.not_lt.mpr below.1
    simp [join, lower, (Borrow.union_eq_left_iff ordered).mpr below.2]

end Slot

namespace State

theorem ext_slot {s t : State} (sameLength : s.length = t.length)
    (same : ∀ i : Nat, s.slot i = t.slot i) : s = t := by
  refine List.ext_getElem sameLength ?_
  intro i left right
  have here := same i
  rwa [slot_natCast, slot_natCast, List.getElem?_eq_getElem left,
    List.getElem?_eq_getElem right] at here

theorem below_of_slot {s t : State} (sameLength : s.length = t.length)
    (below : ∀ i : Nat, (s.slot i).Below (t.slot i)) : s.Below t := by
  refine List.forall₂_iff_get.mpr ⟨sameLength, ?_⟩
  intro i left right
  have here := below i
  rwa [slot_natCast, slot_natCast, List.getElem?_eq_getElem left,
    List.getElem?_eq_getElem right] at here

def Canonical (s : State) : Prop := ∀ slot ∈ s, Borrow.Ordered slot.borrows

instance (s : State) : Decidable s.Canonical := inferInstanceAs (Decidable (∀ _ ∈ _, _))

theorem Canonical.slot {s : State} (canonical : s.Canonical) (x : LocalId) :
    Borrow.Ordered (s.slot x).borrows := by
  unfold State.slot
  split
  · exact .nil
  · rw [List.getD_eq_getElem?_getD]
    cases found : s[x.toNat]? with
    | none => exact .nil
    | some slot => exact canonical slot (List.mem_of_getElem? found)

theorem canonical_join {a b : State} (canonical : a.Canonical) : (a.join b).Canonical := by
  intro slot member
  obtain ⟨i, inside, rfl⟩ := List.mem_iff_getElem.mp member
  rw [join, List.length_zipWith] at inside
  simp only [join, List.getElem_zipWith]
  exact Borrow.ordered_union _ (canonical _ (List.getElem_mem _))

theorem join_assoc {a b c : State} (first : a.length = b.length) (second : b.length = c.length)
    (canonical : a.Canonical) : a.join (b.join c) = (a.join b).join c := by
  have inner := length_join second
  have outer := length_join first
  refine ext_slot ?_ ?_
  · rw [length_join (by omega), length_join (by omega), outer]
  · intro i
    rw [slot_join (by omega), slot_join second, slot_join (by omega), slot_join first]
    exact Slot.join_assoc _ _ (canonical.slot i)

theorem join_below {a b c : State} (left : a.Below c) (right : b.Below c) :
    (a.join b).Below c := by
  have sameLength : a.length = b.length := left.length_eq.trans right.length_eq.symm
  refine below_of_slot ?_ ?_
  · rw [length_join sameLength, left.length_eq]
  · intro i
    rw [slot_join sameLength]
    exact Slot.join_below (left.slot i) (right.slot i)

theorem join_eq_left_iff {a b : State} (sameLength : a.length = b.length)
    (canonical : a.Canonical) : a.join b = a ↔ b.Below a := by
  constructor
  · intro same
    have below := below_join_right sameLength
    rwa [same] at below
  · intro below
    refine ext_slot (length_join sameLength) ?_
    intro i
    rw [slot_join sameLength]
    exact (Slot.join_eq_left_iff (canonical.slot i)).mpr (below.slot i)

/-- On states whose references are in order, the join is a least upper bound. -/
theorem join_laws {a b c : State} (first : a.length = b.length) (second : b.length = c.length)
    (left : a.Canonical) (right : b.Canonical) :
    a.join a = a ∧
      a.join (b.join c) = (a.join b).join c ∧
      (∀ x, ((a.join b).slot x).tag = ((b.join a).slot x).tag ∧
        ((a.join b).slot x).borrows = ((b.join a).slot x).borrows ∧
        (((a.join b).slot x).since ≠ ((b.join a).slot x).since →
          (a.slot x).tag = (b.slot x).tag)) ∧
      a.Below (a.join b) ∧ b.Below (a.join b) ∧
      (∀ u : State, a.Below u → b.Below u → (a.join b).Below u) ∧
      (a.join b).length = a.length ∧ (a.join b).Canonical ∧
      (a.join b = a ↔ b.Below a) := by
  refine ⟨(join_eq_left_iff rfl left).mpr (.refl a), join_assoc first second left, ?_,
    below_join_left first, below_join_right first, fun u => join_below, length_join first,
    canonical_join left, join_eq_left_iff first left⟩
  intro x
  rw [slot_join first, slot_join first.symm]
  refine ⟨Slot.tag_join_comm _ _, Borrow.union_comm (left.slot x) (right.slot x), ?_⟩
  intro apart
  by_contra different
  exact apart (Slot.since_join_comm different)

/-- Three arms that meet: the first two have moved one value away at different points, and lend
another one in part to the same holders. -/
def firstArm : State :=
  [⟨.moved, ⟨1, 0⟩, []⟩, ⟨.owned, ⟨0, 0⟩, [⟨.shared, ⟨0, 2⟩, 3⟩, ⟨.shared, ⟨1, 0⟩, 4⟩]⟩]

def secondArm : State :=
  [⟨.moved, ⟨2, 0⟩, []⟩, ⟨.dropped, ⟨2, 3⟩, [⟨.exclusive, ⟨0, 1⟩, 5⟩, ⟨.shared, ⟨0, 2⟩, 3⟩]⟩]

def thirdArm : State :=
  [⟨.owned, ⟨3, 1⟩, [⟨.shared, ⟨0, 2⟩, 3⟩]⟩, ⟨.dropped, ⟨3, 0⟩, [⟨.exclusive, ⟨0, 2⟩, 3⟩]⟩]

theorem arms_join :
    firstArm.length = secondArm.length ∧ secondArm.length = thirdArm.length ∧
      firstArm.Canonical ∧ secondArm.Canonical ∧
      firstArm.join (secondArm.join thirdArm) = (firstArm.join secondArm).join thirdArm ∧
      firstArm.join secondArm ≠ secondArm.join firstArm ∧
      (firstArm.slot 0).tag = (secondArm.slot 0).tag ∧
      firstArm.Below (firstArm.join secondArm) ∧ secondArm.Below (firstArm.join secondArm) ∧
      (firstArm.join secondArm).Canonical ∧ ¬ secondArm.Below firstArm := by
  have first : firstArm.length = secondArm.length := rfl
  have second : secondArm.length = thirdArm.length := rfl
  have left : firstArm.Canonical := by decide
  have right : secondArm.Canonical := by decide
  obtain ⟨_, assoc, comm, above, aboveToo, _, _, canonical, stable⟩ := join_laws first second left right
  have apart : ((firstArm.join secondArm).slot 0).since ≠
      ((secondArm.join firstArm).slot 0).since := by decide
  have stricter : ((firstArm.join secondArm).slot 1).tag ≠ (firstArm.slot 1).tag := by decide
  refine ⟨first, second, left, right, assoc, fun same => apart (by rw [same]), (comm 0).2.2 apart,
    above, aboveToo, canonical, ?_⟩
  rw [← stable]
  exact fun same => stricter (by rw [same])

end State

end Ownership

end BorrowChecker
