import BorrowChecker.Ownership.State
import Mathlib.Algebra.GroupWithZero.Nat
import Mathlib.Data.List.Forall2

/-!
The order of states: a state is below another when no local is under a stricter tag and no local
has a reference that it does not have there. A join is above both of its parts. How high a state
stands is counted in ranks of tags and in references, and a join that changes a state raises it.
-/

namespace BorrowChecker

namespace Ownership

open Mir

namespace Borrow

theorem before_iff {a b : Borrow} :
    a.before b ↔ a.site.block < b.site.block ∨ a.site.block = b.site.block ∧
      (a.site.statement < b.site.statement ∨ a.site.statement = b.site.statement ∧
        (a.holder < b.holder ∨ a.holder = b.holder ∧ a.kind.rank < b.kind.rank)) := by
  obtain ⟨kind, ⟨block, statement⟩, holder⟩ := a
  obtain ⟨otherKind, ⟨otherBlock, otherStatement⟩, otherHolder⟩ := b
  unfold before Location.before
  unfold LocalId BlockId at *
  grind

theorem before_trans {a b c : Borrow} (first : a.before b) (second : b.before c) : a.before c := by
  rw [before_iff] at first second ⊢
  unfold LocalId BlockId at *
  omega

theorem before_irrefl (a : Borrow) : ¬ a.before a := by
  rw [before_iff]
  unfold LocalId BlockId at *
  omega

theorem kind_eq_of_rank {k m : BorrowKind} (same : k.rank = m.rank) : k = m := by
  cases k <;> cases m <;> simp_all [BorrowKind.rank]

theorem before_of_ne {a b : Borrow} (different : a ≠ b) (unordered : ¬ a.before b) :
    b.before a := by
  rw [before_iff] at unordered ⊢
  obtain ⟨kind, ⟨block, statement⟩, holder⟩ := a
  obtain ⟨otherKind, ⟨otherBlock, otherStatement⟩, otherHolder⟩ := b
  have kinds := @kind_eq_of_rank kind otherKind
  unfold LocalId BlockId at *
  grind

def Ordered (borrows : List Borrow) : Prop := borrows.Pairwise fun a b => a.before b

theorem Ordered.nodup {borrows : List Borrow} (ordered : Ordered borrows) : borrows.Nodup := by
  refine List.Pairwise.imp ?_ ordered
  intro a b earlier same
  subst same
  exact before_irrefl a earlier

theorem upTo_trans (a b c : Borrow) (first : a.upTo b) (second : b.upTo c) : a.upTo c := by
  simp only [upTo, Bool.not_eq_true', ← Bool.not_eq_true, before_iff] at first second ⊢
  unfold LocalId BlockId at *
  omega

theorem upTo_total (a b : Borrow) : a.upTo b || b.upTo a := by
  simp only [upTo, Bool.or_eq_true, Bool.not_eq_true', ← Bool.not_eq_true]
  by_cases later : b.before a
  · exact .inr fun earlier => before_irrefl a (before_trans earlier later)
  · exact .inl later

theorem before_of_upTo {a b : Borrow} (different : a ≠ b) (upTo : a.upTo b) : a.before b := by
  refine before_of_ne (Ne.symm different) fun later => ?_
  simp [Borrow.upTo, later] at upTo

theorem upTo_of_before {a b : Borrow} (earlier : a.before b) : a.upTo b := by
  have notLater : ¬ b.before a := fun later => before_irrefl a (before_trans earlier later)
  simpa [upTo] using notLater

theorem mem_sort {x : Borrow} {borrows : List Borrow} : x ∈ sort borrows ↔ x ∈ borrows :=
  List.mem_mergeSort

theorem length_sort (borrows : List Borrow) : (sort borrows).length = borrows.length :=
  List.length_mergeSort borrows

theorem ordered_sort {borrows : List Borrow} (once : borrows.Nodup) : Ordered (sort borrows) := by
  have sorted := List.pairwise_mergeSort upTo_trans upTo_total borrows
  have still : (sort borrows).Nodup := (List.mergeSort_perm borrows upTo).nodup_iff.mpr once
  exact List.Pairwise.imp₂ (fun _ _ => before_of_upTo) still sorted

theorem sort_of_ordered {borrows : List Borrow} (ordered : Ordered borrows) :
    sort borrows = borrows :=
  List.mergeSort_of_pairwise (ordered.imp upTo_of_before)

theorem mem_append {br x : Borrow} {borrows : List Borrow} :
    x ∈ append borrows br ↔ x = br ∨ x ∈ borrows := by
  unfold append
  split
  · rename_i present
    have member : br ∈ borrows := by simpa using present
    exact ⟨.inr, fun known => known.elim (fun same => same ▸ member) id⟩
  · simp [or_comm]

theorem nodup_append (br : Borrow) {borrows : List Borrow} (once : borrows.Nodup) :
    (append borrows br).Nodup := by
  unfold append
  split
  · exact once
  · rename_i absent
    refine List.nodup_append.mpr ⟨once, by simp, ?_⟩
    intro x member y new same
    have last : x = br := same.trans (List.mem_singleton.mp new)
    exact absent (by simpa [last] using member)

theorem insert_eq_append (br : Borrow) {borrows : List Borrow} (ordered : Ordered borrows) :
    insert br borrows = sort (append borrows br) := by
  unfold insert append
  split
  · exact (sort_of_ordered ordered).symm
  · rfl

theorem mem_insert {br x : Borrow} {borrows : List Borrow} :
    x ∈ insert br borrows ↔ x = br ∨ x ∈ borrows := by
  rw [← mem_append]
  unfold insert append
  split
  · rfl
  · exact mem_sort

theorem ordered_insert (br : Borrow) {borrows : List Borrow} (ordered : Ordered borrows) :
    Ordered (insert br borrows) := by
  rw [insert_eq_append br ordered]
  exact ordered_sort (nodup_append br ordered.nodup)

theorem mem_foldl_append {x : Borrow} {a b : List Borrow} :
    x ∈ b.foldl append a ↔ x ∈ a ∨ x ∈ b := by
  induction b generalizing a with
  | nil => simp
  | cons y rest ih =>
      rw [List.foldl_cons, ih, mem_append, List.mem_cons]
      tauto

theorem nodup_foldl_append {a : List Borrow} (b : List Borrow) (once : a.Nodup) :
    (b.foldl append a).Nodup := by
  induction b generalizing a with
  | nil => exact once
  | cons y rest ih => exact ih (nodup_append y once)

theorem foldl_append_eq_or_longer (a b : List Borrow) :
    b.foldl append a = a ∨ a.length < (b.foldl append a).length := by
  induction b generalizing a with
  | nil => exact .inl rfl
  | cons y rest ih =>
      have one : append a y = a ∨ (append a y).length = a.length + 1 := by
        unfold append
        split <;> simp
      rw [List.foldl_cons]
      rcases one with same | longer
      · rw [same]
        exact ih a
      · rcases ih (append a y) with stays | grows
        · exact .inr (by rw [stays]; omega)
        · exact .inr (by omega)

theorem mem_union {x : Borrow} {a b : List Borrow} : x ∈ union a b ↔ x ∈ a ∨ x ∈ b := by
  unfold union
  rw [mem_sort, mem_foldl_append]

theorem ordered_union {a : List Borrow} (b : List Borrow) (ordered : Ordered a) :
    Ordered (union a b) :=
  ordered_sort (nodup_foldl_append b ordered.nodup)

theorem union_eq_or_longer {a : List Borrow} (b : List Borrow) (ordered : Ordered a) :
    union a b = a ∨ a.length < (union a b).length := by
  unfold union
  rw [length_sort]
  rcases foldl_append_eq_or_longer a b with same | longer
  · exact .inl (by rw [same, sort_of_ordered ordered])
  · exact .inr longer

end Borrow

namespace Slot

def Below (a b : Slot) : Prop := a.tag.rank ≤ b.tag.rank ∧ a.borrows ⊆ b.borrows

theorem Below.refl (a : Slot) : a.Below a := ⟨Nat.le_refl _, List.Subset.refl _⟩

theorem Below.trans {a b c : Slot} (first : a.Below b) (second : b.Below c) : a.Below c :=
  ⟨Nat.le_trans first.1 second.1, List.Subset.trans first.2 second.2⟩

def Gone (a : Slot) : Prop := a.tag = .moved ∨ a.tag = .dropped

instance (a : Slot) : Decidable a.Gone := inferInstanceAs (Decidable (_ ∨ _))

theorem gone_iff_rank (a : Slot) : a.Gone ↔ 2 ≤ a.tag.rank := by
  unfold Gone
  cases a.tag <;> simp [Tag.rank]

theorem Gone.mono {a b : Slot} (below : a.Below b) (gone : a.Gone) : b.Gone := by
  rw [gone_iff_rank] at gone ⊢
  exact Nat.le_trans gone below.1

theorem Below.moved {a b : Slot} (below : a.Below b) (moved : a.tag = .moved) : b.tag = .moved := by
  have high := below.1
  rw [moved] at high
  cases spelled : b.tag <;> simp_all [Tag.rank]

theorem join_default : ({} : Slot).join {} = {} := by
  simp [join, Borrow.union, Borrow.sort]

theorem rank_join (a b : Slot) : (a.join b).tag.rank = max a.tag.rank b.tag.rank := by
  simp only [join]
  split <;> omega

theorem below_join_left (a b : Slot) : a.Below (a.join b) := by
  refine ⟨by rw [rank_join]; omega, ?_⟩
  intro br member
  exact Borrow.mem_union.mpr (.inl member)

theorem below_join_right (a b : Slot) : b.Below (a.join b) := by
  refine ⟨by rw [rank_join]; omega, ?_⟩
  intro br member
  exact Borrow.mem_union.mpr (.inr member)

theorem gone_join {a b : Slot} : (a.join b).Gone ↔ a.Gone ∨ b.Gone := by
  rw [gone_iff_rank, gone_iff_rank, gone_iff_rank, rank_join]
  omega

def height (a : Slot) : Nat := a.tag.rank + a.borrows.length

theorem join_eq_or_higher {a : Slot} (b : Slot) (ordered : Borrow.Ordered a.borrows) :
    a.join b = a ∨ a.height < (a.join b).height := by
  have rank := rank_join a b
  rcases Borrow.union_eq_or_longer b.borrows ordered with same | longer
  · by_cases stricter : a.tag.rank < b.tag.rank
    · refine .inr ?_
      simp only [height, rank]
      simp only [join, same]
      omega
    · exact .inl (by simp [join, stricter, same])
  · refine .inr ?_
    simp only [height, rank]
    simp only [join]
    omega

end Slot

namespace State

def Has (s : State) (x : LocalId) : Prop := 0 ≤ x ∧ x < s.length

instance (s : State) (x : LocalId) : Decidable (s.Has x) := inferInstanceAs (Decidable (_ ∧ _))

theorem slot_of_not_has {s : State} {x : Int} (missing : ¬ s.Has x) : s.slot x = {} := by
  unfold slot
  split
  · rfl
  · have beyond : s.length ≤ x.toNat := by
      unfold Has LocalId at *
      omega
    rw [List.getD_eq_getElem?_getD, List.getElem?_eq_none beyond, Option.getD_none]

theorem slot_natCast (s : State) (i : Nat) : s.slot i = s[i]?.getD {} := by
  unfold slot
  rw [if_neg (Int.not_lt.mpr (Int.natCast_nonneg i))]
  simp

theorem exists_slot_of_mem {s : State} {slot : Slot} (member : slot ∈ s) :
    ∃ i : Nat, s.slot i = slot := by
  obtain ⟨i, found⟩ := List.mem_iff_getElem?.mp member
  exact ⟨i, by rw [slot_natCast, found, Option.getD_some]⟩

theorem length_update (s : State) (id : LocalId) (f : Slot → Slot) :
    (s.update id f).length = s.length := by
  unfold update
  split <;> simp

theorem slot_update (s : State) (id x : Int) (f : Slot → Slot) :
    (s.update id f).slot x = if id = x ∧ s.Has x then f (s.slot x) else s.slot x := by
  by_cases present : s.Has x
  · simp only [present, and_true]
    obtain ⟨lower, upper⟩ := present
    obtain ⟨i, rfl⟩ := Int.eq_ofNat_of_zero_le lower
    have below : i < s.length := Int.ofNat_lt.mp upper
    unfold update
    split
    · rename_i negative
      rw [if_neg]
      rintro rfl
      exact absurd lower (Int.not_le.mpr negative)
    · rename_i positive
      obtain ⟨j, rfl⟩ := Int.eq_ofNat_of_zero_le (Int.not_lt.mp positive)
      simp only [Int.toNat_natCast, slot_natCast, List.getElem?_modify, Int.natCast_inj]
      split
      · simp [List.getElem?_eq_getElem below]
      · simp
  · have still : ¬ (s.update id f).Has x := by
      unfold Has
      rw [length_update]
      exact present
    simp [present, slot_of_not_has still, slot_of_not_has present]

theorem slot_map (s : State) {g : Slot → Slot} (fixed : g {} = {}) (x : Int) :
    State.slot (s.map g) x = g (s.slot x) := by
  unfold slot
  split
  · exact fixed.symm
  · simp only [List.getD_eq_getElem?_getD, List.getElem?_map]
    cases s[x.toNat]? with
    | none => exact fixed.symm
    | some slot => rfl

theorem slot_releaseHolder (s : State) (holder x : LocalId) :
    (s.releaseHolder holder).slot x = (s.slot x).keepBorrows fun br => br.holder != holder :=
  slot_map s rfl x

theorem slot_join {a b : State} (sameLength : a.length = b.length) (x : Int) :
    (a.join b).slot x = (a.slot x).join (b.slot x) := by
  unfold slot join
  split
  · exact Slot.join_default.symm
  · simp only [List.getD_eq_getElem?_getD, List.getElem?_zipWith]
    by_cases below : x.toNat < a.length
    · rw [List.getElem?_eq_getElem below, List.getElem?_eq_getElem (sameLength ▸ below)]
      rfl
    · rw [List.getElem?_eq_none (by omega), List.getElem?_eq_none (by omega)]
      exact Slot.join_default.symm

theorem length_join {a b : State} (sameLength : a.length = b.length) :
    (a.join b).length = a.length := by
  simp [join, sameLength]

def Below (s t : State) : Prop := List.Forall₂ Slot.Below s t

theorem Below.refl (s : State) : s.Below s := List.forall₂_same.mpr fun slot _ => Slot.Below.refl slot

theorem Below.trans {s t u : State} (first : s.Below t) (second : t.Below u) : s.Below u := by
  unfold Below at *
  induction first generalizing u with
  | nil =>
      cases second
      exact .nil
  | cons head _ ih =>
      cases second with
      | cons next rest => exact .cons (head.trans next) (ih rest)

theorem Below.slot {s t : State} (below : s.Below t) (x : LocalId) :
    (s.slot x).Below (t.slot x) := by
  unfold State.slot
  split
  · exact Slot.Below.refl _
  · generalize x.toNat = i
    unfold Below at below
    induction below generalizing i with
    | nil => exact Slot.Below.refl _
    | cons head _ ih =>
        cases i with
        | zero => exact head
        | succ i => exact ih i

theorem below_join_left {a b : State} (sameLength : a.length = b.length) : a.Below (a.join b) := by
  unfold Below join
  induction a generalizing b with
  | nil => simp
  | cons slot rest ih =>
      cases b with
      | nil => simp at sameLength
      | cons other others =>
          exact .cons (Slot.below_join_left slot other) (ih (Nat.succ.inj sameLength))

theorem below_join_right {a b : State} (sameLength : a.length = b.length) :
    b.Below (a.join b) := by
  unfold Below join
  induction a generalizing b with
  | nil =>
      cases b with
      | nil => simp
      | cons => simp at sameLength
  | cons slot rest ih =>
      cases b with
      | nil => simp at sameLength
      | cons other others =>
          exact .cons (Slot.below_join_right slot other) (ih (Nat.succ.inj sameLength))

def height (s : State) : Nat := (s.map Slot.height).sum

theorem join_eq_or_higher {a b : State} (sameLength : a.length = b.length)
    (ordered : ∀ slot ∈ a, Borrow.Ordered slot.borrows) :
    a.join b = a ∨ a.height < (a.join b).height := by
  unfold height join
  induction a generalizing b with
  | nil => simp
  | cons slot rest ih =>
      cases b with
      | nil => simp at sameLength
      | cons other others =>
          simp only [List.zipWith_cons_cons, List.map_cons, List.sum_cons]
          have first := Slot.join_eq_or_higher other (ordered slot (List.mem_cons_self ..))
          have later := ih (Nat.succ.inj sameLength)
            fun next member => ordered next (List.mem_cons_of_mem _ member)
          rcases first with same | higher
          · rcases later with unchanged | raised
            · exact .inl (by rw [same, unchanged])
            · exact .inr (by rw [same]; omega)
          · refine .inr ?_
            rcases later with unchanged | raised
            · rw [unchanged]
              omega
            · omega

end State

end Ownership

end BorrowChecker
