import BorrowChecker.Ownership.Solve
import BorrowChecker.Proofs.Effect
import BorrowChecker.Proofs.Liveness
import Mathlib.Algebra.Order.BigOperators.Group.List
import Mathlib.Algebra.Order.Group.Nat
import Mathlib.Data.List.Induction
import Mathlib.Data.List.Nodup

/-!
Where references come from. In every state of an analysis the references to a local are in order,
and each was taken by an assignment of the body, which says all there is to know about it. There
are no more references than such assignments, and that bounds how high a state can stand.
-/

namespace BorrowChecker

namespace Ownership

open Mir

structure Proper (b : Body) (s : State) : Prop where
  full : s.length = b.locals.length
  ordered : ∀ x, Borrow.Ordered (s.slot x).borrows
  sited : ∀ x, ∀ br ∈ (s.slot x).borrows, ∃ p : Point, p.location = br.site ∧
    .borrow x br.holder ∈ b.events p ∧ br.kind = borrowKind b x

theorem slot_initial (b : Body) (x : LocalId) :
    ¬ ((State.initial b).slot x).Gone ∧ ((State.initial b).slot x).borrows = [] := by
  unfold State.slot State.initial
  split
  · simp [Slot.Gone]
  · simp only [List.getD_eq_getElem?_getD, List.getElem?_map]
    cases found : (List.range b.locals.length)[x.toNat]? with
    | none => simp [Slot.Gone]
    | some i =>
        simp only [Option.map_some, Option.getD_some, Slot.Gone]
        split <;> simp

theorem proper_initial (b : Body) : Proper b (State.initial b) where
  full := by simp [State.initial]
  ordered x := by
    rw [(slot_initial b x).2]
    exact .nil
  sited x br member := by
    rw [(slot_initial b x).2] at member
    simp at member

theorem Proper.join {b : Body} {s t : State} (left : Proper b s) (right : Proper b t) :
    Proper b (s.join t) := by
  have sameLength : s.length = t.length := by rw [left.full, right.full]
  constructor
  · rw [State.length_join sameLength, left.full]
  · intro x
    rw [State.slot_join sameLength]
    exact Borrow.ordered_union _ (left.ordered x)
  · intro x br member
    rw [State.slot_join sameLength] at member
    rcases Borrow.mem_union.mp member with old | new
    · exact left.sited x br old
    · exact right.sited x br new

theorem ordered_keepBorrows {s : Slot} (keep : Borrow → Bool) (ordered : Borrow.Ordered s.borrows) :
    Borrow.Ordered (s.keepBorrows keep).borrows := List.Pairwise.filter keep ordered

theorem ordered_happen {b : Body} {loc : Location} {e : Event} {s : State} {x : LocalId}
    (ordered : Borrow.Ordered (s.slot x).borrows) :
    Borrow.Ordered ((happen b loc e s).state.slot x).borrows := by
  have reinitOrdered : ∀ dst, Borrow.Ordered ((reinit loc dst s).slot x).borrows := by
    intro dst
    rw [slot_reinit]
    split
    · exact .nil
    · exact ordered_keepBorrows _ ordered
  cases e with
  | read id => exact ordered
  | move id =>
      rw [happen, slot_move]
      split
      · exact .nil
      · exact ordered
  | borrow target holder =>
      rw [happen, slot_assign_ref]
      split
      · exact Borrow.ordered_insert _ (reinitOrdered holder)
      · exact reinitOrdered holder
  | assign dst => exact reinitOrdered dst
  | drop id =>
      rw [happen, slot_drop]
      split
      · exact .nil
      · exact ordered

theorem Proper.happen {b : Body} {p : Point} {e : Event} {s : State} (proper : Proper b s)
    (happens : e ∈ b.events p) : Proper b (happen b p.location e s).state := by
  constructor
  · rw [length_happen, proper.full]
  · intro x
    exact ordered_happen (proper.ordered x)
  · intro x br member
    rcases mem_borrows_happen member with ⟨taken, made⟩ | ⟨old, _⟩
    · refine ⟨p, ?_, taken ▸ happens, ?_⟩
      · rw [made]
      · rw [made]
    · exact proper.sited x br old

theorem slot_expire (live : Liveness) (loc : Location) (s : State) (x : LocalId) :
    (expire live loc s).slot x = (s.slot x).keepBorrows fun br =>
      !(live.read.has br.holder && !live.liveBefore loc br.holder) := State.slot_map s rfl x

theorem mem_borrows_expire {b : Body} {p : Point} {s : State} {x : LocalId} {br : Borrow} :
    br ∈ ((expire (.ofBody b) p.location s).slot x).borrows ↔
      br ∈ (s.slot x).borrows ∧ b.Needs p br.holder := by
  have read : (Liveness.ofBody b).read.has br.holder ↔ b.ReadsAnywhere br.holder :=
    Body.has_readLocals
  rw [slot_expire, Slot.keepBorrows, List.mem_filter, Body.Needs, ← read]
  refine and_congr Iff.rfl ?_
  cases (Liveness.ofBody b).liveBefore p.location br.holder <;> simp

theorem Proper.expire {b : Body} {s : State} (proper : Proper b s) (live : Liveness)
    (loc : Location) : Proper b (expire live loc s) := by
  constructor
  · rw [Ownership.expire, List.length_map, proper.full]
  · intro x
    rw [slot_expire]
    exact ordered_keepBorrows _ (proper.ordered x)
  · intro x br member
    rw [slot_expire] at member
    exact proper.sited x br (List.mem_filter.mp member).1

theorem happenAll_induction {b : Body} {loc : Location} {events : List Event}
    (Holds : State → Prop)
    (step : ∀ e ∈ events, ∀ s, Holds s → Holds (happen b loc e s).state) {s : State}
    (holds : Holds s) : Holds (happenAll b loc events s).state := by
  induction events generalizing s with
  | nil => exact holds
  | cons e rest ih =>
      have first := step e (List.mem_cons_self ..) s holds
      exact ih (fun f later => step f (List.mem_cons_of_mem _ later)) first

/-- The same, where a step may also look at what has happened before it. -/
theorem happenAll_stepwise {b : Body} {loc : Location} {events : List Event} {s : State}
    (Holds : List Event → State → Prop)
    (step : ∀ earlier e later, events = earlier ++ e :: later →
      Holds earlier (happenAll b loc earlier s).state →
      Holds (earlier ++ [e]) (happen b loc e (happenAll b loc earlier s).state).state)
    (holds : Holds [] s) : Holds events (happenAll b loc events s).state := by
  suffices upTo : ∀ earlier later, events = earlier ++ later →
      Holds earlier (happenAll b loc earlier s).state by
    exact upTo events [] (List.append_nil _).symm
  intro earlier
  induction earlier using List.reverseRecOn with
  | nil => exact fun _ _ => holds
  | append_singleton front e ih =>
      intro later spelled
      rw [List.append_assoc, List.singleton_append] at spelled
      have next := step front e later spelled (ih (e :: later) spelled)
      rwa [happenAll_append, Outcome.andThen, happenAll_single]

theorem Proper.execute {b : Body} {s : State} (proper : Proper b s) (live : Liveness) (p : Point) :
    Proper b (execute b live p s).state :=
  happenAll_induction (Proper b) (fun _ happens _ proper => proper.happen happens)
    (proper.expire live p.location)

def siteAt (b : Body) (loc : Location) : Statement → Option (LocalId × Borrow)
  | .assign holder (.ref x) => some (x, ⟨borrowKind b x, loc, holder⟩)
  | _ => none

theorem isSome_siteAt (b : Body) (loc : Location) (st : Statement) :
    (siteAt b loc st).isSome = transferLimit.isBorrow st := by
  unfold siteAt transferLimit.isBorrow
  split <;> simp_all

def sitesIn (b : Body) (block : Block) (i : Nat) : List (LocalId × Borrow) :=
  block.statements.zipIdx.filterMap fun entry => siteAt b ⟨i, entry.2⟩ entry.1

def sites (b : Body) : List (LocalId × Borrow) :=
  b.blocks.zipIdx.flatMap fun entry => sitesIn b entry.1 entry.2

theorem length_sitesIn (b : Body) (block : Block) (i : Nat) :
    (sitesIn b block i).length = block.statements.countP transferLimit.isBorrow := by
  unfold sitesIn
  rw [List.length_filterMap_eq_countP]
  conv => rhs; rw [← List.zipIdx_map_fst 0 block.statements, List.countP_map]
  congr 1
  funext entry
  exact isSome_siteAt b _ _

theorem length_sites (b : Body) : (sites b).length = transferLimit.borrowSites b := by
  unfold sites transferLimit.borrowSites
  rw [List.length_flatMap, List.countP_flatMap]
  conv => rhs; rw [← List.zipIdx_map_fst 0 b.blocks, List.map_map]
  congr 2
  funext entry
  exact length_sitesIn b _ _

theorem mem_sites {b : Body} {p : Point} {x holder : LocalId}
    (happens : .borrow x holder ∈ b.events p) :
    (x, ⟨borrowKind b x, p.location, holder⟩) ∈ sites b := by
  obtain ⟨block, found, stands⟩ := Body.statement_of_borrow happens
  unfold sites
  rw [List.mem_flatMap]
  refine ⟨(block, p.block), List.mem_zipIdx_iff_getElem?.mpr found, ?_⟩
  unfold sitesIn
  rw [List.mem_filterMap]
  exact ⟨(_, p.index), List.mem_zipIdx_iff_getElem?.mpr stands, rfl⟩

def records (s : State) : List (LocalId × Borrow) :=
  (List.range s.length).flatMap fun (i : Nat) => (s.slot i).borrows.map fun br => ((i : LocalId), br)

theorem Proper.records_nodup {b : Body} {s : State} (proper : Proper b s) : (records s).Nodup := by
  unfold records
  rw [List.nodup_flatMap]
  refine ⟨?_, ?_⟩
  · intro i _
    exact List.Nodup.map (fun _ _ same => (Prod.mk.inj same).2) (proper.ordered i).nodup
  · refine List.Pairwise.imp ?_ List.nodup_range
    intro i j different pair first second
    obtain ⟨_, _, rfl⟩ := List.mem_map.mp first
    obtain ⟨_, _, same⟩ := List.mem_map.mp second
    exact different (Int.ofNat.inj (Prod.mk.inj same).1.symm)

theorem Proper.records_le {b : Body} {s : State} (proper : Proper b s) :
    (records s).length ≤ transferLimit.borrowSites b := by
  rw [← length_sites]
  refine proper.records_nodup.length_le_of_subset ?_
  intro pair member
  obtain ⟨i, _, inner⟩ := List.mem_flatMap.mp member
  obtain ⟨br, taken, rfl⟩ := List.mem_map.mp inner
  obtain ⟨p, here, happens, kind⟩ := proper.sited i br taken
  have site := mem_sites happens
  rwa [here, ← kind] at site

theorem height_eq (s : State) :
    s.height = ((List.range s.length).map fun (i : Nat) => (s.slot i).tag.rank).sum +
      (records s).length := by
  have listed : s = (List.range s.length).map fun (i : Nat) => s.slot i := by
    apply List.ext_getElem?
    intro i
    rw [List.getElem?_map]
    by_cases below : i < s.length
    · simp [below, State.slot_natCast]
    · simp [below]
  unfold records
  rw [List.length_flatMap]
  conv => lhs; rw [State.height, listed, List.map_map]
  generalize List.range s.length = indices
  induction indices with
  | nil => rfl
  | cons i rest ih =>
      simp only [List.map_cons, List.sum_cons, Function.comp, Slot.height, List.length_map] at ih ⊢
      omega

theorem Proper.height_le {b : Body} {s : State} (proper : Proper b s) :
    s.height ≤ 3 * b.locals.length + transferLimit.borrowSites b := by
  have ranks : ((List.range s.length).map fun (i : Nat) => (s.slot i).tag.rank).sum ≤
      s.length * 3 := by
    have each := List.sum_le_card_nsmul
      ((List.range s.length).map fun (i : Nat) => (s.slot i).tag.rank) 3 (by
        intro rank member
        obtain ⟨i, _, rfl⟩ := List.mem_map.mp member
        cases (s.slot i).tag <;> simp [Tag.rank])
    simpa using each
  have borrows := proper.records_le
  rw [height_eq, ← proper.full]
  omega

end Ownership

end BorrowChecker
