import BorrowChecker.Proofs.CaseOrder
import BorrowChecker.Proofs.ReadAhead
import Mathlib

/-!
Liveness by sweeps. The sets at the start and at the end of every block begin empty; a sweep goes
through the blocks from the last to the first and computes both sets anew, the end from the starts of
the blocks that follow, the start from the end and a summary of what the block reads first and what it
writes. Sweeps are repeated, without a bound, until one changes nothing. Each of them only adds to the
sets and never adds a local that is not live, so there is a last one, and it leaves the live sets.
-/

namespace BorrowChecker

namespace Mir

structure Summary where
  uses : LocalSet := .empty
  defs : LocalSet := .empty

namespace Summary

/-- A read counts unless the local was written before. -/
def read (s : Summary) (id : LocalId) : Summary :=
  if id = LocalId.missing ∨ s.defs.has id then s else { s with uses := s.uses.insert id }

def write (s : Summary) (id : LocalId) : Summary :=
  if id = LocalId.missing then s else { s with defs := s.defs.insert id }

def access (s : Summary) (a : Access) : Summary := a.writes.foldl write (a.reads.foldl read s)

def ofRun (run : List Access) : Summary := run.foldl access {}

theorem defs_reads (ids : List LocalId) (s : Summary) : (ids.foldl read s).defs = s.defs := by
  induction ids generalizing s with
  | nil => rfl
  | cons id rest ih =>
      rw [List.foldl_cons, ih, read]
      split <;> rfl

theorem uses_writes (ids : List LocalId) (s : Summary) : (ids.foldl write s).uses = s.uses := by
  induction ids generalizing s with
  | nil => rfl
  | cons id rest ih =>
      rw [List.foldl_cons, ih, write]
      split <;> rfl

theorem has_uses_reads {ids : List LocalId} {s : Summary} {x : LocalId} :
    (ids.foldl read s).uses.has x ↔
      s.uses.has x ∨ x ≠ LocalId.missing ∧ ¬ s.defs.has x ∧ x ∈ ids := by
  induction ids generalizing s with
  | nil => simp
  | cons id rest ih =>
      rw [List.foldl_cons, ih, read, List.mem_cons]
      split
      · rename_i passed
        have other : x = id → x = LocalId.missing ∨ s.defs.has x := by
          rintro rfl
          exact passed
        tauto
      · rename_i counts
        have same : x = id → ¬ (x = LocalId.missing ∨ s.defs.has x) := by
          rintro rfl
          exact counts
        rw [LocalSet.has_insert]
        tauto

theorem has_defs_writes {ids : List LocalId} {s : Summary} {x : LocalId} :
    (ids.foldl write s).defs.has x ↔ s.defs.has x ∨ x ≠ LocalId.missing ∧ x ∈ ids := by
  induction ids generalizing s with
  | nil => simp
  | cons id rest ih =>
      rw [List.foldl_cons, ih, write, List.mem_cons]
      split
      · rename_i passed
        have other : x = id → x = LocalId.missing := by
          rintro rfl
          exact passed
        tauto
      · rename_i counts
        have same : x = id → x ≠ LocalId.missing := by
          rintro rfl
          exact counts
        rw [LocalSet.has_insert]
        tauto

/-- Summarising a run after another: what was written before is not read first any more. -/
theorem run_spec (run : List Access) (x : LocalId) : ∀ s : Summary,
    ((run.foldl access s).uses.has x ↔
      s.uses.has x ∨ x ≠ LocalId.missing ∧ ¬ s.defs.has x ∧ Access.readsFirst x run) ∧
      ((run.foldl access s).defs.has x ↔
        s.defs.has x ∨ x ≠ LocalId.missing ∧ ¬ Access.leaves x run) := by
  induction run with
  | nil => simp [Access.readsFirst, Access.leaves]
  | cons a rest ih =>
      intro s
      rw [List.foldl_cons, (ih _).1, (ih _).2, access, uses_writes, has_uses_reads, has_defs_writes,
        defs_reads, Access.readsFirst_cons, Access.leaves_cons]
      tauto

theorem has_uses {run : List Access} {x : LocalId} :
    (ofRun run).uses.has x ↔ x ≠ LocalId.missing ∧ Access.readsFirst x run := by
  rw [ofRun, (run_spec run x {}).1]
  simp [LocalSet.has_empty]

theorem has_defs {run : List Access} {x : LocalId} :
    (ofRun run).defs.has x ↔ x ≠ LocalId.missing ∧ ¬ Access.leaves x run := by
  rw [ofRun, (run_spec run x {}).2]
  simp [LocalSet.has_empty]

end Summary

namespace LocalSet

theorem has_difference {s t : LocalSet} {x : LocalId} :
    (s.difference t).has x ↔ s.has x ∧ ¬ t.has x := by
  rw [difference, has_eraseAll, has_iff (s := t)]

theorem eq_or_size_lt {s t : LocalSet} (sub : ∀ x, s.has x → t.has x) :
    s = t ∨ s.size < t.size := by
  have subset : s.members ⊆ t.members := by
    intro x member
    exact has_iff.mp (sub x (has_iff.mpr member))
  have within := List.subperm_of_subset s.ascending.nodup subset
  rcases Nat.lt_or_ge s.size t.size with less | same
  · exact .inr less
  · have perm := within.perm_of_length_le same
    refine .inl (eq_of_has fun x => ?_)
    rw [has_iff, has_iff]
    exact perm.mem_iff

end LocalSet

structure Span where
  atStart : LocalSet := .empty
  atEnd : LocalSet := .empty
deriving DecidableEq

namespace Span

def Below (s t : Span) : Prop :=
  (∀ x, s.atStart.has x → t.atStart.has x) ∧ ∀ x, s.atEnd.has x → t.atEnd.has x

theorem Below.refl (s : Span) : s.Below s := ⟨fun _ => id, fun _ => id⟩

theorem Below.trans {s t u : Span} (first : s.Below t) (second : t.Below u) : s.Below u :=
  ⟨fun x member => second.1 x (first.1 x member), fun x member => second.2 x (first.2 x member)⟩

def size (s : Span) : Nat := s.atStart.size + s.atEnd.size

theorem Below.eq_or_size_lt {s t : Span} (below : s.Below t) : s = t ∨ s.size < t.size := by
  obtain ⟨start, stop⟩ := s
  obtain ⟨start', stop'⟩ := t
  have starts := LocalSet.eq_or_size_lt below.1
  have stops := LocalSet.eq_or_size_lt below.2
  dsimp only at starts stops
  rcases starts with rfl | starts <;> rcases stops with rfl | stops
  · exact .inl rfl
  all_goals
    refine .inr ?_
    dsimp only [size]
    omega

end Span

abbrev SpansBelow (s t : List Span) : Prop := List.Forall₂ Span.Below s t

theorem SpansBelow.trans {s t u : List Span} (first : SpansBelow s t) (second : SpansBelow t u) :
    SpansBelow s u := by
  induction first generalizing u with
  | nil => exact second
  | cons head _ ih =>
      cases second with
      | cons next rest => exact .cons (head.trans next) (ih rest)

theorem spansBelow_set {s : List Span} {i : Nat} {new : Span}
    (above : ∀ old, s[i]? = some old → old.Below new) : SpansBelow s (s.set i new) := by
  induction s generalizing i with
  | nil => exact .nil
  | cons head rest ih =>
      have same : SpansBelow rest rest := List.forall₂_same.mpr fun span _ => .refl span
      cases i with
      | zero => exact .cons (above head rfl) same
      | succ i => exact .cons (.refl head) (ih above)

theorem SpansBelow.set {s t : List Span} {i : Nat} {new : Span} (below : SpansBelow s t)
    (under : ∀ top, t[i]? = some top → new.Below top) : SpansBelow (s.set i new) t := by
  induction below generalizing i with
  | nil => exact .nil
  | @cons _ top _ _ first rest ih =>
      cases i with
      | zero => exact .cons (under top rfl) rest
      | succ i => exact .cons first (ih under)

def spansSize (s : List Span) : Nat := (s.map Span.size).sum

theorem SpansBelow.eq_or_size_lt {s t : List Span} (below : SpansBelow s t) :
    s = t ∨ spansSize s < spansSize t := by
  induction below with
  | nil => exact .inl rfl
  | cons first _ ih =>
      have heads := first.eq_or_size_lt
      simp only [spansSize, List.map_cons, List.sum_cons] at ih ⊢
      rcases heads with rfl | heads <;> rcases ih with rfl | tails
      · exact .inl rfl
      all_goals
        refine .inr ?_
        omega

theorem SpansBelow.antisymm {s t : List Span} (below : SpansBelow s t) (above : SpansBelow t s) :
    s = t := by
  rcases below.eq_or_size_lt with same | less
  · exact same
  · rcases above.eq_or_size_lt with same | more
    · exact same.symm
    · omega

namespace Body

def spanOf (b : Body) (spans : List Span) (i : Nat) : Span :=
  let after := b.liveAfter (spans.map Span.atStart) i
  let summary := Summary.ofRun (b.accesses i)
  { atStart := (after.difference summary.defs).union summary.uses, atEnd := after }

def visit (b : Body) (spans : List Span) (i : Nat) : List Span := spans.set i (b.spanOf spans i)

def sweep (b : Body) (spans : List Span) : List Span :=
  (List.range b.blocks.length).reverse.foldl b.visit spans

open Classical in
/-- Sweeps until nothing changes. There is no result if that never happens. -/
noncomputable def settle (b : Body) (spans : List Span) : Option (List Span) :=
  if ends : ∃ n, b.sweep (b.sweep^[n] spans) = b.sweep^[n] spans then
    some (b.sweep^[Nat.find ends] spans)
  else none

theorem settle_eq (b : Body) (spans : List Span) :
    b.settle spans = if b.sweep spans = spans then some spans else b.settle (b.sweep spans) := by
  by_cases same : b.sweep spans = spans
  · have ends : ∃ n, b.sweep (b.sweep^[n] spans) = b.sweep^[n] spans := ⟨0, same⟩
    have now : Nat.find ends = 0 := (Nat.find_eq_zero ends).mpr same
    rw [if_pos same, settle, dif_pos ends, now]
    rfl
  · rw [if_neg same, settle, settle]
    by_cases ends : ∃ n, b.sweep (b.sweep^[n] (b.sweep spans)) = b.sweep^[n] (b.sweep spans)
    · have sometime : ∃ n, b.sweep (b.sweep^[n] spans) = b.sweep^[n] spans := by
        obtain ⟨n, still⟩ := ends
        exact ⟨n + 1, still⟩
      have later : Nat.find sometime = Nat.find ends + 1 := Nat.find_comp_succ sometime ends same
      rw [dif_pos sometime, dif_pos ends, later]
      rfl
    · have never : ¬ ∃ n, b.sweep (b.sweep^[n] spans) = b.sweep^[n] spans := by
        rintro ⟨_ | n, still⟩
        · exact same still
        · exact ends ⟨n, still⟩
      rw [dif_neg never, dif_neg ends]

end Body

namespace Body

theorem has_spanOf_atEnd {b : Body} {spans : List Span} {i : Nat} {x : LocalId} :
    (b.spanOf spans i).atEnd.has x ↔ ∃ j ∈ b.succs i, (spans.getD j {}).atStart.has x := by
  have start : ∀ j, (spans.map Span.atStart).getD j .empty = (spans.getD j {}).atStart := by
    intro j
    simp only [List.getD_eq_getElem?_getD, List.getElem?_map]
    cases spans[j]? <;> rfl
  simp only [spanOf, has_liveAfter, start]

theorem has_spanOf_atStart {b : Body} {spans : List Span} {i : Nat} {x : LocalId} :
    (b.spanOf spans i).atStart.has x ↔
      x ≠ LocalId.missing ∧ Access.readsFirst x (b.accesses i) ∨
        (b.spanOf spans i).atEnd.has x ∧ (x ≠ LocalId.missing → Access.leaves x (b.accesses i)) := by
  simp only [spanOf, LocalSet.has_union, LocalSet.has_difference, Summary.has_uses, Summary.has_defs]
  tauto

theorem spanOf_mono {b : Body} {s t : List Span} (below : SpansBelow s t) (i : Nat) :
    (b.spanOf s i).Below (b.spanOf t i) := by
  have starts : ∀ j x, (s.getD j {}).atStart.has x → (t.getD j {}).atStart.has x := by
    intro j
    induction below generalizing j with
    | nil => simp
    | cons first _ ih =>
        cases j with
        | zero => exact first.1
        | succ j => exact ih j
  have stops : ∀ x, (b.spanOf s i).atEnd.has x → (b.spanOf t i).atEnd.has x := by
    intro x
    rw [has_spanOf_atEnd, has_spanOf_atEnd]
    rintro ⟨j, follows, member⟩
    exact ⟨j, follows, starts j x member⟩
  refine ⟨fun x => ?_, stops⟩
  rw [has_spanOf_atStart, has_spanOf_atStart]
  rintro (first | ⟨later, kept⟩)
  · exact .inl first
  · exact .inr ⟨stops x later, kept⟩

def liveSpans (b : Body) : List Span :=
  (List.range b.blocks.length).map fun i =>
    { atStart := (Liveness.ofBody b).atStart.getD i .empty
      atEnd := b.liveAfter (Liveness.ofBody b).atStart i }

theorem length_liveSpans (b : Body) : b.liveSpans.length = b.blocks.length := by
  simp [liveSpans]

theorem not_has_missing {b : Body} {i : Nat} :
    ¬ ((Liveness.ofBody b).atStart.getD i .empty).has LocalId.missing := by
  rcases Nat.lt_or_ge i b.blocks.length with inside | outside
  · simp [Liveness.ofBody, inside, Liveness.startOf, LocalSet.has_ofList]
  · simp [Liveness.ofBody, outside, LocalSet.has_empty]

theorem liveSpans_getElem? {b : Body} {i : Nat} (inside : i < b.blocks.length) :
    b.liveSpans[i]? = some
      { atStart := (Liveness.ofBody b).atStart.getD i .empty
        atEnd := b.liveAfter (Liveness.ofBody b).atStart i } := by
  simp [liveSpans, inside]

theorem map_atStart_liveSpans (b : Body) :
    b.liveSpans.map Span.atStart = (Liveness.ofBody b).atStart := by
  refine List.ext_getElem? fun i => ?_
  rw [List.getElem?_map]
  rcases Nat.lt_or_ge i b.blocks.length with inside | outside
  · simp [liveSpans, inside, Liveness.ofBody]
  · simp [liveSpans, outside, Liveness.ofBody]

/-- The live spans are a solution: to compute one of them anew adds nothing. -/
theorem spanOf_liveSpans_below {b : Body} {i : Nat} {span : Span}
    (found : b.liveSpans[i]? = some span) : (b.spanOf b.liveSpans i).Below span := by
  have inside : i < b.blocks.length := by
    rw [← length_liveSpans]
    exact (List.getElem?_eq_some_iff.mp found).1
  obtain rfl := Option.some.inj ((liveSpans_getElem? inside).symm.trans found)
  have stops : (b.spanOf b.liveSpans i).atEnd = b.liveAfter (Liveness.ofBody b).atStart i := by
    simp only [spanOf, map_atStart_liveSpans]
  refine ⟨fun x => ?_, fun x => ?_⟩
  · rw [has_spanOf_atStart, stops, has_liveAfter]
    rintro (⟨named, first⟩ | ⟨⟨j, follows, start⟩, kept⟩)
    · exact (has_atStart inside named).mpr (.reads first)
    · have named : x ≠ LocalId.missing := by
        rintro rfl
        exact not_has_missing start
      have live := (has_atStart (succs_inside follows) named).mp start
      exact (has_atStart inside named).mpr (.passes (kept named) follows live)
  · rw [stops]
    exact id

/-- Spans on the way to the live ones: none holds too much, and to compute any of them anew would
take nothing out of it. -/
structure Rising (b : Body) (spans : List Span) : Prop where
  below : SpansBelow spans b.liveSpans
  grows : ∀ (i : Nat) (span : Span), spans[i]? = some span → span.Below (b.spanOf spans i)

namespace Rising

variable {b : Body} {spans : List Span}

theorem initial (b : Body) : b.Rising (List.replicate b.blocks.length {}) := by
  have empty : ∀ span : Span, Span.Below {} span := fun span =>
    ⟨fun x member => (LocalSet.has_empty member).elim, fun x member => (LocalSet.has_empty member).elim⟩
  refine ⟨?_, ?_⟩
  · rw [← length_liveSpans]
    induction b.liveSpans with
    | nil => exact .nil
    | cons span rest ih => exact .cons (empty span) ih
  · intro i span found
    obtain rfl := List.eq_of_mem_replicate (List.mem_of_getElem? found)
    exact empty _

theorem below_visit (rising : b.Rising spans) (i : Nat) : SpansBelow spans (b.visit spans i) :=
  spansBelow_set (rising.grows i)

theorem visit (rising : b.Rising spans) (i : Nat) : b.Rising (b.visit spans i) := by
  have onwards := rising.below_visit i
  refine ⟨?_, ?_⟩
  · refine rising.below.set fun top found => ?_
    exact (spanOf_mono rising.below i).trans (spanOf_liveSpans_below found)
  · intro j span found
    by_cases same : i = j
    · subst same
      rw [Body.visit, List.getElem?_set_self'] at found
      obtain ⟨_, _, rfl⟩ := Option.map_eq_some_iff.mp found
      exact spanOf_mono onwards i
    · rw [Body.visit, List.getElem?_set_ne same] at found
      exact (rising.grows j span found).trans (spanOf_mono onwards j)

theorem visits (rising : b.Rising spans) (order : List Nat) :
    b.Rising (order.foldl b.visit spans) ∧ SpansBelow spans (order.foldl b.visit spans) := by
  induction order generalizing spans with
  | nil => exact ⟨rising, List.forall₂_same.mpr fun span _ => .refl span⟩
  | cons i rest ih =>
      obtain ⟨rises, above⟩ := ih (rising.visit i)
      exact ⟨rises, (rising.below_visit i).trans above⟩

/-- A round of visits that changes nothing as a whole changes nothing on the way. -/
theorem visit_eq (rising : b.Rising spans) {order : List Nat}
    (same : order.foldl b.visit spans = spans) : ∀ i ∈ order, b.visit spans i = spans := by
  induction order with
  | nil => simp
  | cons i rest ih =>
      have first := rising.below_visit i
      have later := ((rising.visit i).visits rest).2
      rw [List.foldl_cons] at same
      rw [same] at later
      have unchanged : b.visit spans i = spans := later.antisymm first
      rw [unchanged] at same
      intro j member
      rcases List.mem_cons.mp member with rfl | other
      · exact unchanged
      · exact ih same j other

/-- Every sweep but the last adds something, and there is only so much to add. -/
theorem settles (rising : b.Rising spans) :
    ∃ last, b.settle spans = some last ∧ b.Rising last ∧ b.sweep last = last := by
  induction room : spansSize b.liveSpans - spansSize spans using Nat.strongRecOn
    generalizing spans with
  | ind room ih =>
      rw [settle_eq]
      by_cases same : b.sweep spans = spans
      · rw [if_pos same]
        exact ⟨spans, rfl, rising, same⟩
      · rw [if_neg same]
        obtain ⟨rises, above⟩ := rising.visits (List.range b.blocks.length).reverse
        have more : spansSize spans < spansSize (b.sweep spans) :=
          above.eq_or_size_lt.resolve_left fun equal => same equal.symm
        have bounded : spansSize (b.sweep spans) ≤ spansSize b.liveSpans := by
          rcases rises.below.eq_or_size_lt with equal | less
          · exact (congrArg spansSize equal).le
          · exact less.le
        exact ih _ (by omega) rises rfl

end Rising

end Body

namespace Liveness

end Liveness

end Mir

end BorrowChecker
