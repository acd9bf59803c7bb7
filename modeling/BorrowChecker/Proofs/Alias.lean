import BorrowChecker.Proofs.Provenance
import Mathlib

/-!
No value is moved, and no mutable local lent again, while a reference to it is needed. On an
accepted body the analysis remembers a reference along every path that spares it, for as long as
its holder is needed; the second access would be reported.
-/

namespace BorrowChecker

namespace Mir

def Body.Spares (b : Body) (p : Point) (x holder : LocalId) : Prop :=
  ¬ b.Assigns p x ∧ ¬ b.Assigns p holder ∧ .drop x ∉ b.events p

theorem Body.Spares.retains {b : Body} {p : Point} {x holder : LocalId}
    (spares : b.Spares p x holder) : b.Retains p x holder :=
  ⟨spares.1, spares.2.1, fun _ => spares.2.2⟩

end Mir

namespace Ownership

open Mir

theorem borrow_survives_execute {b : Body} {p : Point} {s : State} {x : LocalId} {br : Borrow}
    (member : br ∈ (s.slot x).borrows) (needs : b.Needs p br.holder)
    (retains : b.Retains p x br.holder) :
    br ∈ ((execute b (.ofBody b) p s).state.slot x).borrows := by
  obtain ⟨kept, held, undropped⟩ := retains
  refine happenAll_induction (fun s => br ∈ (s.slot x).borrows) ?_
    (mem_borrows_expire.mpr ⟨member, needs⟩)
  intro e happens s member
  refine borrow_survives b p.location member (Body.assigns_eq_false kept happens)
    (Body.assigns_eq_false held happens) ?_
  rintro owned rfl
  exact undropped (moveOnly_iff.mpr owned) happens

theorem borrow_survives_fetches (b : Body) (loc : Location) {events : List Event} {s : State}
    {x : LocalId} {br : Borrow} (fetched : ∀ e ∈ events, e.fetches)
    (member : br ∈ (s.slot x).borrows) :
    br ∈ ((happenAll b loc events s).state.slot x).borrows := by
  refine happenAll_induction (fun s => br ∈ (s.slot x).borrows) ?_ member
  intro e happens s member
  have fetch := fetched e happens
  refine borrow_survives b loc member ?_ ?_ ?_
  · cases e <;> simp_all [Event.fetches, Event.assigns]
  · cases e <;> simp_all [Event.fetches, Event.assigns]
  · rintro _ rfl
    simp [Event.fetches] at fetch

/-- As long as nothing is wrong with a local, the analysis remembers a reference to it along a path
that retains it, up to every point where it is needed. -/
theorem Quiet.remembers_path {b : Body} (valid : b.isValid) {x holder : LocalId} (quiet : Quiet b x)
    {before between : List Point} {p q : Point} (path : b.Path .entry (before ++ p :: between) q)
    (lends : .borrow x holder ∈ b.events p) (retained : ∀ r ∈ between, b.Retains r x holder)
    (needs : b.Needs q holder) :
    b.HasPoint q ∧ ∃ s, stateBefore? b q = some s ∧
      ⟨borrowKind b x, p.location, holder⟩ ∈ (s.slot x).borrows := by
  obtain ⟨declared, holderDeclared⟩ := Body.borrow_locals valid lends
  have named := Body.named_of_hasLocal holderDeclared
  -- Need is inherited backwards, so the invariant may assume it of the point reached.
  obtain ⟨inside, t, reached, remembered⟩ := path_simulation_after valid
    (fun done r s => (∀ r ∈ done, b.Retains r x holder) → b.Needs r holder →
      ⟨borrowKind b x, p.location, holder⟩ ∈ (s.slot x).borrows)
    (by
      intro done r r' s t held _ _ next below retained needs
      have retains := retained r (List.mem_append_right _ (List.mem_singleton_self r))
      have needed := needs.of_next valid next named retains.2.1
      have member := held (fun r early => retained r (List.mem_append_left _ early)) needed
      exact (below.slot x).2 (borrow_survives_execute member needed retains))
    path
    (by
      intro r s t there here below _ _
      have alone := Body.events_of_borrow lends
      have occurs : Occurs b p [] (.borrow x holder) (expire (.ofBody b) p.location s) :=
        ⟨s, [], there, here, alone, rfl⟩
      have clean := occurs.clean valid quiet (.inl (by simp [Event.uses]))
      apply (below.slot x).2
      rw [execute, alone, happenAll_single]
      exact borrow_recorded clean (has_of_hasLocal declared (occurs.proper valid).full))
  exact ⟨inside, t, reached, remembered retained needs⟩

theorem Quiet.occurs_of_lentSince {b : Body} (valid : b.isValid) {x holder : LocalId}
    (quiet : Quiet b x) {first p : Point} (lent : b.LentSince x holder first p)
    (needs : b.Needs p holder) {earlier later : List Event} {e : Event}
    (happens : b.events p = earlier ++ e :: later) :
    ∃ s, Occurs b p earlier e s ∧ (s.slot x).borrows ≠ [] := by
  obtain ⟨lends, ⟨way, reaching⟩, between, onwards, retained⟩ := lent
  obtain ⟨there, start, known, remembered⟩ :=
    quiet.remembers_path valid (reaching.append onwards) lends retained needs
  refine ⟨_, ⟨start, later, there, known, happens, rfl⟩, ?_⟩
  have member := mem_borrows_expire.mpr ⟨remembered, needs⟩
  exact List.ne_nil_of_mem
    (borrow_survives_fetches b p.location (Body.fetches_of_earlier happens) member)

theorem remembers_path {b : Body} (valid : b.isValid) (accepted : Accepted b)
    {before between : List Point} {p q : Point} (path : b.Path .entry (before ++ p :: between) q)
    {x holder : LocalId} (lends : .borrow x holder ∈ b.events p)
    (spared : ∀ r ∈ between, b.Spares r x holder) (needs : b.Needs q holder) :
    b.HasPoint q ∧ ∃ s, stateBefore? b q = some s ∧
      ⟨borrowKind b x, p.location, holder⟩ ∈ (s.slot x).borrows :=
  (accepted.quiet x).remembers_path valid path lends
    (fun r passed => (spared r passed).retains) needs

/-- In an accepted body, on no path from the entry, is a mutable local lent again or a move-only
local moved while a reference to it that was taken before is needed, if nothing in between assigns
the local or the holder or drops the local. -/
theorem not_aliased {b : Body} (valid : b.isValid) (accepted : Accepted b)
    {before between : List Point} {p q : Point} (path : b.Path .entry (before ++ p :: between) q)
    {x holder : LocalId} (lends : .borrow x holder ∈ b.events p)
    (spared : ∀ r ∈ between, b.Spares r x holder) (needs : b.Needs q holder) :
    (b.Mutable x → ∀ other, .borrow x other ∉ b.events q) ∧
      (b.MoveOnly x → .move x ∉ b.events q) := by
  obtain ⟨there, s, known, remembered⟩ := remembers_path valid accepted path lends spared needs
  have clean := accepted.clean valid there known
  have member := mem_borrows_expire.mpr ⟨remembered, needs⟩
  refine ⟨?_, ?_⟩
  · intro mutable other again
    rw [execute, Body.events_of_borrow again, happenAll_single] at clean
    simp [unborrowed_of_clean_borrow clean (mutable_iff.mp mutable)] at member
  · intro owned moves
    obtain ⟨earlier, later, spelled⟩ := List.append_of_mem moves
    rw [execute, spelled, happenAll_append_clean, happenAll_cons_clean] at clean
    have free := unborrowed_of_clean_move clean.2.1 (moveOnly_iff.mp owned)
    have held := borrow_survives_fetches b q.location (Body.fetches_of_earlier spelled) member
    simp [free] at held

/-- A loop that reads a reference, after which the target is moved. -/
def lentRound : Body where
  params := [.structNamed [], .scalar .bool]
  locals := [{ type := .unit }, { type := .structNamed [], isMut := true },
    { type := .scalar .bool }, { type := .refTo (.structNamed []) true },
    { type := .scalar .u64 }, { type := .structNamed [] }]
  blocks := [
    { statements := [.assign 3 (.ref 1)], term := .goto 1 },
    { statements := [.assign 4 (.len 3)], term := .switchInt (.copy 2) [⟨0, 1⟩] 2 },
    { statements := [.assign 5 (.use (.move 1))], term := .ret }]

/-- Whenever control is back at the read, nothing else may be done with the target. -/
theorem lentRound_not_aliased :
    lentRound.isValid ∧ Accepted lentRound ∧
      lentRound.Path .entry ([] ++ ⟨0, 0⟩ :: [⟨0, 1⟩, ⟨1, 0⟩, ⟨1, 1⟩]) ⟨1, 0⟩ ∧
      .borrow 1 3 ∈ lentRound.events ⟨0, 0⟩ ∧ lentRound.Needs ⟨1, 0⟩ 3 ∧
      lentRound.Mutable 1 ∧ lentRound.MoveOnly 1 ∧
      (∀ other, .borrow 1 other ∉ lentRound.events ⟨1, 0⟩) ∧
      .move 1 ∉ lentRound.events ⟨1, 0⟩ := by
  have valid : lentRound.isValid := by decide
  have accepted : Accepted lentRound := .of_check (by cbv)
  have round : lentRound.Path .entry ([] ++ ⟨0, 0⟩ :: [⟨0, 1⟩, ⟨1, 0⟩, ⟨1, 1⟩]) ⟨1, 0⟩ :=
    .step (.step (.step (.step .start (.statement rfl (by decide)))
      (@Body.Next.jump lentRound 0 1 _ rfl (by decide))) (.statement rfl (by decide)))
      (@Body.Next.jump lentRound 1 1 _ rfl (by decide))
  have lends : .borrow 1 3 ∈ lentRound.events ⟨0, 0⟩ := by decide
  have needs : lentRound.Needs ⟨1, 0⟩ 3 := .inl (by cbv)
  have spared : ∀ r ∈ [⟨0, 1⟩, ⟨1, 0⟩, ⟨1, 1⟩], lentRound.Spares r 1 3 := by
    unfold Body.Spares Body.Assigns
    decide
  have mutable : lentRound.Mutable 1 := ⟨_, rfl, rfl⟩
  have owned : lentRound.MoveOnly 1 := ⟨_, rfl, rfl⟩
  have safe := not_aliased valid accepted round lends spared needs
  exact ⟨valid, accepted, round, lends, needs, mutable, owned, safe.1 mutable, safe.2 owned⟩

end Ownership

end BorrowChecker
