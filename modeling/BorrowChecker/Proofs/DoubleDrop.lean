import BorrowChecker.Proofs.Provenance

/-!
When a value is dropped twice. Where paths meet, a local that was moved on one of them counts as
moved, and dropping what was moved is allowed. So an accepted body can drop a value twice on one
path, but only if the local is moved when the second drop is reached on another.
-/

namespace BorrowChecker

namespace Ownership

open Mir

/-- Two arms meet before a value is dropped twice, and one of them has moved it. -/
def forked : Body where
  params := [.scalar .bool, .structNamed []]
  locals := [{ type := .unit }, { type := .scalar .bool }, { type := .structNamed [] },
    { type := .structNamed [] }]
  blocks := [
    { term := .switchInt (.copy 1) [⟨0, 1⟩] 2 },
    { statements := [.assign 3 (.use (.move 2))], term := .goto 2 },
    { statements := [.drop 2, .drop 2], term := .ret }]

/-- Nothing is reported, although the path past the move drops the value twice. -/
theorem forked_dropped_twice :
    forked.isValid ∧ check forked = [] ∧ forked.MoveOnly 2 ∧
      forked.Path .entry ([⟨0, 0⟩] ++ ⟨2, 0⟩ :: []) ⟨2, 1⟩ ∧
      .drop 2 ∈ forked.events ⟨2, 0⟩ ∧ .drop 2 ∈ forked.events ⟨2, 1⟩ ∧
      ¬ Event.MovedSince 2 (forked.trace [⟨0, 0⟩]) := by
  refine ⟨by decide, by cbv, ⟨_, rfl, rfl⟩, ?_, by decide, by decide, ?_⟩
  · exact .step (.step .start (@Body.Next.jump forked 0 2 _ rfl (by decide)))
      (.statement rfl (by decide))
  · rintro ⟨earlier, later, spelled, _⟩
    have moves : .move 2 ∈ forked.trace [⟨0, 0⟩] := by simp [spelled]
    exact absurd moves (by decide)

theorem gone_survives_execute {b : Body} {p : Point} {s : State} {x : LocalId} (live : Liveness)
    (gone : (s.slot x).Gone) (kept : ¬ b.Assigns p x) :
    ((execute b live p s).state.slot x).Gone := by
  refine happenAll_induction (fun s => (s.slot x).Gone) ?_ ?_
  · intro e happens s gone
    exact gone_survives b p.location gone (Body.assigns_eq_false kept happens)
  · rw [slot_expire]
    exact gone

theorem gone_path {b : Body} (valid : b.isValid) {before between : List Point} {p q : Point}
    (path : b.Path .entry (before ++ p :: between) q) {x : LocalId} (owned : b.MoveOnly x)
    (drops : .drop x ∈ b.events p) (unassigned : ∀ r ∈ between, ¬ b.Assigns r x) :
    b.HasPoint q ∧ ∃ s, stateBefore? b q = some s ∧ (s.slot x).Gone := by
  obtain ⟨there, s, known, gone⟩ := path_simulation_after valid
    (fun done _ s => (∀ r ∈ done, ¬ b.Assigns r x) → (s.slot x).Gone)
    (by
      intro done r r' s t held _ _ _ below unassigned
      have kept := unassigned r (List.mem_append_right _ (List.mem_singleton_self r))
      have gone := held fun r early => unassigned r (List.mem_append_left _ early)
      exact (gone_survives_execute _ gone kept).mono (below.slot x))
    path
    (by
      intro r s t there here below _
      have full := ((stateBefore?_proper valid there here).expire (.ofBody b) p.location).full
      refine Slot.Gone.mono (below.slot x) ?_
      rw [execute, Body.events_of_drop drops, happenAll_single]
      exact gone_of_drop p.location (moveOnly_iff.mp owned) (has_of_moveOnly owned full))
  exact ⟨there, s, known, gone unassigned⟩

/-- In an accepted body a path from the entry drops a move-only local twice, without assigning it
in between, only if some path from the entry gets to the second drop with the local moved and not
assigned since. -/
theorem moved_of_dropped_again {b : Body} (valid : b.isValid) (accepted : Accepted b)
    {before between : List Point} {p q : Point} (path : b.Path .entry (before ++ p :: between) q)
    {x : LocalId} (owned : b.MoveOnly x) (drops : .drop x ∈ b.events p)
    (again : .drop x ∈ b.events q) (unassigned : ∀ r ∈ between, ¬ b.Assigns r x) :
    ∃ way, b.Path .entry way q ∧ Event.MovedSince x (b.trace way) := by
  obtain ⟨there, s, known, gone⟩ := gone_path valid path owned drops unassigned
  have alone := Body.events_of_drop again
  have clean := accepted.clean valid there known
  rw [execute, alone, happenAll_single] at clean
  have undropped := undropped_of_clean clean (moveOnly_iff.mp owned)
  rw [slot_expire] at undropped
  have moved : (s.slot x).tag = .moved := gone.resolve_right undropped
  obtain ⟨first, _, since⟩ := (stateBefore?_justified valid there known).gone x (.move x)
    (by rw [moved]; rfl)
  exact since.movedSince (by simp [alone])

theorem forked_moved_elsewhere :
    forked.isValid ∧ Accepted forked ∧
      ∃ way, forked.Path .entry way ⟨2, 1⟩ ∧ Event.MovedSince 2 (forked.trace way) := by
  have valid : forked.isValid := by decide
  have accepted : Accepted forked := .of_check (by cbv)
  have path : forked.Path .entry ([⟨0, 0⟩] ++ ⟨2, 0⟩ :: []) ⟨2, 1⟩ :=
    .step (.step .start (@Body.Next.jump forked 0 2 _ rfl (by decide)))
      (.statement rfl (by decide))
  exact ⟨valid, accepted, moved_of_dropped_again valid accepted path ⟨_, rfl, rfl⟩ (by decide)
    (by decide) (by simp)⟩

end Ownership

end BorrowChecker
