import BorrowChecker.Proofs.Analysis
import Mathlib

/-!
No value is used after it was released. On an accepted body the analysis knows, along every path,
of each value that was moved or dropped and not replaced since; a use of it would be reported.
-/

namespace BorrowChecker

namespace Ownership

open Mir

/-- A state knows that a local has no value any more, if that is so after some events. -/
def Tracks (x : LocalId) (past : List Event) (s : State) : Prop :=
  Event.Released x past → (s.slot x).Gone

theorem Tracks.mono {x : LocalId} {past : List Event} {s t : State} (tracks : Tracks x past s)
    (below : s.Below t) : Tracks x past t := by
  intro released
  exact (tracks released).mono (below.slot x)

theorem Tracks.expire {x : LocalId} {past : List Event} {s : State} (tracks : Tracks x past s)
    (live : Liveness) (loc : Location) : Tracks x past (expire live loc s) := by
  intro released
  rw [slot_expire]
  exact tracks released

theorem Tracks.happen {b : Body} {loc : Location} {e : Event} {x : LocalId} {past : List Event}
    {s : State} (tracks : Tracks x past s) (owned : isCopy b x = false) (present : s.Has x)
    (moved : e = .move x → ((happen b loc e s).state.slot x).Gone) :
    Tracks x (past ++ [e]) (happen b loc e s).state := by
  intro released
  unfold Event.Released at released
  rw [Event.latest?_concat] at released
  by_cases changed : e.changes x
  · simp only [changed, if_true, Option.some.injEq] at released
    rcases released with rfl | rfl
    · exact moved rfl
    · exact gone_of_drop loc owned present
  · simp only [changed, Bool.false_eq_true, if_false] at released
    have before : (s.slot x).Gone := tracks released
    unfold Slot.Gone at before ⊢
    rwa [(tag_happen_frame b loc s (by simpa using changed)).1]

theorem Tracks.through {b : Body} {loc : Location} {events : List Event} {x : LocalId}
    {past : List Event} {s : State} (tracks : Tracks x past s) (owned : isCopy b x = false)
    (present : s.Has x)
    (moved : ∀ earlier later, events = earlier ++ .move x :: later →
      ((Ownership.happen b loc (.move x) (happenAll b loc earlier s).state).state.slot x).Gone) :
    Tracks x (past ++ events) (happenAll b loc events s).state := by
  refine happenAll_stepwise (fun earlier s => Tracks x (past ++ earlier) s) ?_
    (by rwa [List.append_nil])
  intro earlier e later spelled tracks
  have still : (happenAll b loc earlier s).state.Has x := by
    unfold State.Has at present ⊢
    rwa [length_happenAll]
  rw [← List.append_assoc]
  refine tracks.happen owned still ?_
  rintro rfl
  exact moved earlier later spelled

theorem Tracks.happenAll {b : Body} {loc : Location} {events : List Event} {x : LocalId}
    {past : List Event} {s : State} (tracks : Tracks x past s) (owned : isCopy b x = false)
    (present : s.Has x) (clean : (happenAll b loc events s).found = []) :
    Tracks x (past ++ events) (happenAll b loc events s).state := by
  refine tracks.through owned present ?_
  rintro earlier later rfl
  obtain ⟨_, here⟩ := happenAll_append_clean.mp clean
  refine gone_of_clean_move (happenAll_cons_clean.mp here).1 owned ?_
  unfold State.Has at present ⊢
  rwa [length_happenAll]

/-- Where every move out of a local takes effect, the analysis knows along every path whether the
value of the local was released. -/
theorem tracks_path_of_moves {b : Body} (valid : b.isValid) {x : LocalId}
    (owned : isCopy b x = false)
    (moved : ∀ p earlier s, Occurs b p earlier (.move x) s →
      ((happen b p.location (.move x) s).state.slot x).Gone)
    {done : List Point} {p : Point} (path : b.Path .entry done p) :
    b.HasPoint p ∧ ∃ s, stateBefore? b p = some s ∧ Tracks x (b.trace done) s := by
  obtain ⟨s, known, _⟩ := stateBefore?_entry valid
  have there := Body.hasPoint_entry valid
  refine path_simulation valid (fun done _ s => Tracks x (b.trace done) s) ?_ path there known ?_
  · intro done p q s t tracks there known next below
    have proper := (stateBefore?_proper valid there known).expire (.ofBody b) p.location
    have present := has_of_moveOnly (moveOnly_iff.mpr owned) proper.full
    rw [Body.trace_concat]
    refine ((tracks.expire _ _).through owned present ?_).mono below
    intro earlier later spelled
    exact moved p earlier _ ⟨s, later, there, known, spelled, rfl⟩
  · rintro (moved | dropped)
    · simp [Body.trace, Event.latest?] at moved
    · simp [Body.trace, Event.latest?] at dropped

theorem Occurs.gone_of_quiet_move {b : Body} (valid : b.isValid) {x : LocalId} (quiet : Quiet b x)
    (owned : isCopy b x = false) {p : Point} {earlier : List Event} {s : State}
    (occurs : Occurs b p earlier (.move x) s) :
    ((happen b p.location (.move x) s).state.slot x).Gone :=
  gone_of_clean_move (occurs.clean valid quiet (.inl (by simp [Event.uses]))) owned
    (has_of_moveOnly (moveOnly_iff.mpr owned) (occurs.proper valid).full)

theorem tracks_path {b : Body} (valid : b.isValid) (accepted : Accepted b) {x : LocalId}
    (owned : isCopy b x = false) {done : List Point} {p : Point} (path : b.Path .entry done p) :
    b.HasPoint p ∧ ∃ s, stateBefore? b p = some s ∧ Tracks x (b.trace done) s :=
  tracks_path_of_moves valid owned
    (fun _ _ _ occurs => occurs.gone_of_quiet_move valid (accepted.quiet x) owned) path

/-- In an accepted body no path from the entry uses a move-only local whose value was moved or
dropped last, by an earlier point or by an earlier operand of the same one. -/
theorem not_released_of_uses {b : Body} (valid : b.isValid) (accepted : Accepted b)
    {done : List Point} {p : Point} (path : b.Path .entry done p) {earlier later : List Event}
    {e : Event} (happens : b.events p = earlier ++ e :: later) {x : LocalId}
    (owned : b.MoveOnly x) (uses : e.uses x) :
    ¬ Event.Released x (b.trace done ++ earlier) := by
  intro released
  have moveOnly := moveOnly_iff.mp owned
  obtain ⟨there, s, known, tracks⟩ := tracks_path valid accepted moveOnly path
  have proper := (stateBefore?_proper valid there known).expire (.ofBody b) p.location
  have present := has_of_moveOnly owned proper.full
  have clean := accepted.clean valid there known
  rw [execute, happens, happenAll_append_clean, happenAll_cons_clean] at clean
  obtain ⟨cleanBefore, cleanHere, _⟩ := clean
  have informed := (tracks.expire _ _).happenAll moveOnly present cleanBefore
  exact usable_of_clean cleanHere uses moveOnly (informed released)

/-- A loop that moves a value away and back. -/
def shuttle : Body where
  params := [.scalar .bool, .structNamed []]
  locals := [{ type := .unit }, { type := .scalar .bool }, { type := .structNamed [] },
    { type := .structNamed [] }]
  blocks := [
    { statements := [.assign 3 (.use (.move 2)), .assign 2 (.use (.move 3))]
      term := .switchInt (.copy 1) [⟨0, 0⟩] 1 },
    { term := .ret }]

/-- The second time round the loop the value is there again. -/
theorem shuttle_not_released :
    shuttle.isValid ∧ Accepted shuttle ∧
      shuttle.Path .entry [⟨0, 0⟩, ⟨0, 1⟩, ⟨0, 2⟩] .entry ∧
      shuttle.events .entry = [.move 2, .assign 3] ∧ shuttle.MoveOnly 2 ∧
      ¬ Event.Released 2 (shuttle.trace [⟨0, 0⟩, ⟨0, 1⟩, ⟨0, 2⟩] ++ []) := by
  have valid : shuttle.isValid := by decide
  have accepted : Accepted shuttle := .of_check (by cbv)
  have round : shuttle.Path .entry [⟨0, 0⟩, ⟨0, 1⟩, ⟨0, 2⟩] .entry :=
    .step (.step (.step .start (.statement rfl (by decide))) (.statement rfl (by decide)))
      (@Body.Next.jump shuttle 0 0 _ rfl (by decide))
  have owned : shuttle.MoveOnly 2 := ⟨_, rfl, rfl⟩
  exact ⟨valid, accepted, round, rfl, owned,
    not_released_of_uses (e := .move 2) valid accepted round rfl owned rfl⟩

end Ownership

end BorrowChecker
