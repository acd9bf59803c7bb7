import BorrowChecker.Proofs.Alias
import BorrowChecker.Proofs.Exactness
import Mathlib

/-!
What the verdict on a local rests on. Moves and borrows that are refused leave the state as it was,
and what earlier visits to a block have found is kept. So the order of the visits can decide where
a fault is reported and what it is called. It does not decide whether anything is wrong: of two
bodies that do the same along the same paths, neither or both are at fault with a local.
-/

namespace BorrowChecker

namespace Mir

namespace Body

def Moves (b : Body) (x : LocalId) : Prop := ∃ p, .move x ∈ b.events p

def Drops (b : Body) (x : LocalId) : Prop := ∃ p, .drop x ∈ b.events p

/-- Two bodies do the same at every point, go on from it to the same points, and need the same
locals there. -/
structure Alike (b c : Body) : Prop where
  locals : b.locals = c.locals
  events : ∀ p, b.events p = c.events p
  next : ∀ p q, b.Next p q ↔ c.Next p q
  needs : ∀ p x, b.Needs p x ↔ c.Needs p x

namespace Alike

variable {b c : Body} (alike : b.Alike c)
include alike

theorem symm : c.Alike b where
  locals := alike.locals.symm
  events p := (alike.events p).symm
  next p q := (alike.next p q).symm
  needs p x := (alike.needs p x).symm

theorem local? (x : LocalId) : b.local? x = c.local? x := by
  simp [Body.local?, alike.locals]

theorem moveOnly {x : LocalId} (owned : b.MoveOnly x) : c.MoveOnly x := by
  unfold MoveOnly at owned ⊢
  rwa [← alike.local?]

theorem moves {x : LocalId} (moves : b.Moves x) : c.Moves x := by
  obtain ⟨p, happens⟩ := moves
  exact ⟨p, alike.events p ▸ happens⟩

theorem drops {x : LocalId} (drops : b.Drops x) : c.Drops x := by
  obtain ⟨p, happens⟩ := drops
  exact ⟨p, alike.events p ▸ happens⟩

theorem assigns {p : Point} {x : LocalId} : b.Assigns p x ↔ c.Assigns p x := by
  unfold Assigns
  rw [alike.events]

theorem path {first last : Point} {done : List Point} (path : b.Path first done last) :
    c.Path first done last := by
  induction path with
  | start => exact .start
  | step _ next ih => exact .step ih ((alike.next _ _).mp next)

theorem reached {p : Point} (reached : b.Reached p) : c.Reached p := by
  obtain ⟨way, path⟩ := reached
  exact ⟨way, alike.path path⟩

theorem releasedAt {x : LocalId} {p : Point} {earlier : List Event}
    (released : b.ReleasedAt x p earlier) : c.ReleasedAt x p earlier := by
  obtain ⟨done, path, released⟩ := released
  refine ⟨done, alike.path path, ?_⟩
  unfold trace at released ⊢
  rwa [← funext alike.events]

theorem usesReleased {x : LocalId} {p : Point} (uses : b.UsesReleased x p) :
    c.UsesReleased x p := by
  obtain ⟨earlier, e, later, happens, uses, released⟩ := uses
  exact ⟨earlier, e, later, alike.events p ▸ happens, uses, alike.releasedAt released⟩

theorem goneSince {e : Event} {x : LocalId} {first last : Point}
    (gone : b.GoneSince e x first last) : c.GoneSince e x first last := by
  obtain ⟨owned, happens, reached, done, path, unassigned⟩ := gone
  refine ⟨alike.moveOnly owned, alike.events first ▸ happens, alike.reached reached, done,
    alike.path path, ?_⟩
  intro r passed assigns
  exact unassigned r passed (alike.assigns.mpr assigns)

theorem retains {p : Point} {x holder : LocalId} (retains : b.Retains p x holder) :
    c.Retains p x holder := by
  obtain ⟨kept, held, undropped⟩ := retains
  refine ⟨fun assigns => kept (alike.assigns.mpr assigns),
    fun assigns => held (alike.assigns.mpr assigns), ?_⟩
  intro owned drops
  exact undropped (alike.symm.moveOnly owned) (alike.symm.events p ▸ drops)

theorem lentSince {x holder : LocalId} {first last : Point}
    (lent : b.LentSince x holder first last) : c.LentSince x holder first last := by
  obtain ⟨happens, reached, between, path, retained⟩ := lent
  exact ⟨alike.events first ▸ happens, alike.reached reached, between, alike.path path,
    fun r passed => alike.retains (retained r passed)⟩

end Alike

end Body

end Mir

namespace Ownership

open Mir

section Body

variable {b : Body} {x : LocalId}

def MovesTake (b : Body) (x : LocalId) : Prop :=
  ∀ p earlier s, Occurs b p earlier (.move x) s →
    ((happen b p.location (.move x) s).state.slot x).tag = .moved

def Unfreed (b : Body) (x : LocalId) : Prop := ∀ loc, ¬ Reports b .useAfterFree x loc

theorem movesTake_of_unmoved (unmoved : ¬ b.Moves x) : MovesTake b x :=
  fun p _ _ occurs => absurd ⟨p, occurs.happens⟩ unmoved

theorem movesTake_of_unfreed (valid : b.isValid) (owned : isCopy b x = false)
    (free : MovesFreely b x) (unfreed : Unfreed b x) : MovesTake b x := by
  intro p earlier s occurs
  have gone := occurs.gone_of_free_move valid free owned
  rcases gone_happen gone with ⟨_, _, slot⟩ | ⟨drops, _⟩ | ⟨_, tag, _⟩
  · rw [slot]
  · simp at drops
  · rw [tag]
    unfold Slot.Gone at gone
    rw [tag] at gone
    refine gone.resolve_right fun dropped => ?_
    -- The move would be reported as a use of a dropped value.
    obtain ⟨v, fault⟩ := useFault?_of_gone p.location owned (.inr dropped)
    have reported := occurs.reports valid (found_of_useFault (by simp [Event.uses]) fault)
    obtain ⟨_, ⟨moved, _⟩ | ⟨_, rfl⟩⟩ := useFault?_eq_some fault
    · simp [moved] at dropped
    · exact unfreed _ reported

theorem moved_happenAll {loc : Location} {events : List Event} {s : State}
    (moved : (s.slot x).tag = .moved) (kept : ∀ e ∈ events, e.assigns x = false) :
    ((happenAll b loc events s).state.slot x).tag = .moved := by
  refine happenAll_induction (fun s => (s.slot x).tag = .moved) ?_ moved
  intro e happens s moved
  rw [tag_survives b loc (.inl moved) (kept e happens), moved]

/-- Moved outranks every other tag, so a move that takes is known of wherever it still counts. -/
theorem moved_of_goneSince (valid : b.isValid) (takes : MovesTake b x) {first p : Point}
    (gone : b.GoneSince (.move x) x first p) (still : .move x ∉ b.events p) {s : State}
    (known : stateBefore? b p = some s) : (s.slot x).tag = .moved := by
  obtain ⟨way, rest, path, unassigned⟩ := gone.through still
  obtain ⟨_, t, reached, moved⟩ := path_simulation_after valid
    (fun done _ s => (∀ r ∈ done, ¬ b.Assigns r x) → (s.slot x).tag = .moved)
    (by
      intro done r r' s t held _ _ _ below unassigned
      have moved := held fun q early => unassigned q (List.mem_append_left _ early)
      have kept := unassigned r (List.mem_append_right _ (List.mem_singleton_self r))
      refine (below.slot x).moved (moved_happenAll ?_ fun _ => Body.assigns_eq_false kept)
      rw [slot_expire]
      exact moved)
    path
    (by
      intro q s t there here below _
      obtain ⟨earlier, later, spelled⟩ := List.append_of_mem gone.2.1
      have taken := takes first earlier _ ⟨s, later, there, here, spelled, rfl⟩
      have kept := unassigned first (List.mem_cons_self ..)
      refine (below.slot x).moved ?_
      rw [execute, spelled, happenAll_append]
      simp only [Outcome.andThen, happenAll]
      refine moved_happenAll taken fun e after => ?_
      exact Body.assigns_eq_false kept (by simp [spelled, after]))
  obtain rfl := Option.some.inj (known.symm.trans reached)
  exact moved fun r passed => unassigned r (List.mem_cons_of_mem _ passed)

/-- Values that are copied are never gone. -/
theorem Occurs.moveOnly_of_gone (valid : b.isValid) {p : Point} {earlier : List Event} {e : Event}
    {s : State} (occurs : Occurs b p earlier e s) (gone : (s.slot x).Gone) :
    isCopy b x = false := by
  obtain ⟨cause, caused⟩ := cause_of_gone gone x
  obtain ⟨_, since⟩ := occurs.goneSince valid caused
  exact moveOnly_iff.mp since.1

theorem Reports.moves (valid : b.isValid) {loc : Location}
    (reports : Reports b .useAfterMove x loc) : b.Moves x := by
  obtain ⟨p, _, _, s, _, occurs, _, _, ⟨_, moved⟩ | ⟨other, _⟩⟩ := reports.use valid (.inl rfl)
  · obtain ⟨first, since⟩ := occurs.goneSince valid (by rw [moved]; rfl)
    exact ⟨first, since.2.1⟩
  · simp at other

theorem Reports.drops (valid : b.isValid) {loc : Location}
    (reports : Reports b .useAfterFree x loc) : b.Drops x := by
  obtain ⟨p, _, _, s, _, occurs, _, _, ⟨other, _⟩ | ⟨_, dropped⟩⟩ := reports.use valid (.inr rfl)
  · simp at other
  · obtain ⟨first, since⟩ := occurs.goneSince valid (by rw [dropped]; rfl)
    exact ⟨first, since.2.1⟩

end Body

section Alike

variable {b c : Body} (alike : b.Alike c) {x : LocalId}
include alike

theorem isCopy_of_alike (x : LocalId) : isCopy b x = isCopy c x := by
  unfold isCopy
  rw [alike.local?]

theorem borrowKind_of_alike (x : LocalId) : borrowKind b x = borrowKind c x := by
  unfold borrowKind
  rw [alike.local?]

variable (valid : b.isValid) (other : c.isValid)
include valid other

theorem reports_use_of_alike (free : MovesFreely c x) {loc : Location}
    (reports : Reports b .useAfterMove x loc ∨ Reports b .useAfterFree x loc) :
    Reports c .useAfterMove x loc ∨ Reports c .useAfterFree x loc := by
  obtain ⟨owned, p, rfl, uses⟩ := usesReleased_of_reports valid reports
  rw [isCopy_of_alike alike] at owned
  exact reports_of_usesReleased other free owned (alike.usesReleased uses)

theorem reports_again_of_alike (takes : MovesTake b x) (free : MovesFreely c x) {loc : Location}
    (reports : Reports b .doubleFree x loc) : Reports c .doubleFree x loc := by
  obtain ⟨p, earlier, e, s, v, rfl, occurs, fault, again, place⟩ := reports.fault valid (by simp)
  cases fault with
  | moved | dropped | conflict | borrowed => simp [Violation.located] at again
  | @again y owned dropped =>
      obtain rfl : x = y := place.symm
      obtain ⟨start, later, there, known, happens, rfl⟩ := id occurs
      have released := alike.releasedAt (occurs.releasedAt valid (.inr dropped))
      rw [isCopy_of_alike alike] at owned
      obtain ⟨t, occurs', gone⟩ := occurs_of_releasedAt other free owned
        ((alike.events p).symm.trans happens) released
      refine occurs'.reports other (found_of_dropped p.location owned (gone.resolve_left ?_))
      -- Moved in the one body, the local would be moved and not dropped in the other.
      intro moved
      obtain ⟨first, since⟩ := occurs'.goneSince other (by rw [moved]; rfl)
      have alone := Body.events_of_drop occurs.happens
      obtain rfl : earlier = [] := by
        rw [alone] at happens
        cases earlier <;> simp_all
      have still := moved_of_goneSince valid takes (alike.symm.goneSince since)
        (by simp [alone]) known
      rw [happenAll, slot_expire] at dropped
      exact absurd (still.symm.trans dropped) (by simp)

theorem Quiet.unborrowed_of_alike (quiet : Quiet b x) {p : Point} {earlier : List Event} {e : Event}
    {s : State} (occurs : Occurs c p earlier e s) (there : ¬ (s.slot x).Gone)
    (free : ∀ t, Occurs b p earlier e t → (t.slot x).borrows = []) : (s.slot x).borrows = [] := by
  rw [List.eq_nil_iff_forall_not_mem]
  intro br member
  obtain ⟨first, lent, needs⟩ := occurs.lentSince other member there
  obtain ⟨_, later, _, _, happens, _⟩ := occurs
  obtain ⟨t, known, borrowed⟩ := quiet.occurs_of_lentSince valid (alike.symm.lentSince lent)
    ((alike.needs p br.holder).mpr needs) ((alike.events p).trans happens)
  exact borrowed (free t known)

theorem Quiet.movesFreely_of_alike (quiet : Quiet b x) : MovesFreely c x := by
  intro loc reports
  obtain ⟨p, earlier, e, s, v, _, occurs, fault, refused, place⟩ := reports.fault other (by simp)
  cases fault with
  | moved | dropped | again | conflict => simp [Violation.located] at refused
  | @borrowed y br owned there member =>
      obtain rfl : x = y := place.symm
      rw [← isCopy_of_alike alike] at owned
      have free := quiet.unborrowed_of_alike alike valid other occurs there (by
        intro t occurs
        have clean := occurs.clean valid quiet (.inl (by simp [Event.uses]))
        exact unborrowed_of_clean_move clean owned)
      simp [free] at member

theorem Quiet.no_use_of_alike (quiet : Quiet b x) {loc : Location} :
    ¬ (Reports c .useAfterMove x loc ∨ Reports c .useAfterFree x loc) := by
  intro reports
  rcases reports_use_of_alike alike.symm other valid quiet.movesFreely reports with
    ⟨v, found, kind, place, _⟩ | ⟨v, found, kind, place, _⟩
  · exact quiet v found (by simp [kind]) place
  · exact quiet v found (by simp [kind]) place

/-- Whether anything is wrong with a local does not depend on how the analysis comes to know of it,
but only on what happens to the local along the paths. -/
theorem Quiet.of_alike (quiet : Quiet b x) : Quiet c x := by
  intro v found located place
  obtain ⟨p, earlier, e, s, occurs, reported⟩ := (mem_check_iff_occurs other located).mp found
  have reports := occurs.reports other reported
  rw [place] at reports
  have fault := fault_of_found reported
  have free := quiet.movesFreely_of_alike alike valid other
  cases fault with
  | moved => exact quiet.no_use_of_alike alike valid other (.inl reports)
  | dropped => exact quiet.no_use_of_alike alike valid other (.inr reports)
  | borrowed => exact free _ reports
  | @again y owned =>
      obtain rfl : x = y := place.symm
      have takes := movesTake_of_unfreed other owned free fun loc freed =>
        quiet.no_use_of_alike alike valid other (.inr freed)
      obtain ⟨v, found, kind, place, _⟩ :=
        reports_again_of_alike alike.symm other valid takes quiet.movesFreely reports
      exact quiet v found (by simp [kind]) place
  | @conflict y holder br there member exclusive =>
      obtain rfl : x = y := place.symm
      have present : ¬ (s.slot x).Gone := by
        intro gone
        exact there (occurs.moveOnly_of_gone other gone) gone
      obtain ⟨_, _, _, kind⟩ := (occurs.proper other).sited x br member
      rw [kind, or_self, ← borrowKind_of_alike alike] at exclusive
      have free := quiet.unborrowed_of_alike alike valid other occurs present (by
        intro t occurs
        have clean := occurs.clean valid quiet (.inl (by simp [Event.uses]))
        exact unborrowed_of_clean_borrow clean exclusive)
      simp [free] at member

end Alike

/-- In neither of two bodies can a moved local be taken for a dropped one: it is not both moved and
dropped, or no use after a drop is reported. -/
def Apart (b c : Body) (x : LocalId) : Prop :=
  ¬ (b.Moves x ∧ b.Drops x) ∨ Unfreed b x ∧ Unfreed c x

theorem Apart.symm {b c : Body} (alike : b.Alike c) {x : LocalId} (apart : Apart b c x) :
    Apart c b x := by
  rcases apart with unmixed | ⟨unfreed, unfreed'⟩
  · exact .inl fun both => unmixed ⟨alike.symm.moves both.1, alike.symm.drops both.2⟩
  · exact .inr ⟨unfreed', unfreed⟩

theorem Reports.of_alike {b c : Body} (alike : b.Alike c) (valid : b.isValid) (other : c.isValid)
    {x : LocalId} (free : MovesFreely b x) (free' : MovesFreely c x) (apart : Apart b c x)
    {kind : ViolationKind} (located : kind ≠ .undeclaredLifetime)
    (unshared : kind ≠ .mutableBorrowConflict) {loc : Location} (reports : Reports b kind x loc) :
    Reports c kind x loc := by
  obtain ⟨p, earlier, e, s, v, rfl, occurs, fault, rfl, place⟩ := reports.fault valid located
  cases fault with
  | conflict => exact absurd rfl unshared
  | borrowed => exact absurd reports (free _)
  | moved =>
      refine (reports_use_of_alike alike valid other free' (.inl reports)).resolve_right ?_
      intro freed
      rcases apart with unmixed | ⟨_, unfreed⟩
      · exact unmixed ⟨reports.moves valid, alike.symm.drops (freed.drops other)⟩
      · exact unfreed _ freed
  | dropped =>
      refine (reports_use_of_alike alike valid other free' (.inr reports)).resolve_left ?_
      intro moved
      rcases apart with unmixed | ⟨unfreed, _⟩
      · exact unmixed ⟨alike.symm.moves (moved.moves other), reports.drops valid⟩
      · exact unfreed _ reports
  | @again y owned dropped =>
      obtain rfl : x = y := place.symm
      have takes : MovesTake b x := by
        rcases apart with unmixed | ⟨unfreed, _⟩
        · exact movesTake_of_unmoved fun moves => unmixed ⟨moves, p, occurs.happens⟩
        · exact movesTake_of_unfreed valid owned free unfreed
      exact reports_again_of_alike alike valid other takes free' reports

end Ownership

end BorrowChecker
