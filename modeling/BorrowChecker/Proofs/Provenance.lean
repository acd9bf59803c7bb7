import BorrowChecker.Proofs.Analysis
import Mathlib

/-!
Where the knowledge of the analysis comes from. Whatever a state holds against a local, that its
value is gone or that a reference to it is in use, began at a point that control reaches, and a path
leads from there on which nothing has ended it. So every violation that is reported names two points
with such a path between them.
-/

namespace BorrowChecker

namespace Mir

namespace Body

def Reached (b : Body) (p : Point) : Prop := ∃ way, b.Path .entry way p

theorem Reached.next {b : Body} {p q : Point} (reached : b.Reached p) (next : b.Next p q) :
    b.Reached q := by
  obtain ⟨way, path⟩ := reached
  exact ⟨way ++ [p], .step path next⟩

/-- The value of a move-only local goes with an event of a first point, and control can get from
there to a last point without the local being assigned. -/
def GoneSince (b : Body) (e : Event) (x : LocalId) (first last : Point) : Prop :=
  b.MoveOnly x ∧ e ∈ b.events first ∧ b.Reached first ∧
    ∃ done, b.Path first done last ∧ ∀ r ∈ done, ¬ b.Assigns r x

theorem GoneSince.next {b : Body} {e : Event} {x : LocalId} {first p q : Point}
    (gone : b.GoneSince e x first p) (next : b.Next p q) (kept : ¬ b.Assigns p x) :
    b.GoneSince e x first q := by
  obtain ⟨owned, happens, reached, done, path, unassigned⟩ := gone
  refine ⟨owned, happens, reached, done ++ [p], .step path next, ?_⟩
  intro r member
  rcases List.mem_append.mp member with early | last
  · exact unassigned r early
  · exact List.mem_singleton.mp last ▸ kept

theorem GoneSince.through {b : Body} {e : Event} {x : LocalId} {first last : Point}
    (gone : b.GoneSince e x first last) (still : e ∉ b.events last) :
    ∃ way rest, b.Path .entry (way ++ first :: rest) last ∧
      ∀ r ∈ first :: rest, ¬ b.Assigns r x := by
  obtain ⟨_, happens, ⟨way, reaching⟩, done, onwards, unassigned⟩ := gone
  cases done with
  | nil =>
      rw [onwards.eq_of_nil] at still
      exact absurd happens still
  | cons r rest =>
      have through : b.Path first ([] ++ r :: rest) last := onwards
      obtain rfl := through.split.1.eq_of_nil
      exact ⟨way, rest, reaching.append onwards, unassigned⟩

theorem GoneSince.movedSince {b : Body} {x : LocalId} {first last : Point}
    (gone : b.GoneSince (.move x) x first last) (still : .move x ∉ b.events last) :
    ∃ way, b.Path .entry way last ∧ Event.MovedSince x (b.trace way) := by
  obtain ⟨way, rest, path, unassigned⟩ := gone.through still
  obtain ⟨earlier, later, spelled⟩ := List.append_of_mem gone.2.1
  refine ⟨way ++ first :: rest, path, b.trace way ++ earlier, later ++ b.trace rest,
    by simp [trace, spelled], ?_⟩
  intro e member
  rcases List.mem_append.mp member with here | after
  · have happens : e ∈ b.events first := by simp [spelled, here]
    exact assigns_eq_false (unassigned first (List.mem_cons_self ..)) happens
  · obtain ⟨q, passed, happens⟩ := List.mem_flatMap.mp after
    exact assigns_eq_false (unassigned q (List.mem_cons_of_mem _ passed)) happens

/-- A point between the taking of a reference and the present that has not ended it. -/
def Retains (b : Body) (p : Point) (x holder : LocalId) : Prop :=
  ¬ b.Assigns p x ∧ ¬ b.Assigns p holder ∧ (b.MoveOnly x → .drop x ∉ b.events p)

/-- A reference is taken at a first point, and control can get from there to a later one through
points that retain it. -/
def LentSince (b : Body) (x holder : LocalId) (first last : Point) : Prop :=
  .borrow x holder ∈ b.events first ∧ b.Reached first ∧
    ∃ between, b.Path first (first :: between) last ∧ ∀ r ∈ between, b.Retains r x holder

theorem LentSince.next {b : Body} {x holder : LocalId} {first p q : Point}
    (lent : b.LentSince x holder first p) (next : b.Next p q) (retains : b.Retains p x holder) :
    b.LentSince x holder first q := by
  obtain ⟨happens, reached, between, path, retained⟩ := lent
  refine ⟨happens, reached, between ++ [p], .step path next, ?_⟩
  intro r member
  rcases List.mem_append.mp member with early | last
  · exact retained r early
  · exact List.mem_singleton.mp last ▸ retains

end Body

end Mir

namespace Ownership

open Mir

def Tag.cause (x : LocalId) : Tag → Option Event
  | moved => some (.move x)
  | dropped => some (.drop x)
  | owned => none
  | uninitialized => none

theorem gone_of_cause {slot : Slot} {x : LocalId} {e : Event} (caused : slot.tag.cause x = some e) :
    slot.Gone := by
  unfold Tag.cause at caused
  split at caused
  · rename_i moved
    exact .inl moved
  · rename_i dropped
    exact .inr dropped
  · simp at caused
  · simp at caused

theorem cause_of_gone {slot : Slot} (gone : slot.Gone) (x : LocalId) :
    ∃ e, slot.tag.cause x = some e := by
  rcases gone with moved | dropped
  · exact ⟨.move x, by rw [moved]; rfl⟩
  · exact ⟨.drop x, by rw [dropped]; rfl⟩

def Accounted (b : Body) (p : Point) (s : State) : Prop :=
  ∀ x e, (s.slot x).tag.cause x = some e →
    ∃ first : Point, first.location = (s.slot x).since ∧ b.GoneSince e x first p

theorem Accounted.expire {b : Body} {p : Point} {s : State} (accounted : Accounted b p s)
    (live : Liveness) (loc : Location) : Accounted b p (expire live loc s) := by
  intro x e caused
  rw [slot_expire] at caused ⊢
  exact accounted x e caused

theorem Accounted.happen {b : Body} {p : Point} {s : State} (accounted : Accounted b p s)
    (reached : b.Reached p) {e : Event} (happens : e ∈ b.events p) :
    Accounted b p (happen b p.location e s).state := by
  intro x cause caused
  rcases gone_happen (gone_of_cause caused) with ⟨rfl, owned, slot⟩ | ⟨rfl, owned, slot⟩ |
    ⟨_, tag, since⟩
  · rw [slot] at caused ⊢
    obtain rfl := Option.some.inj caused
    exact ⟨p, rfl, moveOnly_iff.mpr owned, happens, reached, [], .start, by simp⟩
  · rw [slot] at caused ⊢
    obtain rfl := Option.some.inj caused
    exact ⟨p, rfl, moveOnly_iff.mpr owned, happens, reached, [], .start, by simp⟩
  · rw [tag] at caused
    rw [since]
    exact accounted x cause caused

theorem Accounted.happenAll {b : Body} {p : Point} {s : State} (accounted : Accounted b p s)
    (reached : b.Reached p) {events : List Event} (happen : events ⊆ b.events p) :
    Accounted b p (happenAll b p.location events s).state :=
  happenAll_induction (Accounted b p)
    (fun _ member _ accounted => accounted.happen reached (happen member)) accounted

theorem tag_execute_assigns {b : Body} {p : Point} {s : State} {x : LocalId} (live : Liveness)
    (assigns : b.Assigns p x) (present : s.Has x) :
    ((execute b live p s).state.slot x).tag = .owned := by
  obtain ⟨earlier, e, spelled, assigned⟩ := assigns.last
  rw [execute, spelled, happenAll_append]
  simp only [Outcome.andThen, happenAll_single]
  refine tag_happen_assigns b p.location assigned ?_
  unfold State.Has at present ⊢
  rwa [length_happenAll, expire, List.length_map]

theorem mem_borrows_happenAll {b : Body} {loc : Location} {events : List Event} {s : State}
    {x : LocalId} {br : Borrow} (member : br ∈ ((happenAll b loc events s).state.slot x).borrows)
    (there : ¬ ((happenAll b loc events s).state.slot x).Gone) :
    .borrow x br.holder ∈ events ∧ br.site = loc ∨
      br ∈ (s.slot x).borrows ∧ ¬ (s.slot x).Gone ∧
        ∀ e ∈ events, e.assigns x = false ∧ e.assigns br.holder = false ∧
          (isCopy b x = false → e ≠ .drop x) := by
  induction events generalizing s with
  | nil => exact .inr ⟨member, there, by simp⟩
  | cons e rest ih =>
      rcases ih member there with ⟨taken, here⟩ | ⟨old, still, quiet⟩
      · exact .inl ⟨List.mem_cons_of_mem _ taken, here⟩
      · rcases mem_borrows_happen old with ⟨rfl, made⟩ | ⟨older, kept, held, dropped⟩
        · exact .inl ⟨List.mem_cons_self .., by rw [made]⟩
        · have before : ¬ (s.slot x).Gone := fun gone => still (gone_survives b loc gone kept)
          refine .inr ⟨older, before, ?_⟩
          intro f happens
          rcases List.mem_cons.mp happens with rfl | later
          · exact ⟨kept, held, fun owned drops => before (dropped drops owned)⟩
          · exact quiet f later

/-- All that a state before a point holds against a local has an origin. -/
structure Justified (b : Body) (p : Point) (s : State) : Prop where
  proper : Proper b s
  reached : b.Reached p
  gone : Accounted b p s
  lent : ∀ x, ∀ br ∈ (s.slot x).borrows, ¬ (s.slot x).Gone →
    ∃ first : Point, first.location = br.site ∧ b.LentSince x br.holder first p

theorem justified_initial (b : Body) : Justified b .entry (State.initial b) where
  proper := proper_initial b
  reached := ⟨[], .start⟩
  gone x e caused := absurd (gone_of_cause caused) (slot_initial b x).1
  lent x br member := by
    rw [(slot_initial b x).2] at member
    simp at member

theorem Justified.join {b : Body} {p : Point} {s t : State} (left : Justified b p s)
    (right : Justified b p t) : Justified b p (s.join t) := by
  have sameLength : s.length = t.length := by rw [left.proper.full, right.proper.full]
  refine ⟨left.proper.join right.proper, left.reached, ?_, ?_⟩
  · intro x e caused
    rw [State.slot_join sameLength] at caused ⊢
    unfold Slot.join at caused ⊢
    by_cases higher : (s.slot x).tag.rank < (t.slot x).tag.rank
    · simp only [higher, if_true] at caused ⊢
      exact right.gone x e caused
    · simp only [higher, if_false] at caused ⊢
      exact left.gone x e caused
  · intro x br member there
    rw [State.slot_join sameLength] at member there
    rcases Borrow.mem_union.mp member with old | new
    · exact left.lent x br old fun gone => there (gone.mono (Slot.below_join_left _ _))
    · exact right.lent x br new fun gone => there (gone.mono (Slot.below_join_right _ _))

/-- What is held against a local before a point, or begins there, is justified where control goes
next. -/
theorem Justified.next {b : Body} {p q : Point} {s : State} (justified : Justified b p s)
    (next : b.Next p q) : Justified b q (execute b (.ofBody b) p s).state := by
  refine ⟨justified.proper.execute _ p, justified.reached.next next, ?_, ?_⟩
  · intro x e caused
    have during := (justified.gone.expire (.ofBody b) p.location).happenAll justified.reached
      (List.Subset.refl (b.events p))
    obtain ⟨first, here, gone⟩ := during x e caused
    refine ⟨first, here, gone.next next ?_⟩
    intro assigns
    have present := has_of_moveOnly gone.1 justified.proper.full
    rw [tag_execute_assigns _ assigns present] at caused
    simp [Tag.cause] at caused
  · intro x br member there
    rcases mem_borrows_happenAll member there with ⟨taken, here⟩ | ⟨old, before, quiet⟩
    · exact ⟨p, here.symm, taken, justified.reached, [], .step .start next, by simp⟩
    · have unexpired := (mem_borrows_expire.mp old).1
      rw [slot_expire] at before
      obtain ⟨first, here, lent⟩ := justified.lent x br unexpired before
      refine ⟨first, here, lent.next next ⟨?_, ?_, ?_⟩⟩
      · rintro ⟨e, happens, assigned⟩
        simp [(quiet e happens).1] at assigned
      · rintro ⟨e, happens, assigned⟩
        simp [(quiet e happens).2.1] at assigned
      · intro owned drops
        exact (quiet _ drops).2.2 (moveOnly_iff.mp owned) rfl

theorem stateBefore?_justified {b : Body} (valid : b.isValid) {p : Point} (there : b.HasPoint p)
    {s : State} (known : stateBefore? b p = some s) : Justified b p s :=
  stateBefore?_induction valid (Justified b) (justified_initial b)
    (fun _ _ _ left right => left.join right) (fun _ _ _ justified next => justified.next next)
    there known

theorem Justified.lent_of_member {b : Body} {p : Point} {s : State} (justified : Justified b p s)
    {earlier later : List Event} {e : Event} (happens : b.events p = earlier ++ e :: later)
    {x : LocalId} {br : Borrow}
    (member : br ∈ ((happenAll b p.location earlier
      (expire (.ofBody b) p.location s)).state.slot x).borrows)
    (there : ¬ ((happenAll b p.location earlier
      (expire (.ofBody b) p.location s)).state.slot x).Gone) :
    br.kind = borrowKind b x ∧ ∃ first : Point, first.location = br.site ∧
      b.LentSince x br.holder first p ∧ b.Needs p br.holder := by
  rcases mem_borrows_happenAll member there with ⟨taken, _⟩ | ⟨old, before, _⟩
  · have fetch := Body.fetches_of_earlier happens _ taken
    simp [Event.fetches] at fetch
  · obtain ⟨unexpired, needs⟩ := mem_borrows_expire.mp old
    rw [slot_expire] at before
    obtain ⟨first, here, lent⟩ := justified.lent x br unexpired before
    obtain ⟨_, _, _, kind⟩ := justified.proper.sited x br unexpired
    exact ⟨kind, first, here, lent, needs⟩

theorem Occurs.goneSince {b : Body} (valid : b.isValid) {p : Point} {earlier : List Event}
    {e : Event} {s : State} (occurs : Occurs b p earlier e s) {x : LocalId} {cause : Event}
    (caused : (s.slot x).tag.cause x = some cause) : ∃ first, b.GoneSince cause x first p := by
  obtain ⟨start, later, there, known, happens, rfl⟩ := occurs
  have justified := stateBefore?_justified valid there known
  have before : earlier ⊆ b.events p := by simp [happens]
  obtain ⟨first, _, since⟩ := (justified.gone.expire (.ofBody b) p.location).happenAll
    justified.reached before x cause caused
  exact ⟨first, since⟩

theorem Occurs.lentSince {b : Body} (valid : b.isValid) {p : Point} {earlier : List Event}
    {e : Event} {s : State} (occurs : Occurs b p earlier e s) {x : LocalId} {br : Borrow}
    (member : br ∈ (s.slot x).borrows) (there : ¬ (s.slot x).Gone) :
    ∃ first, b.LentSince x br.holder first p ∧ b.Needs p br.holder := by
  obtain ⟨start, later, inside, known, happens, rfl⟩ := occurs
  obtain ⟨_, first, _, lent, needs⟩ :=
    (stateBefore?_justified valid inside known).lent_of_member happens member there
  exact ⟨first, lent, needs⟩

def Violation.Explained (b : Body) (v : Violation) (first second : Point) : Prop :=
  match v.kind with
  | .useAfterMove => b.GoneSince (.move v.place) v.place first second ∧ b.Uses second v.place
  | .useAfterFree => b.GoneSince (.drop v.place) v.place first second ∧ b.Uses second v.place
  | .doubleFree =>
    b.GoneSince (.drop v.place) v.place first second ∧ .drop v.place ∈ b.events second
  | .mutableBorrowConflict =>
    b.Mutable v.place ∧ (∃ other, .borrow v.place other ∈ b.events second) ∧
      ∃ holder, b.LentSince v.place holder first second ∧ b.Needs second holder
  | .moveWhileBorrowed =>
    b.MoveOnly v.place ∧ .move v.place ∈ b.events second ∧
      ∃ holder, b.LentSince v.place holder first second ∧ b.Needs second holder
  | .undeclaredLifetime => False
  | .unknown _ => False

theorem Fault.explained {b : Body} {p : Point} {s : State} (justified : Justified b p s)
    {earlier later : List Event} {e : Event} (happens : b.events p = earlier ++ e :: later)
    {v : Violation}
    (fault : Fault b p.location
      (happenAll b p.location earlier (expire (.ofBody b) p.location s)).state e v) :
    ∃ first : Point, first.location = v.first ∧ p.location = v.second ∧ v.Explained b first p := by
  have now : e ∈ b.events p := by simp [happens]
  have before : earlier ⊆ b.events p := by simp [happens]
  have accounted := (justified.gone.expire (.ofBody b) p.location).happenAll justified.reached before
  cases fault with
  | moved uses owned moved =>
      obtain ⟨first, here, gone⟩ := accounted _ _ (by rw [moved]; rfl)
      exact ⟨first, here, rfl, gone, e, now, uses⟩
  | dropped uses owned dropped =>
      obtain ⟨first, here, gone⟩ := accounted _ _ (by rw [dropped]; rfl)
      exact ⟨first, here, rfl, gone, e, now, uses⟩
  | again owned dropped =>
      obtain ⟨first, here, gone⟩ := accounted _ _ (by rw [dropped]; rfl)
      exact ⟨first, here, rfl, gone, now⟩
  | @conflict x holder br there member exclusive =>
      -- Values that are copied are never gone, so the value is there in any case.
      have present : ¬ ((happenAll b p.location earlier
          (expire (.ofBody b) p.location s)).state.slot x).Gone := by
        intro gone
        obtain ⟨_, caused⟩ := cause_of_gone gone x
        obtain ⟨_, _, moveOnly, _⟩ := accounted x _ caused
        exact there (moveOnly_iff.mp moveOnly) gone
      obtain ⟨kind, first, here, lent, needs⟩ := justified.lent_of_member happens member present
      have mutable : b.Mutable x := by
        rw [mutable_iff]
        rwa [kind, or_self] at exclusive
      exact ⟨first, here, rfl, mutable, ⟨holder, now⟩, br.holder, lent, needs⟩
  | @borrowed x br owned there member =>
      obtain ⟨_, first, here, lent, needs⟩ := justified.lent_of_member happens member there
      exact ⟨first, here, rfl, moveOnly_iff.mpr owned, now, br.holder, lent, needs⟩

/-- Every violation at locations has its two points, and the path between them that it is about. -/
theorem violation_explained {b : Body} (valid : b.isValid) {v : Violation} (found : v ∈ check b)
    (located : v.kind ≠ .undeclaredLifetime) :
    ∃ first second : Point, first.location = v.first ∧ second.location = v.second ∧
      v.Explained b first second := by
  rcases (mem_check valid).mp found with lifetime | ⟨p, s, there, known, reported⟩
  · exact absurd (lifetimeViolations_kind lifetime) located
  · obtain ⟨earlier, e, later, happens, reported⟩ := mem_found_happenAll reported
    obtain ⟨first, here, second, explained⟩ :=
      (fault_of_found reported).explained (stateBefore?_justified valid there known) happens
    exact ⟨first, p, here, second, explained⟩

/-- A loop that moves a value away each time round. -/
def drained : Body where
  params := [.scalar .bool, .structNamed []]
  locals := [{ type := .unit }, { type := .scalar .bool }, { type := .structNamed [] },
    { type := .structNamed [] }]
  blocks := [
    { statements := [.assign 3 (.use (.move 2))], term := .switchInt (.copy 1) [⟨0, 0⟩] 1 },
    { term := .ret }]

/-- The move that is reported is its own cause, once round the loop. -/
theorem drained_explained :
    drained.isValid ∧ .located .useAfterMove 2 ⟨0, 0⟩ ⟨0, 0⟩ ∈ check drained ∧
      ∃ first second : Point, first.location = ⟨0, 0⟩ ∧ second.location = ⟨0, 0⟩ ∧
        drained.GoneSince (.move 2) 2 first second ∧ drained.Uses second 2 := by
  have valid : drained.isValid := by decide
  have reported : check drained = [.located .useAfterMove 2 ⟨0, 0⟩ ⟨0, 0⟩] := by cbv
  have found : .located .useAfterMove 2 ⟨0, 0⟩ ⟨0, 0⟩ ∈ check drained := by
    rw [reported]
    exact List.mem_singleton_self _
  exact ⟨valid, found, violation_explained valid found (by decide)⟩

end Ownership

end BorrowChecker
