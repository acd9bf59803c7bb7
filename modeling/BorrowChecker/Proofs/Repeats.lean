import BorrowChecker.Proofs.Elision
import BorrowChecker.Proofs.Reports
import Mathlib

/-!
Violations that are reported twice. The operands of a point are checked one after the other and
nothing is remembered of what was reported, so a local that is refused to two operands of one point
is reported twice in the same words. Which operands are refused follows from how the local stands
before the point. A bound that names an undeclared lifetime is reported as often as it is written.
There are no other repetitions.
-/

namespace BorrowChecker

namespace Mir

namespace Body

/-- All events of a point are fetches of operands, save perhaps the last. -/
theorem events_shape (b : Body) (p : Point) :
    (∀ e ∈ b.events p, e.fetches) ∨
      (∃ front dst, b.events p = front ++ [.assign dst] ∧ ∀ e ∈ front, e.fetches) ∨
      (∃ x holder, b.events p = [.borrow x holder]) ∨ ∃ x, b.events p = [.drop x] := by
  rcases List.eq_nil_or_concat (b.events p) with empty | ⟨front, last, spelled⟩
  · left
    simp [empty]
  · rw [List.concat_eq_append] at spelled
    have fetches := fetches_of_earlier spelled
    have happens : last ∈ b.events p := by simp [spelled]
    cases last with
    | read id | move id =>
        left
        intro e member
        rw [spelled] at member
        rcases List.mem_append.mp member with early | here
        · exact fetches e early
        · exact List.mem_singleton.mp here ▸ rfl
    | assign dst => exact .inr (.inl ⟨front, dst, spelled, fetches⟩)
    | borrow x holder => exact .inr (.inr (.inl ⟨x, holder, events_of_borrow happens⟩))
    | drop x => exact .inr (.inr (.inr ⟨x, events_of_drop happens⟩))

end Body

end Mir

namespace Ownership

open Mir

/-- How many uses of a local are refused at a point, as the local stands before it: all of them when
its value is gone, the moves when references to it are in use, and else those after a first move. -/
def refusals (slot : Slot) (x : LocalId) (events : List Event) : Nat :=
  if slot.Gone then events.countP fun e => e.uses x
  else if slot.borrows = [] then
    (events.dropWhile fun e => e ≠ .move x).tail.countP fun e => e.uses x
  else events.count (.move x)

theorem refusals_le_length (slot : Slot) (x : LocalId) (events : List Event) :
    refusals slot x events ≤ events.length := by
  unfold refusals
  split
  · exact List.countP_le_length
  · split
    · refine List.countP_le_length.trans ?_
      rw [List.length_tail]
      have := (events.dropWhile_suffix fun e => decide (e ≠ .move x)).length_le
      omega
    · exact List.count_le_length

theorem refusals_assign (slot : Slot) (x dst : LocalId) (front : List Event) :
    refusals slot x (front ++ [.assign dst]) = refusals slot x front := by
  unfold refusals
  split
  · simp [Event.uses]
  · split
    · induction front with
      | nil => simp
      | cons e rest ih =>
          by_cases moves : e = .move x
          · simp [moves, Event.uses]
          · simpa [moves] using ih
    · simp

def about (x : LocalId) (found : List Violation) : List Violation :=
  found.filter fun v => v.place = x

theorem nodup_iff_about (found : List Violation) :
    found.Nodup ↔ ∀ x, (about x found).Nodup := by
  constructor
  · intro nodup x
    exact nodup.filter _
  · intro each
    rw [List.nodup_iff_count_le_one]
    intro v
    have once := List.nodup_iff_count_le_one.mp (each v.place) v
    rwa [about, List.count_filter (by simp)] at once

section Fetches

variable {b : Body} {loc : Location} {x : LocalId}

theorem about_happenAll_cons (e : Event) (rest : List Event) (s : State) :
    about x (happenAll b loc (e :: rest) s).found =
      about x (happen b loc e s).found ++
        about x (happenAll b loc rest (happen b loc e s).state).found := by
  rw [happenAll, Outcome.andThen, about, List.filter_append]
  rfl

theorem about_fetch_other {e : Event} (fetches : e.fetches) (other : e.uses x = false) (s : State) :
    about x (happen b loc e s).found = [] := by
  refine List.filter_eq_nil_iff.mpr ?_
  intro v found
  have fault := fault_of_found found
  cases e with
  | read id | move id =>
      have place : v.place = id := fault.place_eq (.inl (by simp [Event.uses]))
      simpa [Event.uses, place] using other
  | borrow | assign | drop => simp [Event.fetches] at fetches

theorem slot_fetch_other {e : Event} (fetches : e.fetches) (other : e ≠ .move x) (s : State) :
    (happen b loc e s).state.slot x = s.slot x := by
  cases e with
  | read id => rfl
  | move id =>
      rw [happen, slot_move, if_neg]
      rintro ⟨rfl, _⟩
      exact other rfl
  | borrow | assign | drop => simp [Event.fetches] at fetches

theorem fetch_uses {e : Event} (fetches : e.fetches) (uses : e.uses x) : e = .read x ∨ e = .move x := by
  cases e <;> simp_all [Event.fetches, Event.uses]

theorem about_fetch_there {e : Event} (fetches : e.fetches) (other : e ≠ .move x) {s : State}
    (there : ¬ (s.slot x).Gone) : about x (happen b loc e s).found = [] := by
  by_cases uses : e.uses x
  · rw [(fetch_uses fetches uses).resolve_right other, happen, read,
      useFault?_eq_none.mpr fun _ => there]
    rfl
  · exact about_fetch_other fetches (by simpa using uses) s

/-- Operands that leave a local as it stands report it once for each of them that is refused. -/
theorem about_steady {events : List Event} {slot : Slot} {refused : Event → Bool} {v : Violation}
    (step : ∀ e s, e.fetches → s.slot x = slot → (happen b loc e s).state.slot x = slot ∧
      about x (happen b loc e s).found = if refused e then [v] else [])
    (fetches : ∀ e ∈ events, e.fetches) {s : State} (start : s.slot x = slot) :
    about x (happenAll b loc events s).found = List.replicate (events.countP refused) v := by
  induction events generalizing s with
  | nil => rfl
  | cons e rest ih =>
      obtain ⟨same, reported⟩ := step e s (fetches e (List.mem_cons_self ..)) start
      have later := ih (fun f member => fetches f (List.mem_cons_of_mem _ member)) same
      rw [about_happenAll_cons, later, reported, List.countP_cons]
      by_cases refusal : refused e
      · rw [if_pos refusal, if_pos refusal, List.replicate_succ]
        rfl
      · rw [if_neg refusal, if_neg refusal]
        rfl

variable {events : List Event} (owned : isCopy b x = false)
include owned

theorem about_fetch_gone {s : State} {v : Violation} (fault : useFault? b s x loc = some v)
    {e : Event} (fetches : e.fetches) (uses : e.uses x) : about x (happen b loc e s).found = [v] := by
  have place : v.place = x := by
    obtain ⟨_, ⟨_, rfl⟩ | ⟨_, rfl⟩⟩ := useFault?_eq_some fault
    · rfl
    · rfl
  rcases fetch_uses fetches uses with rfl | rfl
  · simp [happen, read, fault, about, place]
  · simp [happen, move, owned, fault, about, place]

theorem about_gone (fetches : ∀ e ∈ events, e.fetches) {s : State} {v : Violation}
    (fault : useFault? b s x loc = some v) (gone : (s.slot x).Gone) :
    about x (happenAll b loc events s).found =
      List.replicate (events.countP fun e => e.uses x) v := by
  refine about_steady ?_ fetches rfl
  intro e t fetch same
  constructor
  · by_cases moves : e = .move x
    · rw [moves, happen, slot_move, if_neg fun met => met.2.2.2.1 (same ▸ gone), same]
    · rw [slot_fetch_other fetch moves, same]
  · by_cases uses : e.uses x
    · rw [if_pos uses]
      exact about_fetch_gone owned (by rwa [useFault?, same, ← useFault?]) fetch uses
    · rw [if_neg uses]
      exact about_fetch_other fetch (by simpa using uses) t

theorem about_borrowed (fetches : ∀ e ∈ events, e.fetches) {s : State} {br : Borrow}
    {others : List Borrow} (there : ¬ (s.slot x).Gone) (lent : (s.slot x).borrows = br :: others) :
    about x (happenAll b loc events s).found =
      List.replicate (events.count (.move x)) (.located .moveWhileBorrowed x br.site loc) := by
  rw [List.count_eq_countP]
  refine about_steady ?_ fetches rfl
  intro e t fetch same
  rw [← same] at there lent
  by_cases moves : e = .move x
  · subst moves
    constructor
    · rw [happen, slot_move, if_neg fun met => by simp [lent] at met, same]
    · simp [happen, move, owned, useFault?_eq_none.mpr fun _ => there, lent, about,
        Violation.located]
  · constructor
    · rw [slot_fetch_other fetch moves, same]
    · rw [about_fetch_there fetch moves there, if_neg (by simpa using moves)]

/-- The first operand that moves a value away is accepted, and those behind it find it gone. -/
theorem about_free (fetches : ∀ e ∈ events, e.fetches) {s : State} (present : s.Has x)
    (there : ¬ (s.slot x).Gone) (free : (s.slot x).borrows = []) :
    about x (happenAll b loc events s).found =
      List.replicate ((events.dropWhile fun e => e ≠ .move x).tail.countP fun e => e.uses x)
        (.located .useAfterMove x loc loc) := by
  induction events generalizing s with
  | nil => rfl
  | cons e rest ih =>
      have fetch := fetches e (List.mem_cons_self ..)
      have others := fun f member => fetches f (List.mem_cons_of_mem _ member)
      rw [about_happenAll_cons]
      by_cases moves : e = .move x
      · subst moves
        have slot : (happen b loc (.move x) s).state.slot x = ⟨.moved, loc, []⟩ := by
          rw [happen, slot_move, if_pos ⟨rfl, present, owned, there, free⟩]
        have accepted : about x (happen b loc (.move x) s).found = [] := by
          simp [happen, move, owned, useFault?_eq_none.mpr fun _ => there, free, about]
        have fault : useFault? b (happen b loc (.move x) s).state x loc =
            some (.located .useAfterMove x loc loc) := by
          simp [useFault?, owned, slot]
        rw [accepted, about_gone owned others fault (by rw [slot]; exact .inl rfl)]
        simp
      · have same := @slot_fetch_other b loc x e fetch moves s
        have still : (happen b loc e s).state.Has x := by
          unfold State.Has at present ⊢
          rwa [length_happen]
        rw [about_fetch_there fetch moves there, ih others still (by rwa [same]) (by rwa [same])]
        simp [moves]

/-- All that operands report of one local is the same violation, once for each that is refused. -/
theorem about_fetches (fetches : ∀ e ∈ events, e.fetches) {s : State} (present : s.Has x) :
    ∃ v, about x (happenAll b loc events s).found =
      List.replicate (refusals (s.slot x) x events) v := by
  by_cases gone : (s.slot x).Gone
  · obtain ⟨v, fault⟩ := useFault?_of_gone loc owned gone
    exact ⟨v, by rw [refusals, if_pos gone, about_gone owned fetches fault gone]⟩
  · cases lent : (s.slot x).borrows with
    | nil =>
        refine ⟨.located .useAfterMove x loc loc, ?_⟩
        rw [refusals, if_neg gone, if_pos lent, about_free owned fetches present gone lent]
    | cons br others =>
        refine ⟨.located .moveWhileBorrowed x br.site loc, ?_⟩
        rw [refusals, if_neg gone, if_neg (by simp [lent]), about_borrowed owned fetches gone lent]

end Fetches

section Points

variable {b : Body} {p : Point} {s : State}

theorem about_fetches_copied {events : List Event} {loc : Location} {x : LocalId}
    (copied : isCopy b x = true) (fetches : ∀ e ∈ events, e.fetches) :
    about x (happenAll b loc events s).found = [] := by
  refine List.filter_eq_nil_iff.mpr ?_
  intro v found isAbout
  have place : v.place = x := by simpa using isAbout
  obtain ⟨earlier, e, later, rfl, reported⟩ := mem_found_happenAll found
  have fetch := fetches e (by simp)
  cases fault_of_found reported with
  | moved _ owned | dropped _ owned | borrowed owned =>
      simp only [Violation.located] at place
      subst place
      simp [copied] at owned
  | again | conflict => simp [Event.fetches] at fetch

theorem nodup_fetches_iff {events : List Event} (fetches : ∀ e ∈ events, e.fetches)
    (full : s.length = b.locals.length) (loc : Location) :
    (happenAll b loc events s).found.Nodup ↔
      ∀ x, b.MoveOnly x → refusals (s.slot x) x events ≤ 1 := by
  rw [nodup_iff_about]
  refine forall_congr' fun x => ?_
  by_cases owned : isCopy b x = false
  · have moveOnly := moveOnly_iff.mpr owned
    obtain ⟨v, same⟩ := @about_fetches b loc x events owned fetches s (has_of_moveOnly moveOnly full)
    rw [same, List.nodup_replicate]
    exact ⟨fun few _ => few, fun few => few moveOnly⟩
  · have copied : isCopy b x = true := by simpa using owned
    rw [about_fetches_copied copied fetches]
    refine ⟨fun _ moveOnly => ?_, fun _ => List.nodup_nil⟩
    exact absurd (moveOnly_iff.mp moveOnly) owned

/-- A site has one reference to a local, so conflicts at different sites are told apart. -/
theorem nodup_borrowFaults (proper : Proper b s) (x : LocalId) (loc : Location) :
    (borrowFaults b s x loc).Nodup := by
  unfold borrowFaults
  split
  · exact List.nodup_singleton _
  · refine List.Nodup.map_on ?_ ((proper.ordered x).nodup.filter _)
    intro br left other right same
    obtain ⟨p, here, happens, kind⟩ := proper.sited x br (List.mem_filter.mp left).1
    obtain ⟨q, there, taken, otherKind⟩ := proper.sited x other (List.mem_filter.mp right).1
    have site : br.site = other.site := by
      simpa [Violation.located] using same
    obtain rfl : p = q := Point.location_inj (by rw [here, there, site])
    rw [Body.events_of_borrow happens] at taken
    have holder : br.holder = other.holder := by
      simpa [eq_comm] using taken
    obtain ⟨_, _, _⟩ := br
    obtain ⟨_, _, _⟩ := other
    simp_all

theorem nodup_drop (loc : Location) (x : LocalId) : (drop b loc x s).found.Nodup := by
  unfold drop
  split
  · exact List.nodup_nil
  · split
    · exact List.nodup_nil
    · exact List.nodup_singleton _
    · exact List.nodup_nil
    · exact List.nodup_nil

theorem nodup_execute_iff (proper : Proper b s) (live : Liveness) :
    (execute b live p s).found.Nodup ↔ ∀ x, b.MoveOnly x →
      refusals ((expire live p.location s).slot x) x (b.events p) ≤ 1 := by
  have expired := proper.expire live p.location
  have single : ∀ e, b.events p = [e] → ∀ x, b.MoveOnly x →
      refusals ((expire live p.location s).slot x) x (b.events p) ≤ 1 := by
    intro e spelled x _
    rw [spelled]
    exact refusals_le_length _ _ [e]
  unfold execute
  rcases b.events_shape p with fetches | ⟨front, dst, spelled, fetches⟩ | ⟨x, holder, spelled⟩ |
    ⟨x, spelled⟩
  · exact nodup_fetches_iff fetches expired.full p.location
  · rw [spelled, happenAll_store]
    simp only [refusals_assign]
    exact nodup_fetches_iff fetches expired.full p.location
  · refine iff_of_true ?_ (single _ spelled)
    rw [spelled, happenAll_single]
    exact nodup_borrowFaults expired x p.location
  · refine iff_of_true ?_ (single _ spelled)
    rw [spelled, happenAll_single]
    exact nodup_drop p.location x

theorem nodup_foundAt_iff (valid : b.isValid) (there : b.HasPoint p) :
    (foundAt b p).Nodup ↔ ∀ s x, stateBefore? b p = some s → b.MoveOnly x →
      refusals ((expire (.ofBody b) p.location s).slot x) x (b.events p) ≤ 1 := by
  cases known : stateBefore? b p with
  | none => simp [foundAt, known]
  | some s =>
      rw [foundAt_of_known known, nodup_execute_iff (stateBefore?_proper valid there known)]
      constructor
      · intro few t x same
        obtain rfl := Option.some.inj same
        exact few x
      · intro few x
        exact few s x rfl

end Points

section Lifetimes

variable {b : Body}

def namesUndeclared (b : Body) (bound : Bound) : Bool :=
  !(isDeclared b bound.name && isDeclared b bound.outlives)

def boundViolations (b : Body) (bound : Bound) : List Violation :=
  ((boundNames bound).filter fun name => !isDeclared b name).map fun name => .undeclared name bound

theorem bound_of_mem {bound : Bound} {v : Violation} (found : v ∈ boundViolations b bound) :
    v.bound = bound := by
  obtain ⟨name, _, rfl⟩ := List.mem_map.mp found
  rfl

theorem nodup_boundViolations (b : Body) (bound : Bound) : (boundViolations b bound).Nodup := by
  have names : (boundNames bound).Nodup := by
    unfold boundNames
    split
    · exact List.nodup_singleton _
    · rename_i different
      simpa using fun same => different (Eq.symm same)
  refine List.Nodup.map ?_ (names.filter _)
  intro name other same
  exact congrArg Violation.lifetime same

theorem boundViolations_eq_nil_iff {bound : Bound} :
    boundViolations b bound = [] ↔ namesUndeclared b bound = false := by
  unfold boundViolations namesUndeclared boundNames
  split
  · rename_i same
    simp [same]
  · simp

theorem disjoint_boundViolations_iff {first second : Bound} :
    (boundViolations b first).Disjoint (boundViolations b second) ↔
      (namesUndeclared b first → namesUndeclared b second → first ≠ second) := by
  constructor
  · rintro disjoint undeclared _ rfl
    have none : boundViolations b first = [] :=
      List.eq_nil_iff_forall_not_mem.mpr fun v found => disjoint found found
    rw [boundViolations_eq_nil_iff.mp none] at undeclared
    exact Bool.false_ne_true undeclared
  · intro apart v left right
    have same : first = second := (bound_of_mem left).symm.trans (bound_of_mem right)
    refine apart ?_ ?_ same
    · by_contra declared
      simp [boundViolations_eq_nil_iff.mpr (Bool.eq_false_iff.mpr declared)] at left
    · by_contra declared
      simp [boundViolations_eq_nil_iff.mpr (Bool.eq_false_iff.mpr declared)] at right

theorem nodup_bounds_iff (bounds : List Bound) :
    (bounds.flatMap (boundViolations b)).Nodup ↔ (bounds.filter (namesUndeclared b)).Nodup := by
  rw [List.nodup_flatMap, and_iff_right fun bound _ => nodup_boundViolations b bound]
  unfold List.Nodup
  rw [List.pairwise_filter]
  constructor
  · refine List.Pairwise.imp ?_
    intro first second disjoint
    exact disjoint_boundViolations_iff.mp disjoint
  · refine List.Pairwise.imp ?_
    intro first second apart
    exact disjoint_boundViolations_iff.mpr apart

theorem nodup_elidedBounds (b : Body) : (elidedBounds b).Nodup := by
  unfold elidedBounds
  split
  · split
    · refine List.Nodup.map ?_ (nodup_distinct _ _)
      intro name other same
      exact congrArg Bound.name same
    · exact List.nodup_nil
  · exact List.nodup_nil

theorem nodup_lifetimeViolations_iff (b : Body) :
    (lifetimeViolations b).Nodup ↔ (b.lifetimeBounds.filter (namesUndeclared b)).Nodup := by
  change ((b.lifetimeBounds ++ elidedBounds b).flatMap (boundViolations b)).Nodup ↔ _
  rw [nodup_bounds_iff]
  -- Bounds are understood only where none are written, and those are understood once.
  by_cases unwritten : b.lifetimeBounds = []
  · rw [unwritten, List.nil_append, List.filter_nil]
    exact iff_of_true ((nodup_elidedBounds b).filter _) List.nodup_nil
  · have none : elidedBounds b = [] := by simp [elidedBounds, unwritten]
    rw [none, List.append_nil]

end Lifetimes

/-- No violation is reported twice exactly when no point refuses a local to two of its operands and
no bound that names an undeclared lifetime is written twice. -/
theorem nodup_check_iff {b : Body} (valid : b.isValid) :
    (check b).Nodup ↔
      (∀ p s x, b.HasPoint p → stateBefore? b p = some s → b.MoveOnly x →
        refusals ((expire (.ofBody b) p.location s).slot x) x (b.events p) ≤ 1) ∧
      (b.lifetimeBounds.filter (namesUndeclared b)).Nodup := by
  have apart : b.points.Pairwise fun p q => (foundAt b p).Disjoint (foundAt b q) := by
    refine b.points_ordered.imp ?_
    intro p q earlier v left right
    have same := (second_of_foundAt left).symm.trans (second_of_foundAt right)
    exact Location.ne_of_before earlier same
  have separate : (b.points.flatMap (foundAt b)).Disjoint (lifetimeViolations b) := by
    intro v left right
    obtain ⟨p, _, found⟩ := List.mem_flatMap.mp left
    exact kind_of_foundAt found (lifetimeViolations_kind right)
  rw [check_eq valid, List.nodup_append', and_iff_left separate, List.nodup_flatMap,
    and_iff_left apart, nodup_lifetimeViolations_iff]
  refine and_congr ?_ Iff.rfl
  constructor
  · intro each p s x there
    exact (nodup_foundAt_iff valid there).mp (each p (Body.mem_points.mpr there)) s x
  · intro few p member
    have there := Body.mem_points.mp member
    exact (nodup_foundAt_iff valid there).mpr fun s x => few p s x there

/-- A value is moved away by the first operand and copied by the second, and a bound between
lifetimes that are declared is written twice. -/
def spared : Body where
  params := [.structNamed []]
  locals := [{ type := .unit }, { type := .structNamed [] }]
  blocks := [{ statements := [.assign 0 (.binary .add (.move 1) (.copy 1))], term := .ret }]
  lifetimeParams := ["a"]
  lifetimeBounds := [⟨"a", "static"⟩, ⟨"a", "static"⟩]

theorem spared_nodup :
    spared.isValid ∧ check spared = [.located .useAfterMove 1 ⟨0, 0⟩ ⟨0, 0⟩] ∧
      (∀ p s x, spared.HasPoint p → stateBefore? spared p = some s → spared.MoveOnly x →
        refusals ((expire (.ofBody spared) p.location s).slot x) x (spared.events p) ≤ 1) ∧
      (spared.lifetimeBounds.filter (namesUndeclared spared)).Nodup := by
  have valid : spared.isValid := by decide
  have reported : check spared = [.located .useAfterMove 1 ⟨0, 0⟩ ⟨0, 0⟩] := by cbv
  have once : (check spared).Nodup := by simp [reported]
  exact ⟨valid, reported, (nodup_check_iff valid).mp once⟩

/-- A value that was moved away is copied by both operands of a sum, and a bound that names an
undeclared lifetime is written twice. -/
def doubled : Body where
  params := [.structNamed []]
  locals := [{ type := .unit }, { type := .structNamed [] }, { type := .structNamed [] }]
  blocks := [{ statements := [.assign 2 (.use (.move 1)),
    .assign 0 (.binary .add (.copy 1) (.copy 1))], term := .ret }]
  lifetimeParams := ["b"]
  lifetimeBounds := [⟨"a", "b"⟩, ⟨"a", "b"⟩]

theorem doubled_repeats :
    doubled.isValid ∧
      check doubled = [.located .useAfterMove 1 ⟨0, 0⟩ ⟨0, 1⟩,
        .located .useAfterMove 1 ⟨0, 0⟩ ⟨0, 1⟩, .undeclared "a" ⟨"a", "b"⟩,
        .undeclared "a" ⟨"a", "b"⟩] ∧
      ¬ (check doubled).Nodup := by
  have reported : check doubled = [.located .useAfterMove 1 ⟨0, 0⟩ ⟨0, 1⟩,
      .located .useAfterMove 1 ⟨0, 0⟩ ⟨0, 1⟩, .undeclared "a" ⟨"a", "b"⟩,
      .undeclared "a" ⟨"a", "b"⟩] := by cbv
  exact ⟨by decide, reported, by simp [reported]⟩

end Ownership

end BorrowChecker
