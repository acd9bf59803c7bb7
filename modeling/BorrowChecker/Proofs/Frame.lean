import BorrowChecker.Proofs.Effect
import Mathlib

/-!
What a step leaves alone. A frame says of two states which locals may stand differently in them and
which references may have come or gone, given the events in between. One event keeps to its frame,
and frames of events one after the other are frames of all of them. Main statement: a statement or
terminator changes only what it names, and an operand that is refused changes nothing (`step_frame`).
-/

namespace BorrowChecker

namespace Mir

inductive Step where
  | statement (st : Statement)
  | terminator (t : Terminator)

namespace Step

def events : Step → List Event
  | statement st => st.events
  | terminator t => t.events

def destination? : Step → Option LocalId
  | statement (.assign dst _) => some dst
  | terminator (.call _ _ dst _) => dst
  | _ => none

theorem not_assigns_of_fetches {e : Event} (fetches : e.fetches) (y : LocalId) :
    e.assigns y = false := by
  cases e <;> simp_all [Event.fetches, Event.assigns]

theorem destination?_of_assigns {step : Step} {e : Event} {y : LocalId} (happens : e ∈ step.events)
    (assigns : e.assigns y) : step.destination? = some y := by
  have stores : e.fetches = false := by
    by_contra fetched
    rw [Bool.not_eq_false] at fetched
    simp [not_assigns_of_fetches fetched y] at assigns
  cases step with
  | statement st =>
      cases st with
      | assign dst src =>
          obtain fetched | rfl | ⟨target, rfl, rfl⟩ := RValue.events_cases happens
          · simp [stores] at fetched
          · simpa [Event.assigns, destination?] using assigns
          · simpa [Event.assigns, destination?] using assigns
      | drop id =>
          obtain rfl := List.mem_singleton.mp happens
          simp [Event.assigns] at assigns
      | nop | unknown => simp [events, Statement.events] at happens
  | terminator t =>
      cases t with
      | call func args dst target =>
          rcases List.mem_append.mp happens with fetched | stored
          · simp [Operand.fetches_of_flatMap fetched] at stores
          · obtain ⟨id, named, rfl⟩ := List.mem_map.mp stored
            obtain rfl : id = y := by simpa [Event.assigns] using assigns
            simpa [destination?] using named
      | switchInt discr cases otherwise =>
          simp [Operand.fetches_of_events happens] at stores
      | assert cond expected msg target =>
          simp [Operand.fetches_of_events happens] at stores
      | ret =>
          obtain rfl := List.mem_singleton.mp happens
          simp [Event.assigns] at assigns
      | missing | goto | unreachable | unknown => simp [events, Terminator.events] at happens

theorem eq_of_borrow {step : Step} {y holder : LocalId}
    (happens : .borrow y holder ∈ step.events) :
    step = .statement (.assign holder (.ref y)) := by
  cases step with
  | statement st =>
      cases st with
      | assign dst src =>
          obtain fetched | stored | ⟨target, rfl, taken⟩ := RValue.events_cases happens
          · simp [Event.fetches] at fetched
          · simp at stored
          · obtain ⟨rfl, rfl⟩ := Event.borrow.inj taken
            rfl
      | drop | nop | unknown => simp [events, Statement.events] at happens
  | terminator t =>
      obtain fetched | ⟨_, stored⟩ := Terminator.events_cases happens
      · simp [Event.fetches] at fetched
      · simp at stored

theorem eq_of_drop {step : Step} {y : LocalId} (happens : .drop y ∈ step.events) :
    step = .statement (.drop y) := by
  cases step with
  | statement st =>
      cases st with
      | assign dst src =>
          obtain fetched | stored | ⟨_, _, taken⟩ := RValue.events_cases happens
          · simp [Event.fetches] at fetched
          · simp at stored
          · simp at taken
      | drop id =>
          obtain rfl : y = id := by simpa [events, Statement.events] using happens
          rfl
      | nop | unknown => simp [events, Statement.events] at happens
  | terminator t =>
      obtain fetched | ⟨_, stored⟩ := Terminator.events_cases happens
      · simp [Event.fetches] at fetched
      · simp at stored

end Step

end Mir

namespace Ownership

open Mir

def perform (b : Body) (loc : Location) : Step → State → Outcome
  | .statement st, s => statement b loc st s
  | .terminator t, s => terminator b loc t s

theorem perform_eq_happenAll (b : Body) (loc : Location) (step : Step) (s : State) :
    perform b loc step s = happenAll b loc step.events s := by
  cases step with
  | statement st => exact statement_eq_happenAll b loc st s
  | terminator t => exact terminator_eq_happenAll b loc t s

/-- Two states differ only where some events in between may have changed something. -/
structure Framed (b : Body) (loc : Location) (events : List Event) (s t : State) : Prop where
  length : t.length = s.length
  tag : ∀ y, (t.slot y).tag = (s.slot y).tag ∧ (t.slot y).since = (s.slot y).since ∨
    (∃ e ∈ events, e.assigns y) ∨ b.MoveOnly y ∧ (.move y ∈ events ∨ .drop y ∈ events)
  lost : ∀ y, ∀ br ∈ (s.slot y).borrows, br ∈ (t.slot y).borrows ∨
    (∃ e ∈ events, e.assigns y) ∨ .drop y ∈ events ∨ ∃ e ∈ events, e.assigns br.holder
  gained : ∀ y, ∀ br ∈ (t.slot y).borrows, br ∈ (s.slot y).borrows ∨
    .borrow y br.holder ∈ events ∧ br = ⟨borrowKind b y, loc, br.holder⟩

section Frames

variable {b : Body} {loc : Location} {first second : List Event} {s t u : State}

theorem Framed.refl : Framed b loc [] s s :=
  ⟨rfl, fun _ => .inl ⟨rfl, rfl⟩, fun _ _ member => .inl member, fun _ _ member => .inl member⟩

theorem Framed.append (left : Framed b loc first s t) (right : Framed b loc second t u) :
    Framed b loc (first ++ second) s u := by
  constructor
  · rw [right.length, left.length]
  · intro y
    have early := left.tag y
    have late := right.tag y
    grind
  · intro y br member
    have early := left.lost y br member
    have late := right.lost y br
    grind
  · intro y br member
    have late := right.gained y br member
    have early := left.gained y br
    grind

/-- A copied value is neither moved away nor dropped. -/
theorem tag_happen_of_isCopy {e : Event} {y : LocalId} (copied : isCopy b y)
    (kept : e.assigns y = false) :
    ((happen b loc e s).state.slot y).tag = (s.slot y).tag ∧
      ((happen b loc e s).state.slot y).since = (s.slot y).since := by
  by_cases moving : e = .move y
  · subst moving
    rw [happen, slot_move, if_neg (by simp [copied])]
    exact ⟨rfl, rfl⟩
  · by_cases dropping : e = .drop y
    · subst dropping
      rw [happen, slot_drop, if_neg (by simp [copied])]
      exact ⟨rfl, rfl⟩
    · exact tag_happen_frame b loc s (by simp [Event.changes, kept, moving, dropping])

theorem framed_happen (b : Body) (loc : Location) (e : Event) (s : State) :
    Framed b loc [e] s (happen b loc e s).state := by
  constructor
  · exact length_happen b loc e s
  · intro y
    by_cases changed : e.changes y
    · by_cases assigned : e.assigns y
      · exact .inr (.inl ⟨e, List.mem_singleton_self e, assigned⟩)
      · rw [Bool.not_eq_true] at assigned
        have taken : e = .move y ∨ e = .drop y := by simpa [Event.changes, assigned] using changed
        by_cases copied : isCopy b y
        · exact .inl (tag_happen_of_isCopy copied assigned)
        · refine .inr (.inr ⟨moveOnly_iff.mpr (by simpa using copied), ?_⟩)
          rcases taken with rfl | rfl
          · exact .inl (List.mem_singleton_self _)
          · exact .inr (List.mem_singleton_self _)
    · exact .inl (tag_happen_frame b loc s (by simpa using changed))
  · intro y br member
    by_cases assigned : e.assigns y
    · exact .inr (.inl ⟨e, List.mem_singleton_self e, assigned⟩)
    · by_cases dropped : e = .drop y
      · exact .inr (.inr (.inl (List.mem_singleton.mpr dropped.symm)))
      · by_cases held : e.assigns br.holder
        · exact .inr (.inr (.inr ⟨e, List.mem_singleton_self e, held⟩))
        · rw [Bool.not_eq_true] at assigned held
          exact .inl (borrow_survives b loc member assigned held fun _ => dropped)
  · intro y br member
    rcases mem_borrows_happen member with ⟨taken, made⟩ | ⟨old, _⟩
    · exact .inr ⟨List.mem_singleton.mpr taken.symm, made⟩
    · exact .inl old

theorem framed_happenAll (b : Body) (loc : Location) (events : List Event) (s : State) :
    Framed b loc events s (happenAll b loc events s).state := by
  induction events generalizing s with
  | nil => exact .refl
  | cons e rest ih => exact (framed_happen b loc e s).append (ih (happen b loc e s).state)

end Frames

/-- What an event that is refused leaves behind: its state as it was, but for the holder of a
reference that is not taken, which is assigned all the same. -/
def refused (loc : Location) : Event → State → State
  | .borrow _ holder, s => reinit loc holder s
  | _, s => s

theorem move_of_found {b : Body} {loc : Location} {id : LocalId} {s : State} :
    (move b loc id s).found ≠ [] → (move b loc id s).state = s := by
  unfold move
  split
  · exact fun _ => rfl
  · split
    · exact fun _ => rfl
    · split
      · exact fun _ => rfl
      · exact fun found => absurd rfl found

theorem drop_of_found {b : Body} {loc : Location} {id : LocalId} {s : State} :
    (drop b loc id s).found ≠ [] → (drop b loc id s).state = s := by
  unfold drop
  split
  · exact fun _ => rfl
  · split
    · exact fun _ => rfl
    · exact fun _ => rfl
    · exact fun found => absurd rfl found
    · exact fun found => absurd rfl found

theorem happen_of_found {b : Body} {loc : Location} {e : Event} {s : State}
    (found : (happen b loc e s).found ≠ []) : (happen b loc e s).state = refused loc e s := by
  cases e with
  | read id => rfl
  | move id => exact move_of_found found
  | drop id => exact drop_of_found found
  | assign dst => exact absurd rfl found
  | borrow target holder =>
      have faults : (borrowFaults b s target loc).isEmpty = false := by
        simpa [happen, assign, rvalue] using found
      simp [happen, assign, rvalue, lend, faults, refused]

/-- What a step does to a state after dead references have ended in it: it is its events one after
the other; a local stands differently after it only if the step assigns it, or the local is move-only
and the step moves or drops it; a local loses a reference only if the step assigns or drops it, or
assigns the holder; it gains one only if the step takes a reference to it, and then the one of this
location and holder; and where an event is refused in the state that it meets, that state stays,
apart from the assignment of the holder. -/
theorem step_frame (b : Body) (loc : Location) (step : Step) (s : State) :
    perform b loc step s = happenAll b loc step.events s ∧
    (perform b loc step s).state.length = s.length ∧
    (∀ y, ((perform b loc step s).state.slot y).tag ≠ (s.slot y).tag ∨
        ((perform b loc step s).state.slot y).since ≠ (s.slot y).since →
      step.destination? = some y ∨
        b.MoveOnly y ∧ (.move y ∈ step.events ∨ step = .statement (.drop y))) ∧
    (∀ y, ∀ br ∈ (s.slot y).borrows, br ∉ ((perform b loc step s).state.slot y).borrows →
      step.destination? = some y ∨ step = .statement (.drop y) ∨
        step.destination? = some br.holder) ∧
    (∀ y, ∀ br ∈ ((perform b loc step s).state.slot y).borrows, br ∉ (s.slot y).borrows →
      step = .statement (.assign br.holder (.ref y)) ∧ br = ⟨borrowKind b y, loc, br.holder⟩) ∧
    ∀ earlier e later, step.events = earlier ++ e :: later →
      (happen b loc e (happenAll b loc earlier s).state).found ≠ [] →
      (happenAll b loc (earlier ++ [e]) s).state =
        refused loc e (happenAll b loc earlier s).state := by
  have frame := framed_happenAll b loc step.events s
  have assigned : ∀ y, (∃ e ∈ step.events, e.assigns y) → step.destination? = some y := by
    rintro y ⟨e, happens, assigns⟩
    exact Step.destination?_of_assigns happens assigns
  rw [perform_eq_happenAll]
  refine ⟨rfl, frame.length, ?_, ?_, ?_, ?_⟩
  · intro y differs
    rcases frame.tag y with ⟨tag, since⟩ | assigns | ⟨owned, taken⟩
    · exact absurd since (differs.resolve_left fun apart => apart tag)
    · exact .inl (assigned y assigns)
    · exact .inr ⟨owned, taken.imp_right Step.eq_of_drop⟩
  · intro y br member gone
    rcases frame.lost y br member with kept | assigns | dropped | held
    · exact absurd kept gone
    · exact .inl (assigned y assigns)
    · exact .inr (.inl (Step.eq_of_drop dropped))
    · exact .inr (.inr (assigned br.holder held))
  · intro y br member new
    obtain ⟨taken, made⟩ := (frame.gained y br member).resolve_left new
    exact ⟨Step.eq_of_borrow taken, made⟩
  · intro earlier e later _ found
    rw [happenAll_append, Outcome.andThen, happenAll_single]
    exact happen_of_found found

def lender : Body where
  locals := [{ type := .unit }, { type := .structNamed [] },
    { type := .refTo (.structNamed []) false }]

/-- The second local holds a reference to the first. -/
def lent : State := [{}, { borrows := [⟨.shared, ⟨0, 0⟩, 2⟩] }, {}]

/-- A holder that takes a new reference lets go of its old one; a value that is lent is not moved
away, by neither of two operands. -/
theorem lent_frame :
    (∃ br ∈ (lent.slot 1).borrows,
      br ∉ ((perform lender ⟨0, 3⟩ (.statement (.assign 2 (.ref 1))) lent).state.slot 1).borrows ∧
      ((Step.statement (.assign 2 (.ref 1))).destination? = some 1 ∨
        Step.statement (.assign 2 (.ref 1)) = .statement (.drop 1) ∨
        (Step.statement (.assign 2 (.ref 1))).destination? = some br.holder)) ∧
    (∃ br ∈ ((perform lender ⟨0, 3⟩ (.statement (.assign 2 (.ref 1))) lent).state.slot 1).borrows,
      br = ⟨.shared, ⟨0, 3⟩, 2⟩) ∧
    (happenAll lender ⟨0, 3⟩ ([.move 1] ++ [.move 1]) lent).state =
      (happenAll lender ⟨0, 3⟩ [.move 1] lent).state := by
  obtain ⟨_, _, _, lost, gained, _⟩ :=
    step_frame lender ⟨0, 3⟩ (.statement (.assign 2 (.ref 1))) lent
  obtain ⟨_, _, _, _, _, refuses⟩ :=
    step_frame lender ⟨0, 3⟩ (.terminator (.call [] [.move 1, .move 1] (some 1) 0)) lent
  have after :
      ((perform lender ⟨0, 3⟩ (.statement (.assign 2 (.ref 1))) lent).state.slot 1).borrows =
        [⟨.shared, ⟨0, 3⟩, 2⟩] := by
    cbv
  have gone : (⟨.shared, ⟨0, 0⟩, 2⟩ : Borrow) ∉
      ((perform lender ⟨0, 3⟩ (.statement (.assign 2 (.ref 1))) lent).state.slot 1).borrows := by
    rw [after]
    decide
  have new : (⟨.shared, ⟨0, 3⟩, 2⟩ : Borrow) ∈
      ((perform lender ⟨0, 3⟩ (.statement (.assign 2 (.ref 1))) lent).state.slot 1).borrows := by
    rw [after]
    decide
  refine ⟨⟨⟨.shared, ⟨0, 0⟩, 2⟩, by decide, gone, ?_⟩, ⟨⟨.shared, ⟨0, 3⟩, 2⟩, new, ?_⟩, ?_⟩
  · exact lost 1 ⟨.shared, ⟨0, 0⟩, 2⟩ (by decide) gone
  · exact (gained 1 ⟨.shared, ⟨0, 3⟩, 2⟩ new (by decide)).2
  · exact refuses [.move 1] (.move 1) [.assign 1] rfl (by decide)

end Ownership

end BorrowChecker
