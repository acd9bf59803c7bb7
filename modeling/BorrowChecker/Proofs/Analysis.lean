import BorrowChecker.Ownership.Check
import BorrowChecker.Proofs.Worklist

/-!
The finished analysis, point by point. It knows a state before every point that control reaches;
what a point makes of its state is below the state known at each point that follows; and the
violations at locations are exactly those that the points report in these states.
-/

namespace BorrowChecker

namespace Mir

namespace Body

def HasPoint (b : Body) (p : Point) : Prop :=
  ∃ block, b.blocks[p.block]? = some block ∧ p.index ≤ block.statements.length

theorem hasPoint_entry {b : Body} (valid : b.isValid) : b.HasPoint .entry :=
  ⟨_, List.getElem?_eq_getElem (blocks_pos valid), Nat.zero_le _⟩

theorem Next.hasPoint {b : Body} (valid : b.isValid) {p q : Point} (next : b.Next p q) :
    b.HasPoint q := by
  cases next with
  | statement found within => exact ⟨_, found, within⟩
  | jump found goes =>
      have inside := succs_inside (succs_of_goes valid found goes)
      exact ⟨_, List.getElem?_eq_getElem inside, Nat.zero_le _⟩

end Body

end Mir

namespace Ownership

open Mir

def stateBefore? (b : Body) (p : Point) : Option State :=
  (Solution.entry? (solve b (.ofBody b)) p.block).map fun start =>
    stateAt b (.ofBody b) p.block start p.index

def Accepted (b : Body) : Prop := ∀ v ∈ check b, v.kind = .undeclaredLifetime

def Quiet (b : Body) (x : LocalId) : Prop :=
  ∀ v ∈ check b, v.kind ≠ .undeclaredLifetime → v.place ≠ x

theorem Accepted.quiet {b : Body} (accepted : Accepted b) (x : LocalId) : Quiet b x := by
  intro v found located
  exact absurd (accepted v found) located

theorem Accepted.of_check {b : Body} (quiet : check b = []) : Accepted b := by
  intro v found
  simp [quiet] at found

theorem lifetimeViolations_kind {b : Body} {v : Violation} (found : v ∈ lifetimeViolations b) :
    v.kind = .undeclaredLifetime := by
  simp only [lifetimeViolations, List.mem_flatMap, List.mem_map] at found
  obtain ⟨bound, _, name, _, rfl⟩ := found
  rfl

/-- A violation is one of a lifetime, or a point reports it in the state before it. -/
theorem mem_check {b : Body} (valid : b.isValid) {v : Violation} :
    v ∈ check b ↔ v ∈ lifetimeViolations b ∨ ∃ p s, b.HasPoint p ∧ stateBefore? b p = some s ∧
      v ∈ (execute b (.ofBody b) p s).found := by
  have present : b.blocks.isEmpty = false := by
    simpa using (Body.flaws_parts valid).1
  simp only [check, present, examine, BodyReport.violations, Bool.false_eq_true, if_false,
    List.mem_append, List.mem_flatMap, List.mem_filterMap, List.mem_range, Option.map_eq_some_iff]
  rw [or_comm]
  refine or_congr Iff.rfl ?_
  constructor
  · rintro ⟨_, ⟨i, inside, start, known, rfl⟩, reported⟩
    have found := List.getElem?_eq_getElem inside
    simp only [transfer_eq_execute b _ found, List.mem_flatMap, List.mem_range] at reported
    obtain ⟨k, within, reported⟩ := reported
    refine ⟨⟨i, k⟩, stateAt b (.ofBody b) i start k, ⟨_, found, Nat.lt_succ_iff.mp within⟩, ?_,
      reported⟩
    simp [stateBefore?, known]
  · rintro ⟨p, s, ⟨block, found, within⟩, known, reported⟩
    obtain ⟨start, entered, rfl⟩ := Option.map_eq_some_iff.mp known
    refine ⟨⟨p.block, (transfer b (.ofBody b) p.block start).found⟩,
      ⟨p.block, (List.getElem?_eq_some_iff.mp found).1, start, entered, rfl⟩, ?_⟩
    simp only [transfer_eq_execute b _ found, List.mem_flatMap, List.mem_range]
    exact ⟨p.index, Nat.lt_succ_of_le within, reported⟩

theorem mem_found_happenAll {b : Body} {loc : Location} {events : List Event} {s : State}
    {v : Violation} (found : v ∈ (happenAll b loc events s).found) :
    ∃ earlier e later, events = earlier ++ e :: later ∧
      v ∈ (happen b loc e (happenAll b loc earlier s).state).found := by
  induction events generalizing s with
  | nil => simp [happenAll] at found
  | cons e rest ih =>
      rcases List.mem_append.mp found with now | afterwards
      · exact ⟨[], e, rest, rfl, now⟩
      · obtain ⟨earlier, f, later, rfl, reported⟩ := ih afterwards
        exact ⟨e :: earlier, f, later, rfl, reported⟩

theorem Fault.kind_ne {b : Body} {loc : Location} {s : State} {e : Event} {v : Violation}
    (fault : Fault b loc s e v) : v.kind ≠ .undeclaredLifetime := by
  cases fault <;> simp [Violation.located]

theorem Accepted.clean {b : Body} (accepted : Accepted b) (valid : b.isValid) {p : Point}
    (there : b.HasPoint p) {s : State} (known : stateBefore? b p = some s) :
    (execute b (.ofBody b) p s).found = [] := by
  rw [List.eq_nil_iff_forall_not_mem]
  intro v reported
  have violation := accepted v ((mem_check valid).mpr (.inr ⟨p, s, there, known, reported⟩))
  obtain ⟨_, _, _, _, found⟩ := mem_found_happenAll reported
  exact (fault_of_found found).kind_ne violation

theorem mem_check_iff_lifetime {b : Body} (valid : b.isValid) {v : Violation}
    (lifetime : v.kind = .undeclaredLifetime) : v ∈ check b ↔ v ∈ lifetimeViolations b := by
  rw [mem_check valid, or_iff_left]
  rintro ⟨p, s, _, _, reported⟩
  obtain ⟨_, _, _, _, found⟩ := mem_found_happenAll reported
  exact (fault_of_found found).kind_ne lifetime

/-- In the finished analysis an event of a point happens in a state, after the events that come
earlier at the point. -/
def Occurs (b : Body) (p : Point) (earlier : List Event) (e : Event) (s : State) : Prop :=
  ∃ start later, b.HasPoint p ∧ stateBefore? b p = some start ∧ b.events p = earlier ++ e :: later ∧
    s = (happenAll b p.location earlier (expire (.ofBody b) p.location start)).state

theorem Occurs.happens {b : Body} {p : Point} {earlier : List Event} {e : Event} {s : State}
    (occurs : Occurs b p earlier e s) : e ∈ b.events p := by
  obtain ⟨_, _, _, _, happens, _⟩ := occurs
  simp [happens]

/-- The violations at locations are those that the events report as they happen. -/
theorem mem_check_iff_occurs {b : Body} (valid : b.isValid) {v : Violation}
    (located : v.kind ≠ .undeclaredLifetime) : v ∈ check b ↔
      ∃ p earlier e s, Occurs b p earlier e s ∧ v ∈ (happen b p.location e s).found := by
  rw [mem_check valid, or_iff_right fun lifetime => located (lifetimeViolations_kind lifetime)]
  constructor
  · rintro ⟨p, start, there, known, reported⟩
    obtain ⟨earlier, e, later, happens, found⟩ := mem_found_happenAll reported
    exact ⟨p, earlier, e, _, ⟨start, later, there, known, happens, rfl⟩, found⟩
  · rintro ⟨p, earlier, e, _, ⟨start, later, there, known, happens, rfl⟩, found⟩
    refine ⟨p, start, there, known, ?_⟩
    rw [execute, happens, happenAll_append]
    exact List.mem_append_right _ (List.mem_append_left _ found)

theorem Occurs.clean {b : Body} (valid : b.isValid) {p : Point} {earlier : List Event} {e : Event}
    {s : State} (occurs : Occurs b p earlier e s) {x : LocalId} (quiet : Quiet b x)
    (about : e.uses x ∨ e = .drop x) : (happen b p.location e s).found = [] := by
  rw [List.eq_nil_iff_forall_not_mem]
  intro v found
  have fault := fault_of_found found
  have reported := (mem_check_iff_occurs valid fault.kind_ne).mpr ⟨p, earlier, e, s, occurs, found⟩
  exact quiet v reported fault.kind_ne (fault.place_eq about)

theorem stateBefore?_entry {b : Body} (valid : b.isValid) :
    ∃ s, stateBefore? b .entry = some s ∧ (State.initial b).Below s := by
  have present := Body.blocks_pos valid
  have settled := (solve_works (.ofBody b) present).settled present 0 _ (.inl ⟨rfl, rfl⟩)
  obtain ⟨start, known, below⟩ := settled.resolve_left (List.not_mem_nil)
  exact ⟨start, by simp [stateBefore?, Point.entry, known, stateAt], below⟩

theorem stateBefore?_next {b : Body} (valid : b.isValid) {p q : Point} (next : b.Next p q)
    {s : State} (known : stateBefore? b p = some s) :
    ∃ t, stateBefore? b q = some t ∧ (execute b (.ofBody b) p s).state.Below t := by
  have present := Body.blocks_pos valid
  have works := solve_works (.ofBody b) present
  obtain ⟨start, entered, rfl⟩ := Option.map_eq_some_iff.mp known
  cases next with
  | statement found within =>
      exact ⟨_, by simp only [stateBefore?, entered, Option.map_some]; rfl, State.Below.refl _⟩
  | @jump i j block found goes =>
      have ended : (solve b (.ofBody b)).exit? i =
          some (transfer b (.ofBody b) i start).state := by
        rw [works.exit?_eq present, entered]
        rfl
      have follows := Body.succs_of_goes valid found goes
      obtain ⟨t, started, below⟩ := (works.settled present j _
        (.inr ⟨i, follows, ended⟩)).resolve_left List.not_mem_nil
      rw [transfer_eq_execute b _ found] at below
      exact ⟨t, by simp [stateBefore?, started, stateAt], below⟩

/-- A relation between paths and states that each step preserves holds along whole paths. -/
theorem path_simulation {b : Body} (valid : b.isValid) (Holds : List Point → Point → State → Prop)
    (step : ∀ done p q s t, Holds done p s → b.HasPoint p → stateBefore? b p = some s →
      b.Next p q → (execute b (.ofBody b) p s).state.Below t → Holds (done ++ [p]) q t)
    {first last : Point} {done : List Point} (path : b.Path first done last)
    (there : b.HasPoint first) {s : State} (known : stateBefore? b first = some s)
    (holds : Holds [] first s) :
    b.HasPoint last ∧ ∃ t, stateBefore? b last = some t ∧ Holds done last t := by
  induction path with
  | start => exact ⟨there, s, known, holds⟩
  | step path next ih =>
      obtain ⟨inside, t, reached, held⟩ := ih
      obtain ⟨u, after, below⟩ := stateBefore?_next valid next reached
      exact ⟨next.hasPoint valid, u, after, step _ _ _ t u held inside reached next below⟩

/-- What the states after a point satisfy, and each step from there preserves, holds along the rest
of every path through the point. -/
theorem path_simulation_after {b : Body} (valid : b.isValid)
    (Holds : List Point → Point → State → Prop)
    (step : ∀ done p q s t, Holds done p s → b.HasPoint p → stateBefore? b p = some s →
      b.Next p q → (execute b (.ofBody b) p s).state.Below t → Holds (done ++ [p]) q t)
    {before between : List Point} {p q : Point} (path : b.Path .entry (before ++ p :: between) q)
    (begins : ∀ q s t, b.HasPoint p → stateBefore? b p = some s →
      (execute b (.ofBody b) p s).state.Below t → Holds [] q t) :
    b.HasPoint q ∧ ∃ t, stateBefore? b q = some t ∧ Holds between q t := by
  obtain ⟨reaching, second, next, onwards⟩ := path.split
  obtain ⟨start, known, _⟩ := stateBefore?_entry valid
  obtain ⟨there, s, here, _⟩ := path_simulation valid (fun _ _ _ => True) (by simp) reaching
    (Body.hasPoint_entry valid) known trivial
  obtain ⟨t, after, below⟩ := stateBefore?_next valid next here
  exact path_simulation valid Holds step onwards (next.hasPoint valid) after
    (begins second s t there here below)

/-- What holds initially and is preserved by joins and by points holds before every point. -/
theorem stateBefore?_induction {b : Body} (valid : b.isValid) (Holds : Point → State → Prop)
    (initial : Holds .entry (State.initial b))
    (join : ∀ p s t, Holds p s → Holds p t → Holds p (s.join t))
    (step : ∀ p q s, Holds p s → b.Next p q → Holds q (execute b (.ofBody b) p s).state)
    {p : Point} (there : b.HasPoint p) {s : State} (known : stateBefore? b p = some s) :
    Holds p s := by
  have present := Body.blocks_pos valid
  obtain ⟨start, entered, rfl⟩ := Option.map_eq_some_iff.mp known
  obtain ⟨block, found, within⟩ := there
  refine stateAt_induction Holds step found ?_ p.index within
  refine (solve_works (.ofBody b) present).entry_induction (fun i s => Holds ⟨i, 0⟩ s) present
    initial (fun i => join ⟨i, 0⟩) ?_ p.block start entered
  intro i j s holds follows
  exact transfer_induction Holds step holds follows

theorem stateBefore?_proper {b : Body} (valid : b.isValid) {p : Point} (there : b.HasPoint p)
    {s : State} (known : stateBefore? b p = some s) : Proper b s :=
  stateBefore?_induction valid (fun _ s => Proper b s) (proper_initial b)
    (fun _ _ _ left right => left.join right) (fun p _ _ proper _ => proper.execute _ p) there known

theorem Occurs.proper {b : Body} (valid : b.isValid) {p : Point} {earlier : List Event} {e : Event}
    {s : State} (occurs : Occurs b p earlier e s) : Proper b s := by
  obtain ⟨start, later, there, known, happens, rfl⟩ := occurs
  refine happenAll_induction (Proper b) ?_
    ((stateBefore?_proper valid there known).expire (.ofBody b) p.location)
  intro f before s proper
  exact proper.happen (happens ▸ List.mem_append_left _ before)

end Ownership

end BorrowChecker
