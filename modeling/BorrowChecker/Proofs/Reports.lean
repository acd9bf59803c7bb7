import BorrowChecker.Proofs.Provenance
import Mathlib

/-!
The report of a body as a whole. It is what the points of the body find, one after the other in the
order in which they stand, and then what is wrong with the lifetimes. Every violation at locations
names a declared local and two points of the body.
-/

namespace BorrowChecker

namespace Mir

namespace Location

theorem before_iff {l o : Location} :
    l.before o ↔ l.block < o.block ∨ l.block = o.block ∧ l.statement < o.statement := by
  unfold before
  unfold BlockId at *
  grind

theorem not_before_of_before {l o : Location} (earlier : l.before o) : ¬ o.before l := by
  rw [before_iff] at earlier ⊢
  unfold BlockId at *
  omega

theorem not_before_self (l : Location) : ¬ l.before l := by
  rw [before_iff]
  unfold BlockId at *
  omega

theorem ne_of_before {l o : Location} (earlier : l.before o) : l ≠ o := by
  rintro rfl
  exact not_before_self l earlier

end Location

namespace Body

def pointsOf (b : Body) (i : Nat) : List Point :=
  match b.blocks[i]? with
  | none => []
  | some block => (List.range (block.statements.length + 1)).map (Point.mk i)

def points (b : Body) : List Point := (List.range b.blocks.length).flatMap b.pointsOf

theorem pointsOf_eq {b : Body} {i : Nat} {block : Block} (found : b.blocks[i]? = some block) :
    b.pointsOf i = (List.range (block.statements.length + 1)).map (Point.mk i) := by
  rw [pointsOf, found]

theorem block_of_mem_pointsOf {b : Body} {i : Nat} {p : Point} (member : p ∈ b.pointsOf i) :
    p.block = i := by
  unfold pointsOf at member
  split at member
  · simp at member
  · obtain ⟨_, _, rfl⟩ := List.mem_map.mp member
    rfl

theorem mem_points {b : Body} {p : Point} : p ∈ b.points ↔ b.HasPoint p := by
  rw [points, List.mem_flatMap]
  constructor
  · rintro ⟨i, inside, member⟩
    have found := List.getElem?_eq_getElem (List.mem_range.mp inside)
    rw [pointsOf_eq found, List.mem_map] at member
    obtain ⟨k, within, rfl⟩ := member
    exact ⟨_, found, Nat.lt_succ_iff.mp (List.mem_range.mp within)⟩
  · rintro ⟨block, found, within⟩
    refine ⟨p.block, List.mem_range.mpr (List.getElem?_eq_some_iff.mp found).1, ?_⟩
    rw [pointsOf_eq found, List.mem_map]
    exact ⟨p.index, List.mem_range.mpr (Nat.lt_succ_of_le within), rfl⟩

theorem points_ordered (b : Body) :
    b.points.Pairwise fun p q => p.location.before q.location := by
  refine List.pairwise_flatMap.mpr ⟨?_, ?_⟩
  · intro i _
    unfold pointsOf
    split
    · exact .nil
    · refine List.pairwise_map.mpr (List.pairwise_lt_range.imp ?_)
      intro k m earlier
      exact Location.before_iff.mpr (.inr ⟨rfl, Int.ofNat_lt.mpr earlier⟩)
  · refine List.pairwise_lt_range.imp ?_
    intro i j earlier p left q right
    refine Location.before_iff.mpr (.inl ?_)
    rw [Point.location, Point.location, block_of_mem_pointsOf left, block_of_mem_pointsOf right]
    exact Int.ofNat_lt.mpr earlier

theorem hasPoint_of_event {b : Body} {p : Point} {e : Event} (happens : e ∈ b.events p) :
    b.HasPoint p := by
  obtain ⟨block, found, ⟨st, stands, _⟩ | ⟨atEnd, _⟩⟩ := events_cases happens
  · exact ⟨block, found, Nat.le_of_lt (List.getElem?_eq_some_iff.mp stands).1⟩
  · exact ⟨block, found, Nat.le_of_eq atEnd⟩

def HasLocation (b : Body) (loc : Location) : Prop := ∃ p, b.HasPoint p ∧ p.location = loc

end Body

end Mir

namespace Ownership

open Mir

def foundAt (b : Body) (p : Point) : List Violation :=
  (stateBefore? b p).elim [] fun s => (execute b (.ofBody b) p s).found

theorem foundAt_of_known {b : Body} {p : Point} {s : State} (known : stateBefore? b p = some s) :
    foundAt b p = (execute b (.ofBody b) p s).found := by
  rw [foundAt, known, Option.elim_some]

theorem foundAt_block {b : Body} {i : Nat} {block : Block} (found : b.blocks[i]? = some block) :
    (b.pointsOf i).flatMap (foundAt b) =
      (Solution.entry? (solve b (.ofBody b)) i).elim [] fun start =>
        (transfer b (.ofBody b) i start).found := by
  rw [Body.pointsOf_eq found, List.flatMap_map]
  cases known : Solution.entry? (solve b (.ofBody b)) i with
  | none => simp [foundAt, stateBefore?, known]
  | some start => simp [foundAt, stateBefore?, known, transfer_eq_execute b _ found]

/-- The report is what the points find, in their order, and then the lifetimes. -/
theorem check_eq {b : Body} (valid : b.isValid) :
    check b = b.points.flatMap (foundAt b) ++ lifetimeViolations b := by
  have present : b.blocks.isEmpty = false := by
    simpa using (Body.flaws_parts valid).1
  simp only [check, present, Bool.false_eq_true, if_false, examine, BodyReport.violations]
  congr 1
  rw [List.filterMap_eq_flatMap_toList, Body.points, List.flatMap_assoc, List.flatMap_assoc]
  refine List.flatMap_congr ?_
  intro i inside
  rw [foundAt_block (List.getElem?_eq_getElem (List.mem_range.mp inside))]
  cases Solution.entry? (solve b (.ofBody b)) i with
  | none => rfl
  | some start => simp

theorem fault_of_foundAt {b : Body} {p : Point} {v : Violation} (found : v ∈ foundAt b p) :
    ∃ e s, Fault b p.location s e v := by
  unfold foundAt at found
  cases known : stateBefore? b p with
  | none => simp [known] at found
  | some s =>
      rw [known, Option.elim_some] at found
      obtain ⟨_, e, _, _, reported⟩ := mem_found_happenAll found
      exact ⟨e, _, fault_of_found reported⟩

theorem second_of_foundAt {b : Body} {p : Point} {v : Violation} (found : v ∈ foundAt b p) :
    v.second = p.location := by
  obtain ⟨_, _, fault⟩ := fault_of_foundAt found
  exact fault.second_eq

theorem kind_of_foundAt {b : Body} {p : Point} {v : Violation} (found : v ∈ foundAt b p) :
    v.kind ≠ .undeclaredLifetime := by
  obtain ⟨_, _, fault⟩ := fault_of_foundAt found
  exact fault.kind_ne

theorem Occurs.explained {b : Body} (valid : b.isValid) {p : Point} {earlier : List Event}
    {e : Event} {s : State} (occurs : Occurs b p earlier e s) {v : Violation}
    (fault : Fault b p.location s e v) :
    ∃ first : Point, first.location = v.first ∧ p.location = v.second ∧ v.Explained b first p := by
  obtain ⟨start, later, there, known, happens, rfl⟩ := occurs
  exact fault.explained (stateBefore?_justified valid there known) happens

/-- The story behind a violation is about a declared local and events of the body. -/
theorem Violation.Explained.inBody {b : Body} {v : Violation} {first second : Point}
    (explained : v.Explained b first second) :
    (b.local? v.place).isSome ∧ b.HasPoint first := by
  have told : ∀ {decl e}, b.local? v.place = some decl → e ∈ b.events first →
      (b.local? v.place).isSome ∧ b.HasPoint first := by
    intro decl e declared happens
    exact ⟨by simp [declared], Body.hasPoint_of_event happens⟩
  unfold Violation.Explained at explained
  split at explained
  · obtain ⟨⟨⟨_, declared, _⟩, happens, _⟩, _⟩ := explained
    exact told declared happens
  · obtain ⟨⟨⟨_, declared, _⟩, happens, _⟩, _⟩ := explained
    exact told declared happens
  · obtain ⟨⟨⟨_, declared, _⟩, happens, _⟩, _⟩ := explained
    exact told declared happens
  · obtain ⟨⟨_, declared, _⟩, _, _, ⟨happens, _⟩, _⟩ := explained
    exact told declared happens
  · obtain ⟨⟨_, declared, _⟩, _, _, ⟨happens, _⟩, _⟩ := explained
    exact told declared happens
  · exact explained.elim
  · exact explained.elim

theorem check_placed {b : Body} (valid : b.isValid) {v : Violation} (found : v ∈ check b)
    (located : v.kind ≠ .undeclaredLifetime) :
    (b.local? v.place).isSome ∧ b.HasLocation v.first ∧ b.HasLocation v.second := by
  obtain ⟨p, earlier, e, s, occurs, reported⟩ := (mem_check_iff_occurs valid located).mp found
  obtain ⟨first, here, there, explained⟩ := occurs.explained valid (fault_of_found reported)
  obtain ⟨declared, inside⟩ := explained.inBody
  exact ⟨declared, ⟨first, inside, here⟩, p, Body.hasPoint_of_event occurs.happens, there⟩

theorem check_ordered {b : Body} (valid : b.isValid) :
    (check b).Pairwise fun v w => w.kind ≠ .undeclaredLifetime →
      v.kind ≠ .undeclaredLifetime ∧ ¬ w.second.before v.second := by
  rw [check_eq valid]
  refine List.pairwise_append.mpr ⟨List.pairwise_flatMap.mpr ⟨?_, ?_⟩, ?_, ?_⟩
  · intro p _
    refine List.pairwise_of_forall_mem_list ?_
    intro v left w right _
    refine ⟨kind_of_foundAt left, ?_⟩
    rw [second_of_foundAt left, second_of_foundAt right]
    exact Location.not_before_self _
  · refine b.points_ordered.imp ?_
    intro p q earlier v left w right _
    refine ⟨kind_of_foundAt left, ?_⟩
    rw [second_of_foundAt left, second_of_foundAt right]
    exact Location.not_before_of_before earlier
  · refine List.pairwise_of_forall_mem_list ?_
    intro v _ w right located
    exact absurd (lifetimeViolations_kind right) located
  · intro v _ w right located
    exact absurd (lifetimeViolations_kind right) located

/-- Reports are well placed and in order: a violation at locations names a declared local and two
places of the body; those after it do not lie before it; and no lifetime comes before it. -/
theorem report_in_order {b : Body} (valid : b.isValid) :
    (∀ v ∈ check b, v.kind ≠ .undeclaredLifetime →
      (b.local? v.place).isSome ∧ b.HasLocation v.first ∧ b.HasLocation v.second) ∧
    (check b).Pairwise fun v w => w.kind ≠ .undeclaredLifetime →
      v.kind ≠ .undeclaredLifetime ∧ ¬ w.second.before v.second :=
  ⟨fun _ found located => check_placed valid found located, check_ordered valid⟩

/-- A loop moves a value away each time round, its last value is dropped twice behind the loop, and
a bound names a lifetime that is not declared. -/
def unruly : Body where
  params := [.scalar .bool, .structNamed []]
  locals := [{ type := .unit }, { type := .scalar .bool }, { type := .structNamed [] },
    { type := .structNamed [] }]
  blocks := [
    { statements := [.assign 3 (.use (.move 2))], term := .switchInt (.copy 1) [⟨0, 0⟩] 1 },
    { statements := [.drop 3, .drop 3], term := .ret }]
  lifetimeParams := ["b"]
  lifetimeBounds := [⟨"a", "b"⟩]

theorem unruly_in_order :
    unruly.isValid ∧
      check unruly = [.located .useAfterMove 2 ⟨0, 0⟩ ⟨0, 0⟩, .located .doubleFree 3 ⟨1, 0⟩ ⟨1, 1⟩,
        .undeclared "a" ⟨"a", "b"⟩] ∧
      (unruly.local? 3).isSome ∧ unruly.HasLocation ⟨1, 0⟩ ∧ unruly.HasLocation ⟨1, 1⟩ ∧
      (check unruly).Pairwise fun v w => w.kind ≠ .undeclaredLifetime →
        v.kind ≠ .undeclaredLifetime ∧ ¬ w.second.before v.second := by
  have valid : unruly.isValid := by decide
  have reported : check unruly = [.located .useAfterMove 2 ⟨0, 0⟩ ⟨0, 0⟩,
      .located .doubleFree 3 ⟨1, 0⟩ ⟨1, 1⟩, .undeclared "a" ⟨"a", "b"⟩] := by cbv
  obtain ⟨placed, ordered⟩ := report_in_order valid
  have found : .located .doubleFree 3 ⟨1, 0⟩ ⟨1, 1⟩ ∈ check unruly := by simp [reported]
  obtain ⟨declared, first, second⟩ := placed _ found (by decide)
  exact ⟨valid, reported, declared, first, second, ordered⟩

end Ownership

end BorrowChecker
