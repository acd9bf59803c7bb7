import BorrowChecker.Proofs.Worklist
import Mathlib

/-!
The solution that is left when the queue has run empty. It has states for the blocks that control
reaches and for no others, and it is stable: to run any block again from the state at its start
changes nothing. The number of transfers stays below the limit, so the limit decides nothing.
-/

namespace BorrowChecker

namespace Mir

def Body.Reachable (b : Body) (i : Nat) : Prop :=
  Relation.ReflTransGen (fun j k => k ∈ b.succs j) 0 i

end Mir

namespace Ownership

open Mir

/-- States for the reachable blocks that the transfer of every block agrees with. -/
structure Stable (b : Body) (live : Liveness) (sol : Solution) : Prop where
  entered : ∀ i, (∃ s, sol.entry? i = some s) ↔ b.Reachable i
  ended : ∀ i, (∃ s, sol.exit? i = some s) ↔ b.Reachable i
  initial : ∃ s, sol.entry? 0 = some s ∧ (State.initial b).Below s
  transferred : ∀ i, b.Reachable i →
    ∃ s, sol.entry? i = some s ∧ sol.exit? i = some (transfer b live i s).state
  flows : ∀ i j, b.Reachable i → j ∈ b.succs i →
    ∃ s t, sol.exit? i = some s ∧ sol.entry? j = some t ∧ s.Below t

section Finished

variable {b : Body} {live : Liveness} {sol : Solution}

theorem Works.reachable {queue : List Nat} (works : Works b live sol queue)
    (present : 0 < b.blocks.length) {i : Nat} {s : State} (known : sol.entry? i = some s) :
    b.Reachable i := by
  refine works.entry_induction (fun i _ => b.Reachable i) present .refl ?_ ?_ i s known
  · intro i s t left _
    exact left
  · intro i j s reached follows
    exact reached.tail follows

/-- Nothing waits any more, so what flows into a block has arrived there. -/
theorem Works.arrived (works : Works b live sol []) (present : 0 < b.blocks.length) {j : Nat}
    {s : State} (feeds : Feeds b sol j s) : ∃ t, sol.entry? j = some t ∧ s.Below t :=
  (works.settled present j s feeds).resolve_left List.not_mem_nil

theorem Works.exit?_of_known {queue : List Nat} (works : Works b live sol queue)
    (present : 0 < b.blocks.length) {i : Nat} {s : State} (known : sol.entry? i = some s) :
    sol.exit? i = some (transfer b live i s).state := by
  rw [works.exit?_eq present, known, Option.map_some]

theorem Works.entered (works : Works b live sol []) (present : 0 < b.blocks.length) {i : Nat}
    (reached : b.Reachable i) : ∃ s, sol.entry? i = some s := by
  induction reached with
  | refl =>
      obtain ⟨s, known, _⟩ := works.arrived present (.inl ⟨rfl, rfl⟩)
      exact ⟨s, known⟩
  | tail _ follows ih =>
      obtain ⟨s, known⟩ := ih
      have ended := works.exit?_of_known present known
      obtain ⟨t, next, _⟩ := works.arrived present (.inr ⟨_, follows, ended⟩)
      exact ⟨t, next⟩

end Finished

/-- The queue leaves a stable solution behind. -/
theorem solve_stable {b : Body} (valid : b.isValid) (live : Liveness) :
    Stable b live (solve b live) := by
  have present := Body.blocks_pos valid
  have works := solve_works live present
  have entered : ∀ i, (∃ s, Solution.entry? (solve b live) i = some s) ↔ b.Reachable i := by
    intro i
    constructor
    · rintro ⟨s, known⟩
      exact works.reachable present known
    · exact works.entered present
  refine ⟨entered, ?_, works.arrived present (.inl ⟨rfl, rfl⟩), ?_, ?_⟩
  · intro i
    rw [← entered, works.exit?_eq present]
    simp only [Option.map_eq_some_iff]
    constructor
    · rintro ⟨_, s, known, _⟩
      exact ⟨s, known⟩
    · rintro ⟨s, known⟩
      exact ⟨_, s, known, rfl⟩
  · intro i reached
    obtain ⟨s, known⟩ := works.entered present reached
    exact ⟨s, known, works.exit?_of_known present known⟩
  · intro i j reached follows
    obtain ⟨s, known⟩ := works.entered present reached
    have ended := works.exit?_of_known present known
    obtain ⟨t, started, below⟩ := works.arrived present (.inr ⟨i, follows, ended⟩)
    exact ⟨_, t, ended, started, below⟩

/-- A block that follows itself and lends each time round, a block to leave by, and a block that
nothing leads to. -/
def spun : Body where
  params := [.scalar .bool, .structNamed []]
  locals := [{ type := .unit }, { type := .scalar .bool }, { type := .structNamed [] },
    { type := .refTo (.structNamed []) false }]
  blocks := [
    { statements := [.assign 3 (.ref 2)], term := .switchInt (.copy 1) [⟨0, 0⟩] 1 },
    { term := .ret },
    { statements := [.drop 2], term := .goto 0 }]

theorem spun_stable :
    spun.isValid ∧ Stable spun (.ofBody spun) (solve spun (.ofBody spun)) := by
  have valid : spun.isValid := by decide
  exact ⟨valid, solve_stable valid _⟩

/-- A run that ends below its limit is the same under every higher limit. -/
theorem solveFrom_eq_of_le {b : Body} {live : Liveness} {limit higher : Nat} {sol : Solution}
    {queue : List Nat} (le : limit ≤ higher)
    (below : (solveFrom b live limit sol queue).transfers < limit) :
    solveFrom b live higher sol queue = solveFrom b live limit sol queue := by
  fun_induction solveFrom b live limit sol queue with
  | case1 sol => rw [solveFrom]
  | case2 sol index rest within unchanged ih =>
      rw [solveFrom, if_pos (Nat.lt_of_lt_of_le within le), unchanged]
      exact ih below
  | case3 sol index rest within entry found ih =>
      rw [solveFrom, if_pos (Nat.lt_of_lt_of_le within le), found]
      exact ih below
  | case4 sol index rest beyond => exact absurd below beyond

theorem solveFrom_transfers_le {b : Body} (live : Liveness) (present : 0 < b.blocks.length)
    (limit : Nat) : (solveFrom b live limit (.start b) [0]).transfers ≤ transferBound b := by
  obtain ⟨_, works, _⟩ := solveFrom_works b live limit (.start b) [0] .start
  exact works.transfers_le present

theorem solveFrom_eq_solve {b : Body} (live : Liveness) (present : 0 < b.blocks.length)
    {limit : Nat} (above : transferBound b < limit) :
    solveFrom b live limit (.start b) [0] = solve b live := by
  have few := solveFrom_transfers_le live present
  -- Both runs end below their limits, so both are the run under the higher of the two.
  have left := solveFrom_eq_of_le (Nat.le_max_left limit (transferLimit b))
    (Nat.lt_of_le_of_lt (few limit) above)
  have right := solveFrom_eq_of_le (Nat.le_max_right limit (transferLimit b))
    (Nat.lt_of_le_of_lt (few (transferLimit b)) (transferBound_lt_limit present))
  rw [← left, right, solve]

/-- The queue runs empty, after a number of transfers that locals, references and blocks bound, and
the limit on transfers is above that: any other limit above the bound gives the same solution. -/
theorem solve_within_limit {b : Body} (valid : b.isValid) (live : Liveness) :
    Works b live (solve b live) [] ∧
      (solve b live).transfers ≤
        b.blocks.length * (3 * b.locals.length + transferLimit.borrowSites b + 1) ∧
      (solve b live).transfers < transferLimit b ∧
      ∀ limit, b.blocks.length * (3 * b.locals.length + transferLimit.borrowSites b + 1) < limit →
        solveFrom b live limit (.start b) [0] = solve b live := by
  have present := Body.blocks_pos valid
  have few := solveFrom_transfers_le live present (transferLimit b)
  refine ⟨solve_works live present, few, ?_, ?_⟩
  · exact Nat.lt_of_le_of_lt few (transferBound_lt_limit present)
  · intro limit above
    exact solveFrom_eq_solve live present above

theorem spun_within_limit :
    spun.isValid ∧ Works spun (.ofBody spun) (solve spun (.ofBody spun)) [] ∧
      (solve spun (.ofBody spun)).transfers ≤ 42 ∧ transferLimit spun = 45 := by
  have valid : spun.isValid := by decide
  obtain ⟨works, few, _, _⟩ := solve_within_limit valid (.ofBody spun)
  exact ⟨valid, works, few, by decide⟩

end Ownership

end BorrowChecker
