import BorrowChecker.Proofs.Analysis
import BorrowChecker.Proofs.Fixpoint
import Mathlib

/-!
Blocks that control cannot reach. The analysis never enters them, and neither what is live at a point
that control reaches nor the states that are joined there depend on them. They count in one way only:
a local that holds a reference and is read nowhere keeps it, and a read in a dead block is a read.
So two bodies that differ in dead blocks only, and read the same holders, get the same verdict.
-/

namespace BorrowChecker

namespace Mir

theorem gather_induction {next : Nat → List Nat} {Holds : Nat → Prop}
    (step : ∀ n m, Holds n → m ∈ next n → Holds m) (domain pending : List Nat)
    (start : ∀ n ∈ pending, Holds n) : ∀ n ∈ gather next domain pending, Holds n := by
  fun_induction gather next domain pending with
  | case1 => simp
  | case2 domain pending node found ih =>
      have first : Holds node := start node (List.mem_of_find?_eq_some found)
      have later := ih (by
        intro m waits
        rcases List.mem_append.mp waits with follows | old
        · exact step node m first follows
        · exact start m old)
      intro n member
      rcases List.mem_cons.mp member with rfl | rest
      · exact first
      · exact later n rest

namespace Body

/-- A local is live at the start of a block that reads it before anything is written to it, and of a
block that leaves it alone on the way to such a block. -/
inductive LiveAtStart (b : Body) (x : LocalId) : Nat → Prop
  | reads {i : Nat} : Access.readsFirst x (b.accesses i) → LiveAtStart b x i
  | passes {i j : Nat} : Access.leaves x (b.accesses i) → j ∈ b.succs i → LiveAtStart b x j →
      LiveAtStart b x i

theorem inside_of_readsFirst {b : Body} {x : LocalId} {i : Nat}
    (reads : Access.readsFirst x (b.accesses i)) : i < b.blocks.length := by
  by_contra outside
  have missing : b.blocks[i]? = none := List.getElem?_eq_none (Nat.le_of_not_lt outside)
  simp [accesses, missing, Access.readsFirst] at reads

theorem mem_liveBlocks {b : Body} {x : LocalId} {i : Nat} :
    i ∈ b.liveBlocks x ↔ b.LiveAtStart x i := by
  constructor
  · refine gather_induction ?_ _ _ ?_ i
    · intro n m live follows
      obtain ⟨before, leaves⟩ := List.mem_filter.mp follows
      exact .passes leaves (mem_preds.mp before) live
    · intro n waits
      exact .reads (List.mem_filter.mp waits).2
  · intro live
    have closed := gather_closed (fun i => (b.preds i).filter fun i => Access.leaves x (b.accesses i))
      (List.range b.blocks.length)
      ((List.range b.blocks.length).filter fun i => Access.readsFirst x (b.accesses i))
    induction live with
    | reads reads =>
        have inRange := List.mem_range.mpr (inside_of_readsFirst reads)
        exact closed.1 _ (List.mem_filter.mpr ⟨inRange, reads⟩) inRange
    | @passes i j leaves follows _ ih =>
        obtain ⟨_, found, _⟩ := mem_succs.mp follows
        have inRange := List.mem_range.mpr (List.getElem?_eq_some_iff.mp found).1
        exact closed.2 j ih i (List.mem_filter.mpr ⟨mem_preds.mpr follows, leaves⟩) inRange

theorem LiveAtStart.readsAnywhere {b : Body} {x : LocalId} {i : Nat} (live : b.LiveAtStart x i) :
    b.ReadsAnywhere x := by
  induction live with
  | @reads i reads =>
      obtain ⟨a, member, readsHere⟩ := Access.reads_of_readsFirst reads
      have found := List.getElem?_eq_getElem (inside_of_readsFirst reads)
      rw [accesses_of_block found] at member
      rw [← has_readLocals, readLocals, LocalSet.has_ofList, List.mem_flatMap]
      exact ⟨_, List.mem_of_getElem? found, List.mem_flatMap.mpr ⟨a, member, readsHere⟩⟩
  | passes _ _ _ ih => exact ih

theorem has_atStart {b : Body} {x : LocalId} {i : Nat} (inside : i < b.blocks.length)
    (named : x ≠ LocalId.missing) :
    ((Liveness.ofBody b).atStart.getD i .empty).has x ↔ b.LiveAtStart x i := by
  rw [Liveness.atStart_ofBody inside named, mem_liveBlocks]
  exact ⟨And.right, fun live => ⟨live.readsAnywhere, live⟩⟩

end Body

namespace Access

theorem has_liveBeforeAll {x : LocalId} {after other : LocalSet}
    (same : after.has x ↔ other.has x) (run : List Access) :
    (((liveBeforeAll after run).headD after).has x ↔ ((liveBeforeAll other run).headD other).has x) ∧
      ∀ k : Nat, (∃ set, (liveBeforeAll after run)[k]? = some set ∧ set.has x) ↔
        ∃ set, (liveBeforeAll other run)[k]? = some set ∧ set.has x := by
  induction run with
  | nil => exact ⟨same, by simp [liveBeforeAll]⟩
  | cons a rest ih =>
      have first : (a.liveBefore ((liveBeforeAll after rest).headD after)).has x ↔
          (a.liveBefore ((liveBeforeAll other rest).headD other)).has x := by
        rw [has_liveBefore, has_liveBefore, ih.1]
      rw [liveBeforeAll_cons, liveBeforeAll_cons]
      refine ⟨first, ?_⟩
      intro k
      cases k with
      | zero => simpa using first
      | succ k => simpa using ih.2 k

end Access

namespace Body

/-- Two bodies declare the same and have the same blocks wherever control gets in the first. -/
structure SameWhereReached (b c : Body) : Prop where
  params : b.params = c.params
  result : b.result = c.result
  locals : b.locals = c.locals
  lifetimeParams : b.lifetimeParams = c.lifetimeParams
  lifetimeBounds : b.lifetimeBounds = c.lifetimeBounds
  length : b.blocks.length = c.blocks.length
  blocks : ∀ i, b.Reachable i → b.blocks[i]? = c.blocks[i]?

def HoldsReference (b : Body) (holder : LocalId) : Prop :=
  ∃ p x, b.Reachable p.block ∧ .borrow x holder ∈ b.events p

namespace SameWhereReached

variable {b c : Body} (same : b.SameWhereReached c)
include same

theorem succs {i : Nat} (reached : b.Reachable i) : b.succs i = c.succs i := by
  have targets : b.blockIndex? = c.blockIndex? := by
    funext id
    simp [blockIndex?, same.length]
  simp only [Body.succs, same.blocks i reached, targets]

theorem accesses {i : Nat} (reached : b.Reachable i) : b.accesses i = c.accesses i := by
  simp only [Body.accesses, same.blocks i reached]

theorem events {p : Point} (reached : b.Reachable p.block) : b.events p = c.events p := by
  simp only [Body.events, same.blocks p.block reached]

theorem reachable_of {i : Nat} (reached : c.Reachable i) : b.Reachable i := by
  induction reached with
  | refl => exact .refl
  | tail _ follows ih =>
      rw [← same.succs ih] at follows
      exact ih.tail follows

theorem symm : c.SameWhereReached b where
  params := same.params.symm
  result := same.result.symm
  locals := same.locals.symm
  lifetimeParams := same.lifetimeParams.symm
  lifetimeBounds := same.lifetimeBounds.symm
  length := same.length.symm
  blocks i reached := (same.blocks i (same.reachable_of reached)).symm

theorem reachable_iff {i : Nat} : b.Reachable i ↔ c.Reachable i :=
  ⟨same.symm.reachable_of, same.reachable_of⟩

theorem liveAtStart_of {x : LocalId} {i : Nat} (reached : b.Reachable i)
    (live : b.LiveAtStart x i) : c.LiveAtStart x i := by
  induction live with
  | reads reads => exact .reads (same.accesses reached ▸ reads)
  | passes leaves follows _ ih =>
      have later := ih (reached.tail follows)
      exact .passes (same.accesses reached ▸ leaves) (same.succs reached ▸ follows) later

theorem liveAtStart_iff {x : LocalId} {i : Nat} (reached : b.Reachable i) :
    b.LiveAtStart x i ↔ c.LiveAtStart x i :=
  ⟨same.liveAtStart_of reached, same.symm.liveAtStart_of (same.reachable_iff.mp reached)⟩

theorem has_liveAfter_iff {x : LocalId} {i : Nat} (reached : b.Reachable i)
    (named : x ≠ LocalId.missing) :
    (b.liveAfter (Liveness.ofBody b).atStart i).has x ↔
      (c.liveAfter (Liveness.ofBody c).atStart i).has x := by
  rw [has_liveAfter, has_liveAfter, ← same.succs reached]
  refine exists_congr fun j => and_congr_right fun follows => ?_
  have inside := succs_inside follows
  rw [has_atStart inside named, has_atStart (same.length ▸ inside) named]
  exact same.liveAtStart_iff (reached.tail follows)

/-- Control cannot get from a point that it reaches into a dead block, so what is live there does not
depend on dead blocks. -/
theorem liveBefore {p : Point} {x : LocalId} (reached : b.Reachable p.block)
    (inside : p.block < b.blocks.length) (named : x ≠ LocalId.missing) :
    (Liveness.ofBody b).liveBefore p.location x = (Liveness.ofBody c).liveBefore p.location x := by
  rw [Bool.eq_iff_iff, Liveness.liveBefore_ofBody inside,
    Liveness.liveBefore_ofBody (same.length ▸ inside), ← same.accesses reached]
  exact (Access.has_liveBeforeAll (same.has_liveAfter_iff reached named) _).2 p.index

end SameWhereReached

theorem Reachable.inside {b : Body} {i : Nat} (reached : b.Reachable i)
    (present : 0 < b.blocks.length) : i < b.blocks.length := by
  cases reached with
  | refl => exact present
  | tail _ follows => exact succs_inside follows

end Body

end Mir

namespace Ownership

open Mir

def Held (b : Body) (s : State) : Prop :=
  ∀ x, ∀ br ∈ (s.slot x).borrows, b.HoldsReference br.holder

theorem held_initial (b : Body) : Held b (State.initial b) := by
  intro x br member
  rw [(slot_initial b x).2] at member
  simp at member

theorem Held.join {b : Body} {s t : State} (left : Held b s) (right : Held b t)
    (sameLength : s.length = t.length) : Held b (s.join t) := by
  intro x br member
  rw [State.slot_join sameLength] at member
  rcases Borrow.mem_union.mp member with old | new
  · exact left x br old
  · exact right x br new

theorem Held.execute {b : Body} {s : State} (held : Held b s) (live : Liveness) {p : Point}
    (reached : b.Reachable p.block) : Held b (execute b live p s).state := by
  refine happenAll_induction (Held b) ?_ ?_
  · intro e happens t held x br member
    rcases mem_borrows_happen member with ⟨taken, _⟩ | ⟨old, _⟩
    · exact ⟨p, x, reached, taken ▸ happens⟩
    · exact held x br old
  · intro x br member
    rw [slot_expire] at member
    exact held x br (List.mem_filter.mp member).1

theorem Held.stateAt {b : Body} {s : State} (held : Held b s) (live : Liveness) {i : Nat}
    (reached : b.Reachable i) (k : Nat) : Held b (stateAt b live i s k) := by
  induction k with
  | zero => exact held
  | succ k ih => exact ih.execute live (p := ⟨i, k⟩) reached

theorem Works.held {b : Body} {live : Liveness} {sol : Solution} {queue : List Nat}
    (works : Works b live sol queue) (present : 0 < b.blocks.length) {i : Nat} {s : State}
    (known : sol.entry? i = some s) : Held b s := by
  suffices all : b.Reachable i ∧ Proper b s ∧ Held b s by exact all.2.2
  refine works.entry_induction (fun i s => b.Reachable i ∧ Proper b s ∧ Held b s) present
    ⟨.refl, proper_initial b, held_initial b⟩ ?_ ?_ i s known
  · rintro i s t ⟨reached, proper, held⟩ ⟨_, proper', held'⟩
    exact ⟨reached, proper.join proper', held.join held' (by rw [proper.full, proper'.full])⟩
  · rintro i j s ⟨reached, proper, held⟩ follows
    refine ⟨reached.tail follows, proper.transfer i, ?_⟩
    obtain ⟨block, found, _⟩ := Body.mem_succs.mp follows
    rw [transfer_eq_execute b live found]
    exact held.stateAt live reached _

theorem Works.waits_reachable {b : Body} {live : Liveness} {sol : Solution} {queue : List Nat}
    (works : Works b live sol queue) : ∀ i ∈ queue, b.Reachable i :=
  works.waits .refl fun _ _ reached follows => reached.tail follows

theorem happen_of_locals {b c : Body} (locals : b.locals = c.locals) (loc : Location) (e : Event)
    (s : State) : happen b loc e s = happen c loc e s := by
  have declared : b.local? = c.local? := by
    funext id
    simp [Body.local?, locals]
  have copies : isCopy b = isCopy c := by
    funext id
    simp [isCopy, declared]
  have kinds : borrowKind b = borrowKind c := by
    funext id
    simp [borrowKind, declared]
  have uses : useFault? b = useFault? c := by
    funext s id loc
    simp only [useFault?, copies]
  have lends : borrowFaults b = borrowFaults c := by
    funext s id loc
    simp only [borrowFaults, uses, kinds]
  cases e <;> simp only [happen, read, move, drop, assign, rvalue, lend, copies, kinds, uses, lends]

theorem happenAll_of_locals {b c : Body} (locals : b.locals = c.locals) (loc : Location)
    (events : List Event) (s : State) : happenAll b loc events s = happenAll c loc events s := by
  induction events generalizing s with
  | nil => rfl
  | cons e rest ih => simp only [happenAll, Outcome.andThen, happen_of_locals locals, ih]

theorem blocks_examine (b : Body) : (examine b).blocks =
    (List.range b.blocks.length).filterMap fun i =>
      (Solution.entry? (solve b (.ofBody b)) i).map fun entry =>
        ⟨i, (transfer b (.ofBody b) i entry).found⟩ := rfl

theorem violations_examine (b : Body) : (examine b).violations =
    (examine b).blocks.flatMap BlockReport.found ++ lifetimeViolations b := rfl

theorem lifetimeViolations_of_same {b c : Body} (same : b.SameWhereReached c) :
    lifetimeViolations b = lifetimeViolations c := by
  simp only [lifetimeViolations, elidedBounds, inputLifetimes, isDeclared, same.params,
    same.result, same.lifetimeParams, same.lifetimeBounds]

section SameWhereReached

variable {b c : Body} (valid : b.isValid) (same : b.SameWhereReached c)
  (holders : ∀ holder, b.HoldsReference holder → (b.ReadsAnywhere holder ↔ c.ReadsAnywhere holder))
include valid same holders

theorem expire_of_same {p : Point} (reached : b.Reachable p.block) {s : State} (held : Held b s) :
    expire (.ofBody b) p.location s = expire (.ofBody c) p.location s := by
  unfold expire
  refine List.map_congr_left fun slot member => ?_
  unfold Slot.keepBorrows
  congr 1
  refine List.filter_congr fun br taken => ?_
  obtain ⟨i, stands⟩ := List.mem_iff_getElem?.mp member
  have holds := held i br (by simpa [State.slot_natCast, stands] using taken)
  have read : (Liveness.ofBody b).read.has br.holder = (Liveness.ofBody c).read.has br.holder := by
    rw [Bool.eq_iff_iff]
    exact Body.has_readLocals.trans ((holders _ holds).trans Body.has_readLocals.symm)
  obtain ⟨q, x, _, taken⟩ := holds
  have named := Body.named_of_hasLocal (Body.borrow_locals valid taken).2
  rw [read, same.liveBefore reached (reached.inside (Body.blocks_pos valid)) named]

theorem execute_of_same {p : Point} (reached : b.Reachable p.block) {s : State} (held : Held b s) :
    execute b (.ofBody b) p s = execute c (.ofBody c) p s := by
  rw [execute, execute, expire_of_same valid same holders reached held, same.events reached]
  exact happenAll_of_locals same.locals _ _ _

theorem stateAt_of_same {i : Nat} (reached : b.Reachable i) {s : State} (held : Held b s) (k : Nat) :
    stateAt b (.ofBody b) i s k = stateAt c (.ofBody c) i s k := by
  induction k with
  | zero => rfl
  | succ k ih =>
      have now := held.stateAt (.ofBody b) reached k
      rw [stateAt, stateAt, ← ih,
        execute_of_same valid same holders (p := ⟨i, k⟩) reached now]

theorem transfer_of_same {i : Nat} (reached : b.Reachable i) {s : State} (held : Held b s) :
    transfer b (.ofBody b) i s = transfer c (.ofBody c) i s := by
  have found := List.getElem?_eq_getElem (reached.inside (Body.blocks_pos valid))
  have found' := same.blocks i reached ▸ found
  have states := stateAt_of_same valid same holders reached held
  rw [transfer_eq_execute b _ found, transfer_eq_execute c _ found', states]
  congr 1
  refine List.flatMap_congr fun k _ => ?_
  have now := held.stateAt (.ofBody b) reached k
  rw [← states, execute_of_same valid same holders (p := ⟨i, k⟩) reached now]

omit holders in
theorem inflow_of_same {sol : Solution} {queue : List Nat} (works : Works b (.ofBody b) sol queue)
    (i : Nat) : inflow b sol i = inflow c sol i := by
  have present := Body.blocks_pos valid
  have params : b.isParam = c.isParam := by
    funext id
    simp only [Body.isParam, same.params]
  have initial : State.initial b = State.initial c := by
    simp only [State.initial, same.locals, params]
  -- A dead block may be a predecessor of a live one, but it has no state at its end.
  have flows : (b.preds i).filterMap sol.exit? = (c.preds i).filterMap sol.exit? := by
    rw [Body.preds_eq_filter, Body.preds_eq_filter, List.filterMap_filter, List.filterMap_filter,
      same.length]
    refine List.filterMap_congr fun k _ => ?_
    cases ended : sol.exit? k with
    | none => simp
    | some s =>
        rw [works.exit?_eq present, Option.map_eq_some_iff] at ended
        obtain ⟨start, known, _⟩ := ended
        rw [same.succs (works.reachable present known)]
  rw [inflow, inflow, flows, initial]

omit holders in
theorem newEntry?_of_same {sol : Solution} {queue : List Nat} (works : Works b (.ofBody b) sol queue)
    (i : Nat) : newEntry? b sol i = newEntry? c sol i := by
  unfold newEntry?
  rw [inflow_of_same valid same works]

theorem solveFrom_of_same (limit : Nat) (sol : Solution) (queue : List Nat)
    (works : Works b (.ofBody b) sol queue) :
    solveFrom b (.ofBody b) limit sol queue = solveFrom c (.ofBody c) limit sol queue := by
  have present := Body.blocks_pos valid
  fun_induction solveFrom b (.ofBody b) limit sol queue with
  | case1 sol => rw [solveFrom]
  | case2 sol index rest within unchanged ih =>
      rw [solveFrom, if_pos within, ← newEntry?_of_same valid same works, unchanged]
      exact ih (.skip works unchanged)
  | case3 sol index rest within entry found ih =>
      have next := Works.run works found
      have inside := works.inside present index (List.mem_cons_self ..)
      have reached := works.waits_reachable index (List.mem_cons_self ..)
      have held : Held b entry := next.held present (i := index) (by
        rw [Solution.entry?_run b _ entry (works.sizes.1 ▸ inside), if_pos rfl])
      have ran := transfer_of_same valid same holders reached held
      have states : sol.run b (.ofBody b) index entry = sol.run c (.ofBody c) index entry := by
        rw [Solution.run, Solution.run, ran]
      have waits : queueAfter b (.ofBody b) sol index entry rest =
          queueAfter c (.ofBody c) sol index entry rest := by
        rw [queueAfter, queueAfter, ran, same.succs reached]
      conv => rhs; rw [solveFrom, if_pos within, ← newEntry?_of_same valid same works, found]
      simp only [← states, ← waits]
      exact ih next
  | case4 sol index rest beyond => rw [solveFrom, if_neg beyond]

theorem solve_of_same : solve b (.ofBody b) = solve c (.ofBody c) := by
  have present := Body.blocks_pos valid
  have starts : Solution.start b = Solution.start c := by
    simp only [Solution.start, List.map_const', same.length]
  -- The limits of the two bodies differ with their references, but both are out of reach.
  let limit := max (transferBound b) (transferBound c) + 1
  have left : solveFrom b (.ofBody b) limit (.start b) [0] = solve b (.ofBody b) :=
    solveFrom_eq_solve (.ofBody b) present (by omega)
  have right : solveFrom c (.ofBody c) limit (.start c) [0] = solve c (.ofBody c) :=
    solveFrom_eq_solve (.ofBody c) (same.length ▸ present) (by omega)
  rw [← left, ← right, ← starts]
  exact solveFrom_of_same valid same holders limit _ _ .start

theorem blocks_of_same : (examine b).blocks = (examine c).blocks := by
  have present := Body.blocks_pos valid
  have works := solve_works (.ofBody b) present
  rw [blocks_examine, blocks_examine, ← solve_of_same valid same holders, ← same.length]
  refine List.filterMap_congr fun i _ => ?_
  cases known : Solution.entry? (solve b (.ofBody b)) i with
  | none => rw [Option.map_none, Option.map_none]
  | some entry =>
      have reached := works.reachable present known
      have held := works.held present known
      rw [Option.map_some, Option.map_some, transfer_of_same valid same holders reached held]

end SameWhereReached

/-- Two references to a mutable local are taken one after the other, and control returns; a second
block is there that nothing leads to. -/
def shadowed (dead : Block) : Body where
  params := [.structNamed []]
  locals := [{ type := .unit }, { type := .structNamed [], isMut := true },
    { type := .refTo (.structNamed []) false }, { type := .refTo (.structNamed []) false }]
  blocks := [{ statements := [.assign 2 (.ref 1), .assign 3 (.ref 1)], term := .ret }, dead]

theorem shadowed_reachable {dead : Block} {i : Nat} (reached : (shadowed dead).Reachable i) :
    i = 0 := by
  obtain first | ⟨j, follows, _⟩ := reached.cases_head
  · exact first.symm
  · have ends : (shadowed dead).succs 0 = [] := rfl
    simp [ends] at follows

theorem shadowed_same (dead other : Block) :
    (shadowed dead).SameWhereReached (shadowed other) where
  params := rfl
  result := rfl
  locals := rfl
  lifetimeParams := rfl
  lifetimeBounds := rfl
  length := rfl
  blocks i reached := by
    obtain rfl := shadowed_reachable reached
    rfl

/-- A dead block that reads a holder changes the verdict: the reference it holds then ends where the
holder is dead, and without the read it never ends. -/
theorem shadowed_verdicts_differ :
    (shadowed { term := .ret }).isValid ∧
      (shadowed { statements := [.assign 3 (.use (.copy 2))], term := .ret }).isValid ∧
      (shadowed { term := .ret }).SameWhereReached
        (shadowed { statements := [.assign 3 (.use (.copy 2))], term := .ret }) ∧
      check (shadowed { term := .ret }) = [.located .mutableBorrowConflict 1 ⟨0, 0⟩ ⟨0, 1⟩] ∧
      check (shadowed { statements := [.assign 3 (.use (.copy 2))], term := .ret }) = [] := by
  refine ⟨by decide, by decide, shadowed_same _ _, ?_, ?_⟩
  · cbv
  · cbv

/-- The verdict on a body does not depend on the blocks that control cannot reach, except through
the question which holders of references are read at all. -/
theorem check_of_sameWhereReached {b c : Body} (valid : b.isValid) (same : b.SameWhereReached c)
    (holders : ∀ holder, b.HoldsReference holder →
      (b.ReadsAnywhere holder ↔ c.ReadsAnywhere holder)) : check b = check c := by
  have empty : b.blocks.isEmpty = c.blocks.isEmpty := by
    rw [Bool.eq_iff_iff, List.isEmpty_iff_length_eq_zero, List.isEmpty_iff_length_eq_zero,
      same.length]
  rw [check, check, empty, violations_examine, violations_examine,
    blocks_of_same valid same holders, lifetimeViolations_of_same same]

/-- A dead block that drops the local, takes a reference to it and leads back to the start. -/
def ruins : Block where
  statements := [.drop 1, .drop 1, .assign 3 (.ref 1)]
  term := .goto 0

theorem shadowed_check :
    (shadowed { term := .ret }).isValid ∧
      (shadowed { term := .ret }).SameWhereReached (shadowed ruins) ∧
      (shadowed { term := .ret }).HoldsReference 2 ∧
      check (shadowed { term := .ret }) = check (shadowed ruins) := by
  have valid : (shadowed { term := .ret }).isValid := by decide
  have holds : (shadowed { term := .ret }).HoldsReference 2 :=
    ⟨⟨0, 0⟩, 1, .refl, List.mem_singleton_self _⟩
  refine ⟨valid, shadowed_same _ _, holds,
    check_of_sameWhereReached valid (shadowed_same _ ruins) ?_⟩
  rintro holder ⟨⟨i, k⟩, x, reached, taken⟩
  obtain rfl : i = 0 := shadowed_reachable reached
  obtain ⟨block, found, stands⟩ := Body.statement_of_borrow taken
  obtain rfl := Option.some.inj found
  have either : holder = 2 ∨ holder = 3 := by
    rcases k with _ | _ | k
    · simp_all
    · simp_all
    · simp at stands
  rw [← Body.has_readLocals, ← Body.has_readLocals]
  obtain rfl | rfl := either
  · decide
  · decide

end Ownership

end BorrowChecker
