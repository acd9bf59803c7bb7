import BorrowChecker.Proofs.Flow
import BorrowChecker.Proofs.Site
import Mathlib.Algebra.Order.BigOperators.Group.Finset

/-!
The run of the queue. Its configurations are generated step by step, and three things hold of all
of them: whatever blocks and joins preserve holds of every state at the start of a block; what flows
into a block that does not wait is below the state at its start; and the number of transfers is at
most the sum of the heights reached. The last keeps the limit out of reach, so that the queue runs
empty and the second holds of every block.
-/

namespace BorrowChecker

namespace Ownership

open Mir

inductive Works (b : Body) (live : Liveness) : Solution → List Nat → Prop
  | start : Works b live (.start b) [0]
  | skip {sol : Solution} {i : Nat} {rest : List Nat} : Works b live sol (i :: rest) →
      newEntry? b sol i = none → Works b live sol rest
  | run {sol : Solution} {i : Nat} {rest : List Nat} {entry : State} :
      Works b live sol (i :: rest) → newEntry? b sol i = some entry →
      Works b live (sol.run b live i entry) (queueAfter b live sol i entry rest)

theorem solveFrom_works (b : Body) (live : Liveness) (limit : Nat) (sol : Solution)
    (queue : List Nat) (works : Works b live sol queue) :
    ∃ left, Works b live (solveFrom b live limit sol queue) left ∧
      (left = [] ∨ limit ≤ (solveFrom b live limit sol queue).transfers) := by
  fun_induction solveFrom b live limit sol queue with
  | case1 sol => exact ⟨[], works, .inl rfl⟩
  | case2 sol index rest within unchanged ih => exact ih (.skip works unchanged)
  | case3 sol index rest within entry found ih => exact ih (.run works found)
  | case4 sol index rest beyond => exact ⟨_, works, .inr (Nat.le_of_not_lt beyond)⟩

theorem mem_enqueue {queue blocks : List Nat} {i : Nat} :
    i ∈ enqueue queue blocks ↔ i ∈ queue ∨ i ∈ blocks := by
  unfold enqueue
  induction blocks generalizing queue with
  | nil => simp
  | cons j rest ih =>
      rw [List.foldl_cons, ih, List.mem_cons]
      split
      · rename_i waits
        have waiting : j ∈ queue := by simpa using waits
        constructor
        · rintro (old | later)
          · exact .inl old
          · exact .inr (.inr later)
        · rintro (old | rfl | later)
          · exact .inl old
          · exact .inl waiting
          · exact .inr later
      · simp only [List.mem_append, List.mem_singleton]
        tauto

theorem mem_queueAfter {b : Body} {live : Liveness} {sol : Solution} {i j : Nat} {entry : State}
    {queue : List Nat} (waits : j ∈ queue) : j ∈ queueAfter b live sol i entry queue := by
  unfold queueAfter
  split
  · exact waits
  · exact mem_enqueue.mpr (.inl waits)

namespace Solution

theorem entry?_start (b : Body) (i : Nat) : Solution.entry? (start b) i = none := by
  simp only [ entry?, start, List.getD_eq_getElem?_getD, List.getElem?_map]
  cases b.blocks[i]? <;> rfl

theorem exit?_start (b : Body) (i : Nat) : Solution.exit? (start b) i = none := by
  simp only [ exit?, start, List.getD_eq_getElem?_getD, List.getElem?_map]
  cases b.blocks[i]? <;> rfl

theorem getD_set {states : List (Option State)} {i : Nat} (inside : i < states.length) (s : State)
    (j : Nat) : (states.set i (some s)).getD j none = if j = i then some s else states.getD j none := by
  by_cases same : j = i
  · subst same
    simp [inside]
  · simp [same, List.getElem?_set_ne (Ne.symm same)]

theorem entry?_run (b : Body) (live : Liveness) {sol : Solution} {i : Nat} (entry : State)
    (inside : i < sol.entries.length) (j : Nat) :
    Solution.entry? (sol.run b live i entry) j = if j = i then some entry else sol.entry? j :=
  getD_set inside entry j

theorem exit?_run (b : Body) (live : Liveness) {sol : Solution} {i : Nat} (entry : State)
    (inside : i < sol.exits.length) (j : Nat) :
    Solution.exit? (sol.run b live i entry) j =
      if j = i then some (transfer b live i entry).state else sol.exit? j :=
  getD_set inside (transfer b live i entry).state j

end Solution

section Configurations

variable {b : Body} {live : Liveness} {sol : Solution} {queue : List Nat}

theorem Works.sizes (works : Works b live sol queue) :
    sol.entries.length = b.blocks.length ∧ sol.exits.length = b.blocks.length := by
  induction works with
  | start => simp [Solution.start]
  | skip _ _ ih => exact ih
  | run _ _ ih => simpa [Solution.run] using ih

/-- What holds of the first block, and of the blocks after one it holds of, holds of all that wait. -/
theorem Works.waits {holds : Nat → Prop} (works : Works b live sol queue) (first : holds 0)
    (step : ∀ i j, holds i → j ∈ b.succs i → holds j) : ∀ i ∈ queue, holds i := by
  induction works with
  | start => simpa using first
  | skip _ _ ih => exact fun i waits => ih i (List.mem_cons_of_mem _ waits)
  | @run sol j rest entry _ _ ih =>
      intro i waits
      unfold queueAfter at waits
      split at waits
      · exact ih i (List.mem_cons_of_mem _ waits)
      · rcases mem_enqueue.mp waits with old | follows
        · exact ih i (List.mem_cons_of_mem _ old)
        · exact step j i (ih j (List.mem_cons_self ..)) follows

theorem Works.inside (works : Works b live sol queue) (present : 0 < b.blocks.length) :
    ∀ i ∈ queue, i < b.blocks.length :=
  works.waits present fun _ _ _ follows => Body.succs_inside follows

theorem Works.exit?_eq (works : Works b live sol queue) (present : 0 < b.blocks.length) (i : Nat) :
    sol.exit? i = (sol.entry? i).map fun s => (transfer b live i s).state := by
  induction works with
  | start => rw [Solution.exit?_start, Solution.entry?_start, Option.map_none]
  | skip _ _ ih => exact ih
  | @run sol j rest entry works found ih =>
      have inside := works.inside present j (List.mem_cons_self ..)
      rw [Solution.exit?_run b live entry (works.sizes.2 ▸ inside),
        Solution.entry?_run b live entry (works.sizes.1 ▸ inside)]
      split
      · rename_i same
        subst same
        rfl
      · exact ih

/-- What flows into a block: the ends of blocks that it follows, and for the first one the initial
state. -/
def Feeds (b : Body) (sol : Solution) (i : Nat) (s : State) : Prop :=
  i = 0 ∧ s = State.initial b ∨ ∃ k, i ∈ b.succs k ∧ sol.exit? k = some s

theorem foldl_join_induction {Holds : State → Prop}
    (join : ∀ s t, Holds s → Holds t → Holds (s.join t)) (flows : List State) :
    ∀ known : Option State, (∀ s, known = some s → Holds s) → (∀ s ∈ flows, Holds s) →
      ∀ s, flows.foldl (fun acc s => some (joinOnto acc s)) known = some s → Holds s := by
  induction flows with
  | nil =>
      intro known start _ s result
      exact start s result
  | cons next rest ih =>
      intro known start each s result
      refine ih (some (joinOnto known next)) ?_ (fun t later => each t (List.mem_cons_of_mem _ later))
        s result
      intro t same
      obtain rfl := Option.some.inj same
      have new := each next (List.mem_cons_self ..)
      cases known with
      | none => exact new
      | some k => exact join k next (start k rfl) new

theorem length_joinOnto {n : Nat} {known : Option State} {s : State}
    (start : ∀ k, known = some k → k.length = n) (length : s.length = n) :
    (joinOnto known s).length = n := by
  cases known with
  | none => exact length
  | some k =>
      have sameLength : k.length = s.length := by rw [start k rfl, length]
      exact (State.length_join sameLength).trans (start k rfl)

theorem below_joinOnto {n : Nat} {known : Option State} {s : State}
    (start : ∀ k, known = some k → k.length = n) (length : s.length = n) :
    s.Below (joinOnto known s) := by
  cases known with
  | none => exact State.Below.refl s
  | some k =>
      refine State.below_join_right ?_
      rw [start k rfl, length]

theorem foldl_join_above {n : Nat} (flows : List State) :
    ∀ known : Option State, (∀ s, known = some s → s.length = n) → (∀ s ∈ flows, s.length = n) →
      ∀ s, known = some s ∨ s ∈ flows →
        ∃ t, flows.foldl (fun acc s => some (joinOnto acc s)) known = some t ∧ s.Below t := by
  induction flows with
  | nil =>
      intro known _ _ s source
      rcases source with start | impossible
      · exact ⟨s, start, State.Below.refl s⟩
      · simp at impossible
  | cons next rest ih =>
      intro known start each s source
      have nextLength := each next (List.mem_cons_self ..)
      have full := length_joinOnto start nextLength
      have later := ih (some (joinOnto known next))
        (by rintro t ⟨⟩; exact full) (fun t later => each t (List.mem_cons_of_mem _ later))
      have above : ∀ t : State, t.Below (joinOnto known next) →
          ∃ u, rest.foldl (fun acc s => some (joinOnto acc s)) (some (joinOnto known next)) =
            some u ∧ t.Below u := by
        intro t below
        obtain ⟨u, result, higher⟩ := later _ (.inl rfl)
        exact ⟨u, result, below.trans higher⟩
      rcases source with old | member
      · subst old
        refine above s (State.below_join_left ?_)
        rw [start s rfl, nextLength]
      · rcases List.mem_cons.mp member with rfl | inRest
        · exact above s (below_joinOnto start nextLength)
        · exact later s (.inr inRest)

theorem feeds_iff {i : Nat} {s : State} :
    Feeds b sol i s ↔ (if i = 0 then some (State.initial b) else none) = some s ∨
      s ∈ (b.preds i).filterMap sol.exit? := by
  simp only [Feeds, List.mem_filterMap, Body.mem_preds]
  refine or_congr ?_ Iff.rfl
  split
  · rename_i first
    simp [first, eq_comm]
  · rename_i later
    simp [later]

theorem inflow_induction {Holds : State → Prop} {i : Nat}
    (join : ∀ s t, Holds s → Holds t → Holds (s.join t))
    (feeds : ∀ s, Feeds b sol i s → Holds s) {s : State} (flows : inflow b sol i = some s) :
    Holds s :=
  foldl_join_induction join _ _ (fun t start => feeds t (feeds_iff.mpr (.inl start)))
    (fun t member => feeds t (feeds_iff.mpr (.inr member))) s flows

theorem newEntry?_eq_some {i : Nat} {entry : State} (found : newEntry? b sol i = some entry) :
    ∃ s, inflow b sol i = some s ∧ (sol.entry? i = none ∧ entry = s ∨
      ∃ old, sol.entry? i = some old ∧ entry = old.join s ∧ entry ≠ old) := by
  unfold newEntry? at found
  split at found
  · simp at found
  · rename_i s flows
    refine ⟨s, flows, ?_⟩
    split at found
    · rename_i unknown
      exact .inl ⟨unknown, (Option.some.inj found).symm⟩
    · rename_i old known
      split at found
      · simp at found
      · rename_i grows
        obtain rfl := Option.some.inj found
        exact .inr ⟨old, known, rfl, grows⟩

theorem newEntry?_eq_none {i : Nat} (unchanged : newEntry? b sol i = none) {s : State}
    (flows : inflow b sol i = some s) : ∃ old, sol.entry? i = some old ∧ old.join s = old := by
  unfold newEntry? at unchanged
  rw [flows] at unchanged
  simp only at unchanged
  split at unchanged
  · simp at unchanged
  · rename_i old known
    split at unchanged
    · rename_i same
      exact ⟨old, known, same⟩
    · simp at unchanged

theorem Works.entry_induction (works : Works b live sol queue) (Holds : Nat → State → Prop)
    (present : 0 < b.blocks.length) (initial : Holds 0 (State.initial b))
    (join : ∀ i s t, Holds i s → Holds i t → Holds i (s.join t))
    (flow : ∀ i j s, Holds i s → j ∈ b.succs i → Holds j (transfer b live i s).state) :
    ∀ i s, sol.entry? i = some s → Holds i s := by
  induction works with
  | start =>
      intro i s known
      simp [Solution.entry?_start] at known
  | skip _ _ ih => exact ih
  | @run sol j rest entry works found ih =>
      intro i s known
      have inside := works.inside present j (List.mem_cons_self ..)
      rw [Solution.entry?_run b live entry (works.sizes.1 ▸ inside)] at known
      split at known
      · rename_i same
        subst same
        obtain rfl := Option.some.inj known
        have feeds : ∀ t, Feeds b sol i t → Holds i t := by
          rintro t (⟨rfl, rfl⟩ | ⟨k, follows, ended⟩)
          · exact initial
          · rw [works.exit?_eq present, Option.map_eq_some_iff] at ended
            obtain ⟨u, started, rfl⟩ := ended
            exact flow k i u (ih k u started) follows
        obtain ⟨t, flows, ⟨_, rfl⟩ | ⟨old, before, rfl, _⟩⟩ := newEntry?_eq_some found
        · exact inflow_induction (join i) feeds flows
        · exact join i old t (ih i old before) (inflow_induction (join i) feeds flows)
      · exact ih i s known

theorem stateAt_induction (Holds : Point → State → Prop)
    (step : ∀ p q s, Holds p s → b.Next p q → Holds q (execute b live p s).state) {i : Nat}
    {block : Block} (found : b.blocks[i]? = some block) {start : State}
    (holds : Holds ⟨i, 0⟩ start) :
    ∀ k ≤ block.statements.length, Holds ⟨i, k⟩ (stateAt b live i start k) := by
  intro k
  induction k with
  | zero => exact fun _ => holds
  | succ k ih =>
      intro within
      exact step ⟨i, k⟩ ⟨i, k + 1⟩ _ (ih (by omega)) (.statement found (by omega))

theorem transfer_induction (Holds : Point → State → Prop)
    (step : ∀ p q s, Holds p s → b.Next p q → Holds q (execute b live p s).state) {i j : Nat}
    {s : State} (holds : Holds ⟨i, 0⟩ s) (follows : j ∈ b.succs i) :
    Holds ⟨j, 0⟩ (transfer b live i s).state := by
  obtain ⟨block, found, goes, _⟩ := Body.mem_succs.mp follows
  rw [transfer_eq_execute b live found]
  exact step _ _ _ (stateAt_induction Holds step found holds _ (Nat.le_refl _)) (.jump found goes)

theorem Proper.stateAt {s : State} (proper : Proper b s) (i k : Nat) :
    Proper b (stateAt b live i s k) := by
  induction k with
  | zero => exact proper
  | succ k ih => exact ih.execute live ⟨i, k⟩

theorem Proper.transfer {s : State} (proper : Proper b s) (i : Nat) :
    Proper b (transfer b live i s).state := by
  cases found : b.blocks[i]? with
  | none =>
      rw [Ownership.transfer, found]
      exact proper
  | some block =>
      rw [transfer_eq_execute b live found]
      exact proper.stateAt i _

theorem Works.proper (works : Works b live sol queue) (present : 0 < b.blocks.length) {i : Nat}
    {s : State} (known : sol.entry? i = some s) : Proper b s :=
  works.entry_induction (fun _ s => Proper b s) present (proper_initial b)
    (fun _ _ _ left right => left.join right) (fun i _ _ proper _ => proper.transfer i)
    i s known

theorem Works.proper_feeds (works : Works b live sol queue) (present : 0 < b.blocks.length)
    {i : Nat} {s : State} (feeds : Feeds b sol i s) : Proper b s := by
  rcases feeds with ⟨_, rfl⟩ | ⟨k, follows, ended⟩
  · exact proper_initial b
  · rw [works.exit?_eq present, Option.map_eq_some_iff] at ended
    obtain ⟨t, started, rfl⟩ := ended
    exact (works.proper present started).transfer k

theorem Works.below_inflow (works : Works b live sol queue) (present : 0 < b.blocks.length)
    {i : Nat} {s : State} (feeds : Feeds b sol i s) :
    ∃ t, inflow b sol i = some t ∧ s.Below t ∧
      ∀ old, sol.entry? i = some old → t.Below (old.join t) := by
  have proper : ∀ t, Feeds b sol i t → Proper b t := fun t => works.proper_feeds present
  obtain ⟨t, flows, below⟩ := foldl_join_above _ _
    (fun t start => (proper t (feeds_iff.mpr (.inl start))).full)
    (fun t member => (proper t (feeds_iff.mpr (.inr member))).full) s (feeds_iff.mp feeds)
  refine ⟨t, flows, below, ?_⟩
  intro old known
  have whole : Proper b t := inflow_induction (fun _ _ left right => left.join right) proper flows
  exact State.below_join_right (by rw [(works.proper present known).full, whole.full])

theorem Works.below_of_skip (works : Works b live sol queue) (present : 0 < b.blocks.length)
    {i : Nat} (unchanged : newEntry? b sol i = none) {s : State} (feeds : Feeds b sol i s) :
    ∃ t, sol.entry? i = some t ∧ s.Below t := by
  obtain ⟨t, flows, below, higher⟩ := works.below_inflow present feeds
  obtain ⟨old, known, same⟩ := newEntry?_eq_none unchanged flows
  have above := higher old known
  rw [same] at above
  exact ⟨old, known, below.trans above⟩

theorem Works.below_of_run (works : Works b live sol queue) (present : 0 < b.blocks.length)
    {i : Nat} {entry : State} (found : newEntry? b sol i = some entry) {s : State}
    (feeds : Feeds b sol i s) : s.Below entry := by
  obtain ⟨t, flows, below, higher⟩ := works.below_inflow present feeds
  obtain ⟨u, sameFlow, cases⟩ := newEntry?_eq_some found
  rw [flows, Option.some.injEq] at sameFlow
  subst sameFlow
  rcases cases with ⟨_, rfl⟩ | ⟨old, known, rfl, _⟩
  · exact below
  · exact below.trans (higher old known)

/-- Every block waits, or its start is above all that flows into it. -/
theorem Works.settled (works : Works b live sol queue) (present : 0 < b.blocks.length) :
    ∀ j s, Feeds b sol j s → j ∈ queue ∨ ∃ t, sol.entry? j = some t ∧ s.Below t := by
  induction works with
  | start =>
      rintro j s (⟨rfl, _⟩ | ⟨k, _, ended⟩)
      · exact .inl (List.mem_singleton.mpr rfl)
      · simp [Solution.exit?_start] at ended
  | skip works unchanged ih =>
      intro j s feeds
      rcases ih j s feeds with waits | above
      · rcases List.mem_cons.mp waits with rfl | later
        · exact .inr (works.below_of_skip present unchanged feeds)
        · exact .inl later
      · exact .inr above
  | @run sol i rest entry works found ih =>
      intro j s feeds
      have inside := works.inside present i (List.mem_cons_self ..)
      -- What flowed in before the run is still accounted for after it.
      have carried : Feeds b sol j s → j ∈ queueAfter b live sol i entry rest ∨
          ∃ t, Solution.entry? (sol.run b live i entry) j = some t ∧ s.Below t := by
        intro old
        rw [Solution.entry?_run b live entry (works.sizes.1 ▸ inside)]
        by_cases here : j = i
        · subst here
          exact .inr ⟨entry, by simp, works.below_of_run present found old⟩
        · rw [if_neg here]
          rcases ih j s old with waits | above
          · exact .inl (mem_queueAfter ((List.mem_cons.mp waits).resolve_left here))
          · exact .inr above
      rcases feeds with start | ⟨k, follows, ended⟩
      · exact carried (.inl start)
      · rw [Solution.exit?_run b live entry (works.sizes.2 ▸ inside)] at ended
        split at ended
        · rename_i same
          subst same
          obtain rfl := Option.some.inj ended
          by_cases unchanged : sol.exit? k = some (transfer b live k entry).state
          · exact carried (.inr ⟨k, follows, unchanged⟩)
          · refine .inl ?_
            rw [queueAfter, if_neg unchanged]
            exact mem_enqueue.mpr (.inr follows)
        · exact carried (.inr ⟨k, follows, ended⟩)

def weight : Option State → Nat
  | none => 0
  | some s => s.height + 1

def potential (b : Body) (sol : Solution) : Nat :=
  ∑ i ∈ Finset.range b.blocks.length, weight (sol.entry? i)

theorem Works.weight_lt (works : Works b live sol queue) (present : 0 < b.blocks.length) {i : Nat}
    {entry : State} (found : newEntry? b sol i = some entry) :
    weight (sol.entry? i) < weight (some entry) := by
  obtain ⟨s, flows, ⟨unknown, rfl⟩ | ⟨old, known, rfl, grows⟩⟩ := newEntry?_eq_some found
  · rw [unknown]
    exact Nat.succ_pos _
  · have whole : Proper b s := inflow_induction (fun _ _ left right => left.join right)
      (fun t => works.proper_feeds present) flows
    have before := works.proper present known
    have sameLength : old.length = s.length := by rw [before.full, whole.full]
    have ordered : ∀ slot ∈ old, Borrow.Ordered slot.borrows := by
      intro slot member
      obtain ⟨x, rfl⟩ := State.exists_slot_of_mem member
      exact before.ordered x
    rw [known]
    exact Nat.succ_lt_succ ((State.join_eq_or_higher sameLength ordered).resolve_left grows)

theorem Works.transfers_le_potential (works : Works b live sol queue)
    (present : 0 < b.blocks.length) : sol.transfers ≤ potential b sol := by
  induction works with
  | start => exact Nat.zero_le _
  | skip _ _ ih => exact ih
  | @run sol i rest entry works found ih =>
      have inside := works.inside present i (List.mem_cons_self ..)
      have raised := works.weight_lt present found
      have entries := Solution.entry?_run b live entry (works.sizes.1 ▸ inside)
      refine Nat.lt_of_le_of_lt ih ?_
      refine Finset.sum_lt_sum ?_ ⟨i, Finset.mem_range.mpr inside, ?_⟩
      · intro j _
        rw [entries]
        split
        · rename_i same
          subst same
          exact Nat.le_of_lt raised
        · exact Nat.le_refl _
      · rw [entries, if_pos rfl]
        exact raised

/-- The most transfers that a run over a body can take: no start of a block rises further than its
locals and the references of the body allow. -/
def transferBound (b : Body) : Nat :=
  b.blocks.length * (3 * b.locals.length + transferLimit.borrowSites b + 1)

theorem Works.transfers_le (works : Works b live sol queue) (present : 0 < b.blocks.length) :
    sol.transfers ≤ transferBound b := by
  refine Nat.le_trans (works.transfers_le_potential present) ?_
  have each := Finset.sum_le_card_nsmul (Finset.range b.blocks.length)
    (fun i => weight (sol.entry? i)) (3 * b.locals.length + transferLimit.borrowSites b + 1) (by
      intro i _
      cases known : sol.entry? i with
      | none => exact Nat.zero_le _
      | some s => exact Nat.succ_le_succ (works.proper present known).height_le)
  simpa [potential, transferBound] using each

theorem transferBound_lt_limit (present : 0 < b.blocks.length) :
    transferBound b < transferLimit b :=
  Nat.mul_lt_mul_of_pos_left (Nat.lt_succ_self _) present

end Configurations

/-- The limit is never reached: the queue is worked off. -/
theorem solve_works {b : Body} (live : Liveness) (present : 0 < b.blocks.length) :
    Works b live (solve b live) [] := by
  obtain ⟨left, works, empty | reached⟩ :=
    solveFrom_works b live (transferLimit b) (.start b) [0] .start
  · exact empty ▸ works
  · have few := works.transfers_le present
    have room := transferBound_lt_limit present
    omega

end Ownership

end BorrowChecker
