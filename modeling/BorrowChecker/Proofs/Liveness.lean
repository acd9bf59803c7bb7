import BorrowChecker.Mir.Liveness
import BorrowChecker.Proofs.Flow
import Mathlib.Tactic.Tauto

/-!
Liveness against the flow. A local that a point reads is live before it, and a local that is live
at a point that follows is live before a point that does not overwrite it. So a local stays live
backwards along every path that leaves it alone.
-/

namespace BorrowChecker

namespace Mir

namespace LocalSet

theorem has_iff {s : LocalSet} {x : LocalId} : s.has x ↔ x ∈ s.members := by
  simp [has]

theorem has_insert {s : LocalSet} {id x : LocalId} : (s.insert id).has x ↔ x = id ∨ s.has x := by
  rw [has_iff, has_iff]
  exact mem_place id x s.members

theorem has_insertAll {s : LocalSet} {ids : List LocalId} {x : LocalId} :
    (s.insertAll ids).has x ↔ x ∈ ids ∨ s.has x := by
  unfold insertAll
  induction ids generalizing s with
  | nil => simp
  | cons id rest ih =>
      rw [List.foldl_cons, ih, has_insert, List.mem_cons]
      tauto

theorem has_empty {x : LocalId} : ¬ empty.has x := by
  simp [has, empty]

theorem has_ofList {ids : List LocalId} {x : LocalId} : (ofList ids).has x ↔ x ∈ ids := by
  rw [ofList, has_insertAll]
  simp [has_empty]

theorem has_eraseAll {s : LocalSet} {ids : List LocalId} {x : LocalId} :
    (s.eraseAll ids).has x ↔ s.has x ∧ x ∉ ids := by
  simp [has, eraseAll, filter]

theorem has_union {s t : LocalSet} {x : LocalId} : (s.union t).has x ↔ s.has x ∨ t.has x := by
  rw [union, has_insertAll, ← has_iff]
  tauto

end LocalSet

theorem gather_closed (next : Nat → List Nat) (domain pending : List Nat) :
    (∀ n ∈ pending, n ∈ domain → n ∈ gather next domain pending) ∧
      ∀ n ∈ gather next domain pending, ∀ m ∈ next n, m ∈ domain →
        m ∈ gather next domain pending := by
  fun_induction gather next domain pending with
  | case1 domain pending none =>
      refine ⟨?_, by simp⟩
      intro n waits inside
      have outside := List.find?_eq_none.mp none n waits
      simp [inside] at outside
  | case2 domain pending node found ih =>
      have either : ∀ m ∈ domain, m = node ∨ m ∈ domain.erase node := by
        intro m inside
        by_cases same : m = node
        · exact .inl same
        · exact .inr ((List.mem_erase_of_ne same).mpr inside)
      constructor
      · intro n waits inside
        rcases either n inside with rfl | left
        · exact List.mem_cons_self ..
        · exact List.mem_cons_of_mem _ (ih.1 n (List.mem_append_right _ waits) left)
      · intro n reached m follows inside
        rcases either m inside with rfl | left
        · exact List.mem_cons_self ..
        · rcases List.mem_cons.mp reached with rfl | later
          · exact List.mem_cons_of_mem _ (ih.1 m (List.mem_append_left _ follows) left)
          · exact List.mem_cons_of_mem _ (ih.2 n later m follows left)

theorem Statement.reads_or_assigns {st : Statement} {x : LocalId} (writes : x ∈ st.writes) :
    x ∈ st.reads ∨ ∃ e ∈ st.events, e.assigns x := by
  cases st with
  | assign dst src =>
      obtain rfl : x = dst := List.mem_singleton.mp writes
      exact .inr (src.assigns_dst x)
  | drop id => exact .inl writes
  | nop => simp [Statement.writes] at writes
  | unknown => simp [Statement.writes] at writes

theorem Terminator.assigns_of_writes {t : Terminator} {x : LocalId} (writes : x ∈ t.writes) :
    ∃ e ∈ t.events, e.assigns x := by
  cases t with
  | call func args dst target =>
      refine ⟨.assign x, ?_, by simp [Event.assigns]⟩
      exact List.mem_append_right _ (List.mem_map_of_mem writes)
  | switchInt | assert | ret | missing | goto | unreachable | unknown =>
      simp [Terminator.writes] at writes

namespace Access

theorem has_liveBefore {a : Access} {after : LocalSet} {x : LocalId} :
    (a.liveBefore after).has x ↔ x ∈ a.reads ∨ after.has x ∧ x ∉ a.writes := by
  rw [liveBefore, LocalSet.has_insertAll, LocalSet.has_eraseAll]

theorem liveBeforeAll_cons (after : LocalSet) (a : Access) (rest : List Access) :
    liveBeforeAll after (a :: rest) =
      a.liveBefore ((liveBeforeAll after rest).headD after) :: liveBeforeAll after rest := by
  rw [liveBeforeAll]
  cases liveBeforeAll after rest <;> rfl

theorem liveBeforeAll_getElem? (after : LocalSet) (run : List Access) :
    ∀ k : Nat, (liveBeforeAll after run)[k]? = run[k]?.map fun a =>
      a.liveBefore ((liveBeforeAll after run)[k + 1]?.getD after) := by
  induction run with
  | nil =>
      intro k
      simp [liveBeforeAll]
  | cons a rest ih =>
      intro k
      rw [liveBeforeAll_cons]
      cases k with
      | zero => simp [List.headD_eq_head?_getD, List.head?_eq_getElem?]
      | succ k => simpa using ih k

theorem readsFirst_or_leaves {after : LocalSet} {x : LocalId} (run : List Access)
    (live : ((liveBeforeAll after run).headD after).has x) :
    readsFirst x run ∨ leaves x run ∧ after.has x := by
  induction run with
  | nil => exact .inr ⟨rfl, live⟩
  | cons a rest ih =>
      rw [liveBeforeAll_cons, List.headD_cons, has_liveBefore] at live
      rcases live with reads | ⟨later, kept⟩
      · exact .inl (by simp [readsFirst, reads])
      · rcases ih later with first | ⟨left, ended⟩
        · exact .inl (by simp [readsFirst, first, kept])
        · refine .inr ⟨?_, ended⟩
          simp only [leaves, List.all_cons, Bool.and_eq_true] at left ⊢
          exact ⟨by simpa using kept, left⟩

theorem reads_of_readsFirst {x : LocalId} {run : List Access} (first : readsFirst x run) :
    ∃ a ∈ run, x ∈ a.reads := by
  induction run with
  | nil => simp [readsFirst] at first
  | cons a rest ih =>
      simp only [readsFirst, Bool.or_eq_true, Bool.and_eq_true] at first
      rcases first with here | ⟨_, later⟩
      · exact ⟨a, List.mem_cons_self .., by simpa using here⟩
      · obtain ⟨other, member, reads⟩ := ih later
        exact ⟨other, List.mem_cons_of_mem _ member, reads⟩

end Access

namespace Body

theorem accesses_of_block {b : Body} {i : Nat} {block : Block} (found : b.blocks[i]? = some block) :
    b.accesses i = block.accesses := by
  simp [accesses, found]

theorem has_readLocals {b : Body} {x : LocalId} : b.readLocals.has x ↔ b.ReadsAnywhere x := by
  rw [readLocals, LocalSet.has_ofList]
  simp only [ReadsAnywhere, List.mem_flatMap, Block.accesses, List.mem_append, List.mem_map,
    List.mem_singleton]
  constructor
  · rintro ⟨block, member, _, ⟨st, stands, rfl⟩ | rfl, reads⟩
    · exact ⟨block, member, .inl ⟨st, stands, reads⟩⟩
    · exact ⟨block, member, .inr reads⟩
  · rintro ⟨block, member, ⟨st, stands, reads⟩ | reads⟩
    · exact ⟨block, member, st.access, .inl ⟨st, stands, rfl⟩, reads⟩
    · exact ⟨block, member, block.term.access, .inr rfl, reads⟩

/-- The locals live at the end of a block: those live at the start of the blocks that follow. -/
def liveAfter (b : Body) (atStart : List LocalSet) (i : Nat) : LocalSet :=
  (b.succs i).foldl (fun acc s => acc.union (atStart.getD s .empty)) .empty

theorem has_liveAfter {b : Body} {atStart : List LocalSet} {i : Nat} {x : LocalId} :
    (b.liveAfter atStart i).has x ↔ ∃ j ∈ b.succs i, (atStart.getD j .empty).has x := by
  suffices from_set : ∀ acc : LocalSet, ∀ next : List Nat,
      (next.foldl (fun acc s => acc.union (atStart.getD s .empty)) acc).has x ↔
        acc.has x ∨ ∃ j ∈ next, (atStart.getD j .empty).has x by
    rw [liveAfter, from_set]
    simp [LocalSet.has_empty]
  intro acc next
  induction next generalizing acc with
  | nil => simp
  | cons j rest ih =>
      rw [List.foldl_cons, ih, LocalSet.has_union]
      simp only [List.mem_cons, exists_eq_or_imp]
      tauto

def access? (b : Body) (p : Point) : Option Access := (b.accesses p.block)[p.index]?

theorem access?_statement {b : Body} {i k : Nat} {block : Block} {st : Statement}
    (found : b.blocks[i]? = some block) (stands : block.statements[k]? = some st) :
    b.access? ⟨i, k⟩ = some st.access := by
  have within := (List.getElem?_eq_some_iff.mp stands).1
  rw [access?, accesses_of_block found, Block.accesses, List.getElem?_append_left (by simpa),
    List.getElem?_map, stands, Option.map_some]

theorem access?_terminator {b : Body} {i : Nat} {block : Block}
    (found : b.blocks[i]? = some block) :
    b.access? ⟨i, block.statements.length⟩ = some block.term.access := by
  simp [access?, accesses_of_block found, Block.accesses]

/-- What a point overwrites it assigns, or else drops and so has to read. -/
theorem Next.access? {b : Body} {p q : Point} (next : b.Next p q) :
    ∃ a, b.access? p = some a ∧ ∀ x ∈ a.writes, x ∈ a.reads ∨ b.Assigns p x := by
  unfold Assigns
  cases next with
  | @statement i k block found within =>
      have stands := List.getElem?_eq_getElem within
      rw [events_of_statement found stands]
      exact ⟨_, access?_statement found stands, fun _ => Statement.reads_or_assigns⟩
  | jump found goes =>
      rw [events_of_terminator found]
      exact ⟨_, access?_terminator found, fun _ writes => .inr (Terminator.assigns_of_writes writes)⟩

end Body

namespace Liveness

theorem before_ofBody {b : Body} {i : Nat} (inside : i < b.blocks.length) :
    (ofBody b).before[i]? =
      some (Access.liveBeforeAll (b.liveAfter (ofBody b).atStart i) (b.accesses i)) := by
  simp [ofBody, inside, Body.liveAfter]

theorem atStart_ofBody {b : Body} {i : Nat} {x : LocalId} (inside : i < b.blocks.length)
    (named : x ≠ LocalId.missing) :
    ((ofBody b).atStart.getD i .empty).has x ↔ b.ReadsAnywhere x ∧ i ∈ b.liveBlocks x := by
  have start : (ofBody b).atStart.getD i .empty =
      startOf ((b.readLocals.members.filter (· != LocalId.missing)).map
        fun id => (id, b.liveBlocks id)) i := by
    simp [ofBody, inside]
  rw [start, startOf, LocalSet.has_ofList, ← Body.has_readLocals, LocalSet.has_iff]
  simp only [List.mem_map, List.mem_filter, Prod.exists, List.contains_iff_mem]
  constructor
  · rintro ⟨_, _, ⟨⟨id, ⟨reads, _⟩, same⟩, starts⟩, rfl⟩
    obtain ⟨rfl, rfl⟩ := Prod.mk.inj same
    exact ⟨reads, starts⟩
  · rintro ⟨reads, starts⟩
    exact ⟨x, _, ⟨⟨x, ⟨reads, by simpa using named⟩, rfl⟩, starts⟩, rfl⟩

theorem liveBefore_ofBody {b : Body} {p : Point} {x : LocalId}
    (inside : p.block < b.blocks.length) :
    (ofBody b).liveBefore p.location x ↔
      ∃ set, (Access.liveBeforeAll (b.liveAfter (ofBody b).atStart p.block)
        (b.accesses p.block))[p.index]? = some set ∧ set.has x := by
  have positive : ¬ ((p.block : Int) < 0 ∨ (p.index : Int) < 0) := by omega
  simp only [liveBefore, Point.location, if_neg positive, Int.toNat_natCast, before_ofBody inside]
  split
  · rename_i missing
    simp [missing]
  · rename_i set found
    simp [found]

/-- A point that reads a local or leaves it alone has it live where the rest of its block does. -/
theorem liveBefore_of_access {b : Body} {p : Point} {x : LocalId}
    (inside : p.block < b.blocks.length) {a : Access} (access : b.access? p = some a)
    (live : x ∈ a.reads ∨
      ((Access.liveBeforeAll (b.liveAfter (ofBody b).atStart p.block)
        (b.accesses p.block))[p.index + 1]?.getD (b.liveAfter (ofBody b).atStart p.block)).has x ∧
      x ∉ a.writes) :
    (ofBody b).liveBefore p.location x := by
  rw [liveBefore_ofBody inside]
  refine ⟨_, ?_, Access.has_liveBefore.mpr live⟩
  rw [Access.liveBeforeAll_getElem?]
  rw [Body.access?] at access
  rw [access, Option.map_some]

theorem block_of_access {b : Body} {p : Point} {a : Access} (access : b.access? p = some a) :
    p.block < b.blocks.length := by
  rcases Nat.lt_or_ge p.block b.blocks.length with inside | outside
  · exact inside
  · have missing : b.blocks[p.block]? = none := List.getElem?_eq_none outside
    simp [Body.access?, Body.accesses, missing] at access

/-- What is live before the first point of a block is in the set kept for its start. The search
over blocks finds it: the block reads it first, or leaves it alone before a block found already. -/
theorem atStart_of_live {b : Body} {j : Nat} {x : LocalId} (inside : j < b.blocks.length)
    (named : x ≠ LocalId.missing) (live : (ofBody b).liveBefore (Point.mk j 0).location x) :
    ((ofBody b).atStart.getD j .empty).has x := by
  rw [atStart_ofBody inside named]
  obtain ⟨set, first, member⟩ := (liveBefore_ofBody inside).mp live
  have head : ((Access.liveBeforeAll (b.liveAfter (ofBody b).atStart j)
      (b.accesses j)).headD (b.liveAfter (ofBody b).atStart j)).has x := by
    rw [List.headD_eq_head?_getD, List.head?_eq_getElem?, first]
    exact member
  have inRange : j ∈ List.range b.blocks.length := List.mem_range.mpr inside
  have closed := gather_closed
    (fun i => (b.preds i).filter fun i => Access.leaves x (b.accesses i))
    (List.range b.blocks.length)
    ((List.range b.blocks.length).filter fun i => Access.readsFirst x (b.accesses i))
  rcases Access.readsFirst_or_leaves (b.accesses j) head with reads | ⟨leaves, after⟩
  · refine ⟨?_, closed.1 j (List.mem_filter.mpr ⟨inRange, reads⟩) inRange⟩
    obtain ⟨a, member, readsHere⟩ := Access.reads_of_readsFirst reads
    rw [← Body.has_readLocals, Body.readLocals, LocalSet.has_ofList, List.mem_flatMap]
    have found := List.getElem?_eq_getElem inside
    rw [Body.accesses_of_block found] at member
    exact ⟨_, List.getElem_mem inside, List.mem_flatMap.mpr ⟨a, member, readsHere⟩⟩
  · obtain ⟨k, follows, start⟩ := Body.has_liveAfter.mp after
    obtain ⟨readsSomewhere, starts⟩ :=
      (atStart_ofBody (Body.succs_inside follows) named).mp start
    refine ⟨readsSomewhere, closed.2 k starts j ?_ inRange⟩
    exact List.mem_filter.mpr ⟨Body.mem_preds.mpr follows, leaves⟩

theorem live_of_next {b : Body} (valid : b.isValid) {p q : Point} {x : LocalId}
    (next : b.Next p q) (named : x ≠ LocalId.missing) (kept : ¬ b.Assigns p x)
    (live : (ofBody b).liveBefore q.location x) : (ofBody b).liveBefore p.location x := by
  obtain ⟨a, access, writes⟩ := next.access?
  have inside := block_of_access access
  refine liveBefore_of_access inside access ?_
  by_cases reads : x ∈ a.reads
  · exact .inl reads
  refine .inr ⟨?_, fun written => (writes x written).elim reads kept⟩
  cases next with
  | @statement i k block found within =>
      obtain ⟨set, here, member⟩ := (liveBefore_ofBody (p := ⟨i, k + 1⟩) inside).mp live
      dsimp only at here ⊢
      rw [here]
      exact member
  | @jump i j block found goes =>
      have follows := Body.succs_of_goes valid found goes
      have started := atStart_of_live (Body.succs_inside follows) named live
      have ended : (b.accesses i)[block.statements.length + 1]? = none := by
        rw [Body.accesses_of_block found]
        simp [Block.accesses]
      rw [Access.liveBeforeAll_getElem?, ended]
      exact Body.has_liveAfter.mpr ⟨j, follows, started⟩

end Liveness

/-- The value of a local is still needed at a point: the local is live there, or is read nowhere, so
that nothing says when its value ends. -/
def Body.Needs (b : Body) (p : Point) (x : LocalId) : Prop :=
  (Liveness.ofBody b).liveBefore p.location x ∨ ¬ b.ReadsAnywhere x

theorem Body.Needs.of_next {b : Body} (valid : b.isValid) {p q : Point} {x : LocalId}
    (needs : b.Needs q x) (next : b.Next p q) (named : x ≠ LocalId.missing)
    (kept : ¬ b.Assigns p x) : b.Needs p x := by
  rcases needs with live | unread
  · exact .inl (Liveness.live_of_next valid next named kept live)
  · exact .inr unread

end Mir

end BorrowChecker
