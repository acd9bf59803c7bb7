import BorrowChecker.Proofs.Fixpoint
import BorrowChecker.Proofs.Liveness

/-!
The control flow of a body and what it reaches. The search puts a block on its queue when it marks
it, so no block is put there twice and a queue with one place for every block is long enough. When
the queue is worked off, all that follows a marked block is marked too. This holds of every body,
also of one with flaws.
-/

namespace BorrowChecker

namespace Mir

namespace Search

variable {blocks : Nat} {s t : Search blocks}

structure Tidy (s : Search blocks) : Prop where
  marked : ∀ i, s.seen[i]? = some true ↔ i ∈ s.queue
  nodup : s.queue.Nodup
  inside : ∀ i ∈ s.queue, i < blocks

theorem tidy_empty : (empty : Search blocks).Tidy where
  marked i := by simp [empty, Vector.getElem?_replicate]
  nodup := List.nodup_nil
  inside i member := absurd member List.not_mem_nil

/-- There is a place on the queue for a block that is not on it. -/
theorem Tidy.room (tidy : s.Tidy) {i : Nat} (inside : i < blocks) (fresh : i ∉ s.queue) :
    s.queue.length < blocks := by
  have distinct : (i :: s.queue).Nodup := List.nodup_cons.mpr ⟨fresh, tidy.nodup⟩
  have within : i :: s.queue ⊆ List.range blocks := by
    intro j member
    rcases List.mem_cons.mp member with rfl | waits
    · exact List.mem_range.mpr inside
    · exact List.mem_range.mpr (tidy.inside j waits)
  calc s.queue.length < (i :: s.queue).length := Nat.lt_succ_self _
    _ ≤ (List.range blocks).length := (distinct.subperm within).length_le
    _ = blocks := List.length_range

theorem Tidy.put (tidy : s.Tidy) {i : Nat} (inside : i < blocks) (fresh : i ∉ s.queue) :
    ∃ t, s.put i = some t ∧ t.queue = s.queue ++ [i] ∧ t.Tidy := by
  have room : i < blocks ∧ s.queue.length < blocks := ⟨inside, tidy.room inside fresh⟩
  refine ⟨_, dif_pos room, rfl, ?_, ?_, ?_⟩
  · intro j
    rw [Vector.getElem?_set, List.mem_append, List.mem_singleton, ← tidy.marked j]
    by_cases same : i = j
    · simp [same]
    · simp [same, Ne.symm same]
  · simpa using tidy.nodup.concat fresh
  · intro j member
    rcases List.mem_append.mp member with old | new
    · exact tidy.inside j old
    · exact List.mem_singleton.mp new ▸ inside

/-- What visits of some blocks make of a search: the queue grows at its end, by no others than them,
and they are all on it. -/
structure Visited (s : Search blocks) (indices : List Nat) (t : Search blocks) : Prop where
  tidy : t.Tidy
  grows : s.queue <+: t.queue
  complete : ∀ i ∈ indices, i ∈ t.queue
  sound : ∀ i ∈ t.queue, i ∈ s.queue ∨ i ∈ indices

theorem Tidy.visit (tidy : s.Tidy) {i : Nat} (inside : i < blocks) :
    ∃ t, s.visit i = some t ∧ s.Visited [i] t := by
  by_cases old : i ∈ s.queue
  · refine ⟨s, if_pos ((tidy.marked i).mpr old), tidy, List.prefix_rfl, ?_, fun _ => .inl⟩
    intro j member
    exact List.mem_singleton.mp member ▸ old
  · obtain ⟨t, put, queue, tidied⟩ := tidy.put inside old
    refine ⟨t, (if_neg fun seen => old ((tidy.marked i).mp seen)).trans put, tidied, ?_, ?_, ?_⟩
    · exact queue ▸ List.prefix_append ..
    · intro j member
      exact queue ▸ List.mem_append_right _ member
    · intro j member
      exact List.mem_append.mp (queue ▸ member)

theorem Tidy.visitAll (tidy : s.Tidy) {indices : List Nat} (inside : ∀ i ∈ indices, i < blocks) :
    ∃ t, indices.foldlM Search.visit s = some t ∧ s.Visited indices t := by
  induction indices generalizing s with
  | nil => exact ⟨s, rfl, tidy, List.prefix_rfl, by simp, fun _ => .inl⟩
  | cons i rest ih =>
      obtain ⟨t, visit, first⟩ := tidy.visit (inside i (List.mem_cons_self ..))
      obtain ⟨u, visits, later⟩ :=
        ih first.tidy fun j member => inside j (List.mem_cons_of_mem i member)
      refine ⟨u, by simp [List.foldlM_cons, visit, visits], later.tidy,
        first.grows.trans later.grows, ?_, ?_⟩
      · intro j member
        rcases List.mem_cons.mp member with rfl | more
        · exact later.grows.subset (first.complete j (List.mem_singleton_self j))
        · exact later.complete j more
      · intro j member
        rcases later.sound j member with old | more
        · exact (first.sound j old).imp_right fun only =>
            List.mem_cons.mpr (.inl (List.mem_singleton.mp only))
        · exact .inr (List.mem_cons_of_mem i more)

/-- What holds while the queue is worked off: its blocks are reached from a source, and what follows
those before the position is on it. -/
structure Works (next : Nat → List Nat) (source position : Nat) (s : Search blocks) : Prop where
  tidy : s.Tidy
  starts : source ∈ s.queue
  reached : ∀ i ∈ s.queue, Relation.ReflTransGen (fun j k => k ∈ next j) source i
  followed : ∀ i ∈ s.queue.take position, ∀ j ∈ next i, j ∈ s.queue

variable {next : Nat → List Nat} {source position : Nat}

/-- One round of the search: what follows the block at the position is visited. -/
theorem Works.round (works : s.Works next source position) {i : Nat}
    (taken : s.queue[position]? = some i) (visited : s.Visited (next i) t) :
    t.Works next source (position + 1) where
  tidy := visited.tidy
  starts := visited.grows.subset works.starts
  reached j member := by
    rcases visited.sound j member with old | new
    · exact works.reached j old
    · exact (works.reached i (List.mem_of_getElem? taken)).tail new
  followed j member := by
    obtain ⟨more, grown⟩ := visited.grows
    have inside := (List.getElem?_eq_some_iff.mp taken).1
    rw [← grown, List.take_append_of_le_length (by omega), List.take_add_one, taken,
      List.mem_append] at member
    rcases member with earlier | last
    · exact fun k follows => visited.grows.subset (works.followed j earlier k follows)
    · obtain rfl : j = i := by simpa using last
      exact visited.complete

/-- The queue is worked off without running out of places. -/
theorem Works.run (bounded : ∀ i, ∀ j ∈ next i, j < blocks)
    (works : s.Works next source position) :
    ∃ t, Search.run next position s = some t ∧ t.Works next source t.queue.length := by
  fun_induction Search.run next position s with
  | case1 position s done =>
      have short := List.getElem?_eq_none_iff.mp done
      refine ⟨s, rfl, works.tidy, works.starts, works.reached, fun i member => ?_⟩
      rw [List.take_length] at member
      exact works.followed i (by rwa [List.take_of_length_le short])
  | case2 position s i taken ih =>
      obtain ⟨t, visits, visited⟩ := works.tidy.visitAll (bounded i)
      obtain ⟨u, ran, ended⟩ := ih t (works.round taken visited)
      exact ⟨u, by rw [visits, Option.bind_some, ran], ended⟩

/-- When all is worked off, the queue holds what is reached. -/
theorem Works.mem_queue_iff (works : s.Works next source s.queue.length) {i : Nat} :
    i ∈ s.queue ↔ Relation.ReflTransGen (fun j k => k ∈ next j) source i := by
  refine ⟨works.reached i, fun reached => ?_⟩
  induction reached with
  | refl => exact works.starts
  | tail _ follows ih => exact works.followed _ (by rwa [List.take_length]) _ follows

end Search

namespace Body

variable {b : Body}

/-- The search of a body comes to an end, with the blocks on its queue that control reaches. -/
theorem search?_spec (b : Body) : ∃ s, b.search? = some s ∧ s.Tidy ∧
    ∀ i, i ∈ s.queue ↔ i < b.blocks.length ∧ b.Reachable i := by
  by_cases empty : b.blocks = []
  · refine ⟨.empty, if_pos (by simp [empty]), Search.tidy_empty, fun i => ?_⟩
    simp [Search.empty, empty]
  · have present : 0 < b.blocks.length := List.length_pos_iff.mpr empty
    obtain ⟨s, put, queue, tidy⟩ := Search.tidy_empty.put present List.not_mem_nil
    have alone : s.queue = [0] := queue
    have starts : s.Works b.succs 0 0 :=
      ⟨tidy, by simp [alone], by simp [alone, Relation.ReflTransGen.refl], by simp⟩
    obtain ⟨t, ran, ended⟩ := starts.run fun _ _ => succs_inside
    refine ⟨t, ?_, ended.tidy, fun i => ?_⟩
    · rw [search?, if_neg (by simpa using empty), put, Option.bind_some, ran]
    · rw [Reachable, ← ended.mem_queue_iff, iff_and_self]
      exact ended.tidy.inside i

end Body

end Mir

end BorrowChecker
