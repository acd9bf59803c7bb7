import BorrowChecker.Proofs.Point

/-!
What a body without flaws promises, and how the blocks that follow a block appear among the points.
-/

namespace BorrowChecker

namespace Mir

namespace Body

theorem flaws_parts {b : Body} (valid : b.isValid) :
    b.blocks ≠ [] ∧ (b.blocks.mapIdx b.targetFlaws).flatten = [] ∧
      (b.blocks.mapIdx b.localFlaws).flatten = [] := by
  simp only [isValid, flaws, List.isEmpty_iff, List.append_eq_nil_iff] at valid
  obtain ⟨⟨⟨⟨present, _⟩, _⟩, targets⟩, locals⟩ := valid
  refine ⟨?_, targets, locals⟩
  intro empty
  simp [empty] at present

theorem blocks_pos {b : Body} (valid : b.isValid) : 0 < b.blocks.length :=
  List.length_pos_iff.mpr (flaws_parts valid).1

theorem mapIdx_flatten_nil {α β : Type} {f : Nat → α → List β} {l : List α} {i : Nat} {x : α}
    (empty : (l.mapIdx f).flatten = []) (found : l[i]? = some x) : f i x = [] := by
  rw [List.flatten_eq_nil_iff] at empty
  apply empty
  rw [List.mem_iff_getElem?]
  exact ⟨i, by simp [List.getElem?_mapIdx, found]⟩

theorem target_inside {b : Body} (valid : b.isValid) {i : Nat} {block : Block}
    (found : b.blocks[i]? = some block) {target : BlockId} (goes : target ∈ block.term.successors) :
    b.hasBlock target := by
  have none := mapIdx_flatten_nil (flaws_parts valid).2.1 found
  rw [targetFlaws, List.append_eq_nil_iff, List.map_eq_nil_iff, List.filter_eq_nil_iff] at none
  simpa using none.1 target goes

theorem localFlaw?_none {b : Body} {spot : Spot} {id : LocalId}
    (fine : b.localFlaw? spot id = none) : b.hasLocal id := by
  unfold localFlaw? at fine
  split at fine
  · simp at fine
  · split at fine
    · assumption
    · simp at fine

theorem statement_local {b : Body} (valid : b.isValid) {i k : Nat} {block : Block}
    (found : b.blocks[i]? = some block) {s : Statement} (stands : block.statements[k]? = some s)
    {id : LocalId} (named : id ∈ s.reads ++ s.writes) : b.hasLocal id := by
  have none := mapIdx_flatten_nil (flaws_parts valid).2.2 found
  rw [localFlaws, List.append_eq_nil_iff] at none
  have clean := mapIdx_flatten_nil none.1 stands
  rw [statementFlaws, List.filterMap_eq_nil_iff] at clean
  exact localFlaw?_none (clean id named)

theorem terminator_local {b : Body} (valid : b.isValid) {i : Nat} {block : Block}
    (found : b.blocks[i]? = some block) {id : LocalId}
    (named : id ∈ block.term.reads ++ block.term.writes) : b.hasLocal id := by
  have none := mapIdx_flatten_nil (flaws_parts valid).2.2 found
  rw [localFlaws, List.append_eq_nil_iff] at none
  have clean := none.2
  rw [terminatorFlaws, List.filterMap_eq_nil_iff] at clean
  exact localFlaw?_none (clean id named)

theorem borrow_locals {b : Body} (valid : b.isValid) {p : Point} {x holder : LocalId}
    (lends : .borrow x holder ∈ b.events p) : b.hasLocal x ∧ b.hasLocal holder := by
  obtain ⟨block, found, stands⟩ := statement_of_borrow lends
  refine ⟨statement_local valid found stands ?_, statement_local valid found stands ?_⟩
  · exact List.mem_append_left _ (List.mem_singleton_self x)
  · exact List.mem_append_right _ (List.mem_singleton_self holder)

theorem named_of_hasLocal {b : Body} {x : LocalId} (declared : b.hasLocal x) :
    x ≠ LocalId.missing := by
  rintro rfl
  simp [hasLocal, LocalId.missing] at declared

theorem blockIndex?_eq_some {b : Body} {id : Int} {j : Nat} :
    b.blockIndex? id = some j ↔ id = j ∧ j < b.blocks.length := by
  unfold blockIndex? BlockId
  split
  · simp only [Option.some.injEq]
    omega
  · simp only [reduceCtorEq, false_iff]
    omega

theorem mem_succs {b : Body} {i j : Nat} :
    j ∈ b.succs i ↔ ∃ block, b.blocks[i]? = some block ∧
      (j : BlockId) ∈ block.term.successors ∧ j < b.blocks.length := by
  unfold succs
  cases found : b.blocks[i]? with
  | none => simp
  | some block =>
      simp only [List.mem_filterMap, blockIndex?_eq_some, Option.some.injEq, exists_eq_left']
      constructor
      · rintro ⟨id, goes, rfl, inside⟩
        exact ⟨goes, inside⟩
      · rintro ⟨goes, inside⟩
        exact ⟨j, goes, rfl, inside⟩

theorem succs_inside {b : Body} {i j : Nat} (follows : j ∈ b.succs i) : j < b.blocks.length := by
  obtain ⟨_, _, _, inside⟩ := mem_succs.mp follows
  exact inside

section Preds

variable {rows : List (List Nat)} {i j : Nat}

theorem length_addPred (i : Nat) (rows : List (List Nat)) (target : Nat) :
    (addPred i rows target).length = rows.length :=
  List.length_modify ..

theorem getD_addPred (inside : j < rows.length) (target : Nat) :
    (addPred i rows target).getD j [] =
      if target = j ∧ i ∉ rows.getD j [] then rows.getD j [] ++ [i] else rows.getD j [] := by
  simp only [addPred, List.getD_eq_getElem?_getD, List.getElem?_modify,
    List.getElem?_eq_getElem inside, Option.getD_some]
  by_cases here : target = j <;> by_cases noted : i ∈ rows[j] <;> simp [here, noted]

theorem length_addPreds (b : Body) (i : Nat) (rows : List (List Nat)) :
    (b.addPreds rows i).length = rows.length := by
  unfold addPreds
  induction b.succs i generalizing rows with
  | nil => rfl
  | cons target rest ih => rw [List.foldl_cons, ih, length_addPred]

/-- A row that has the source already stays as it is. -/
theorem getD_foldl_addPred (inside : j < rows.length) (noted : i ∈ rows.getD j [])
    (targets : List Nat) : (targets.foldl (addPred i) rows).getD j [] = rows.getD j [] := by
  induction targets generalizing rows with
  | nil => rfl
  | cons target rest ih =>
      have same : (addPred i rows target).getD j [] = rows.getD j [] := by
        rw [getD_addPred inside, if_neg fun both => both.2 noted]
      rw [List.foldl_cons, ih (by rwa [length_addPred]) (same ▸ noted), same]

/-- The edges of one block put it into the rows of all its targets, once each. -/
theorem getD_addPreds (b : Body) (inside : j < rows.length) (fresh : i ∉ rows.getD j []) :
    (b.addPreds rows i).getD j [] =
      if (b.succs i).contains j then rows.getD j [] ++ [i] else rows.getD j [] := by
  unfold addPreds
  induction b.succs i generalizing rows with
  | nil => simp
  | cons target rest ih =>
      have stays : j < (addPred i rows target).length := by rwa [length_addPred]
      have row := getD_addPred (i := i) inside target
      rw [List.foldl_cons]
      by_cases here : target = j
      · rw [if_pos ⟨here, fresh⟩] at row
        have noted : i ∈ (addPred i rows target).getD j [] := by
          rw [row]
          exact List.mem_append_right _ (List.mem_singleton_self i)
        rw [getD_foldl_addPred stays noted, row]
        simp [here]
      · rw [if_neg fun both => here both.1] at row
        rw [ih stays (row ▸ fresh), row]
        simp [Ne.symm here]

/-- After the edges of some first blocks a row holds those of them that lead to its block. -/
theorem foldl_addPreds (b : Body) (k : Nat) :
    ((List.range k).foldl b.addPreds (List.replicate b.blocks.length [])).length =
        b.blocks.length ∧
      ∀ j < b.blocks.length,
        ((List.range k).foldl b.addPreds (List.replicate b.blocks.length [])).getD j [] =
          (List.range k).filter fun i => (b.succs i).contains j := by
  induction k with
  | zero =>
      refine ⟨List.length_replicate, fun j inside => ?_⟩
      simp [inside]
  | succ k ih =>
      obtain ⟨sized, row⟩ := ih
      simp only [List.range_succ, List.foldl_append, List.foldl_cons, List.foldl_nil]
      refine ⟨by rw [length_addPreds, sized], fun j inside => ?_⟩
      have fresh : k ∉ (List.range k).filter fun i => (b.succs i).contains j := by simp
      rw [getD_addPreds b (by omega) (row j inside ▸ fresh), row j inside, List.filter_append]
      by_cases follows : j ∈ b.succs k <;> simp [follows]

/-- The table of predecessors holds for each block, in ascending order, the blocks that lead to
it. -/
theorem preds_eq_filter (b : Body) (j : Nat) :
    b.preds j = (List.range b.blocks.length).filter fun i => (b.succs i).contains j := by
  obtain ⟨sized, row⟩ := foldl_addPreds b b.blocks.length
  by_cases inside : j < b.blocks.length
  · exact row j inside
  · have none : (List.range b.blocks.length).filter (fun i => (b.succs i).contains j) = [] := by
      refine List.filter_eq_nil_iff.mpr fun i _ follows => ?_
      exact inside (succs_inside (List.contains_iff_mem.mp follows))
    rw [none, preds, predRows, List.getD_eq_getElem?_getD, List.getElem?_eq_none (by omega),
      Option.getD_none]

theorem mem_preds {b : Body} : i ∈ b.preds j ↔ j ∈ b.succs i := by
  simp only [preds_eq_filter, List.mem_filter, List.mem_range, List.contains_iff_mem]
  constructor
  · exact And.right
  · intro follows
    obtain ⟨_, found, _⟩ := mem_succs.mp follows
    exact ⟨(List.getElem?_eq_some_iff.mp found).1, follows⟩

theorem preds_inside {b : Body} (precedes : i ∈ b.preds j) : i < b.blocks.length := by
  rw [preds_eq_filter] at precedes
  exact List.mem_range.mp (List.mem_filter.mp precedes).1

end Preds

theorem succs_of_goes {b : Body} (valid : b.isValid) {i j : Nat} {block : Block}
    (found : b.blocks[i]? = some block) (goes : (j : BlockId) ∈ block.term.successors) :
    j ∈ b.succs i := by
  refine mem_succs.mpr ⟨block, found, goes, ?_⟩
  have inside := target_inside valid found goes
  simp only [hasBlock, Bool.and_eq_true, decide_eq_true_eq] at inside
  exact Int.ofNat_lt.mp inside.2

end Body

end Mir

end BorrowChecker
