import BorrowChecker.Ownership.Transfer
import BorrowChecker.Proofs.Lattice
import BorrowChecker.Proofs.Point

/-!
The transfer of a block, taken apart. A block is its points one after the other, and a point is the
expiry of dead references followed by its events. What an event does is said once, slot by slot;
everything that is proved about states rests on these equations.
-/

namespace BorrowChecker

namespace Ownership

open Mir

namespace Outcome

theorem andThen_assoc (o : Outcome) (f g : State → Outcome) :
    (o.andThen f).andThen g = o.andThen fun s => (f s).andThen g := by
  simp [andThen]

theorem nothing_andThen (s : State) (f : State → Outcome) :
    Outcome.andThen ⟨s, []⟩ f = f s := by
  simp [andThen]

theorem andThen_nothing (o : Outcome) : (o.andThen fun s => ⟨s, []⟩) = o := by
  simp [andThen]

end Outcome

def happen (b : Body) (loc : Location) (e : Event) (s : State) : Outcome :=
  match e with
  | .read id => read b loc id s
  | .move id => move b loc id s
  | .borrow target holder => assign b loc holder (.ref target) s
  | .assign dst => ⟨reinit loc dst s, []⟩
  | .drop id => drop b loc id s

def happenAll (b : Body) (loc : Location) : List Event → State → Outcome
  | [], s => ⟨s, []⟩
  | e :: rest, s => (happen b loc e s).andThen (happenAll b loc rest)

theorem happenAll_single (b : Body) (loc : Location) (e : Event) (s : State) :
    happenAll b loc [e] s = happen b loc e s := Outcome.andThen_nothing _

theorem happenAll_append (b : Body) (loc : Location) (first second : List Event) (s : State) :
    happenAll b loc (first ++ second) s =
      (happenAll b loc first s).andThen (happenAll b loc second) := by
  induction first generalizing s with
  | nil => simp [happenAll, Outcome.nothing_andThen]
  | cons e rest ih =>
      simp only [List.cons_append, happenAll, Outcome.andThen_assoc]
      congr 1
      funext t
      exact ih t

theorem happenAll_append_clean {b : Body} {loc : Location} {first second : List Event} {s : State} :
    (happenAll b loc (first ++ second) s).found = [] ↔
      (happenAll b loc first s).found = [] ∧
        (happenAll b loc second (happenAll b loc first s).state).found = [] := by
  simp [happenAll_append, Outcome.andThen]

theorem happenAll_cons_clean {b : Body} {loc : Location} {e : Event} {rest : List Event}
    {s : State} :
    (happenAll b loc (e :: rest) s).found = [] ↔ (happen b loc e s).found = [] ∧
      (happenAll b loc rest (happen b loc e s).state).found = [] := by
  simp [happenAll, Outcome.andThen]

theorem operand_eq_happenAll (b : Body) (loc : Location) (op : Operand) (s : State) :
    operand b loc op s = happenAll b loc op.events s := by
  cases op with
  | copy id => exact (happenAll_single b loc (.read id) s).symm
  | move id => exact (happenAll_single b loc (.move id) s).symm
  | const value => rfl
  | unknown id => rfl

theorem operands_eq_happenAll (b : Body) (loc : Location) (ops : List Operand) (s : State) :
    operands b loc ops s = happenAll b loc (ops.flatMap Operand.events) s := by
  suffices from_outcome : ∀ o : Outcome,
      ops.foldl (fun o op => o.andThen (operand b loc op)) o =
        o.andThen (happenAll b loc (ops.flatMap Operand.events)) by
    rw [operands, from_outcome, Outcome.nothing_andThen]
  induction ops with
  | nil =>
      intro o
      exact (Outcome.andThen_nothing o).symm
  | cons op rest ih =>
      intro o
      rw [List.foldl_cons, ih, Outcome.andThen_assoc]
      congr 1
      funext t
      rw [List.flatMap_cons, happenAll_append, operand_eq_happenAll]

theorem happenAll_store (b : Body) (loc : Location) (dst : LocalId) (events : List Event)
    (s : State) : happenAll b loc (events ++ [.assign dst]) s =
      ⟨reinit loc dst (happenAll b loc events s).state, (happenAll b loc events s).found⟩ := by
  rw [happenAll_append]
  simp [Outcome.andThen, happenAll, happen]

theorem assign_eq_happenAll (b : Body) (loc : Location) (dst : LocalId) (src : RValue) (s : State) :
    assign b loc dst src s = happenAll b loc (src.events dst) s := by
  cases src with
  | ref target => exact (happenAll_single b loc (.borrow target dst) s).symm
  | use value =>
      rw [RValue.events, happenAll_store, ← operand_eq_happenAll]
      rfl
  | binary op left right =>
      rw [RValue.events, happenAll_store, happenAll_append, ← operand_eq_happenAll]
      simp only [assign, rvalue, lend, Outcome.andThen, ← operand_eq_happenAll]
  | unary op value =>
      rw [RValue.events, happenAll_store, ← operand_eq_happenAll]
      rfl
  | aggregate head elems =>
      rw [RValue.events, happenAll_store, ← operands_eq_happenAll]
      rfl
  | cast value target =>
      rw [RValue.events, happenAll_store, ← operand_eq_happenAll]
      rfl
  | len id =>
      change _ = happenAll b loc ([.read id] ++ [.assign dst]) s
      rw [happenAll_store, happenAll_single]
      rfl
  | discriminant id =>
      change _ = happenAll b loc ([.read id] ++ [.assign dst]) s
      rw [happenAll_store, happenAll_single]
      rfl
  | unknown => exact (happenAll_store b loc dst [] s).symm

theorem statement_eq_happenAll (b : Body) (loc : Location) (st : Statement) (s : State) :
    statement b loc st s = happenAll b loc st.events s := by
  cases st with
  | assign dst src => exact assign_eq_happenAll b loc dst src s
  | drop id => exact (happenAll_single b loc (.drop id) s).symm
  | nop => rfl
  | unknown => rfl

theorem terminator_eq_happenAll (b : Body) (loc : Location) (t : Terminator) (s : State) :
    terminator b loc t s = happenAll b loc t.events s := by
  cases t with
  | switchInt discr cases otherwise => exact operand_eq_happenAll b loc discr s
  | call func args dst target =>
      cases dst with
      | none =>
          simp only [Terminator.events, Option.toList_none, List.map_nil, List.append_nil,
            ← operands_eq_happenAll]
          rfl
      | some id =>
          simp only [Terminator.events, Option.toList_some, List.map_cons, List.map_nil,
            happenAll_store, ← operands_eq_happenAll]
          rfl
  | assert cond expected msg target => exact operand_eq_happenAll b loc cond s
  | ret => exact (happenAll_single b loc (.read LocalId.ret) s).symm
  | missing => rfl
  | goto target => rfl
  | unreachable => rfl
  | unknown => rfl

def execute (b : Body) (live : Liveness) (p : Point) (s : State) : Outcome :=
  happenAll b p.location (b.events p) (expire live p.location s)

def stateAt (b : Body) (live : Liveness) (i : Nat) (start : State) : Nat → State
  | 0 => start
  | k + 1 => (execute b live ⟨i, k⟩ (stateAt b live i start k)).state

theorem runFrom_nil (b : Body) (live : Liveness) {i : Nat} {block : Block}
    (found : b.blocks[i]? = some block) (s : State) :
    runFrom b live i block.term block.statements.length [] s =
      execute b live ⟨i, block.statements.length⟩ s := by
  have events : b.events ⟨i, block.statements.length⟩ = block.term.events := by
    simp [Body.events, found, Block.eventsAt]
  rw [runFrom, terminator_eq_happenAll, execute, events]
  rfl

theorem runFrom_cons (b : Body) (live : Liveness) {i k : Nat} {block : Block}
    (found : b.blocks[i]? = some block) {st : Statement} (stands : block.statements[k]? = some st)
    (rest : List Statement) (s : State) :
    runFrom b live i block.term k (st :: rest) s =
      (execute b live ⟨i, k⟩ s).andThen (runFrom b live i block.term (k + 1) rest) := by
  have events : b.events ⟨i, k⟩ = st.events := by
    simp [Body.events, found, Block.eventsAt, stands]
  rw [runFrom, statement_eq_happenAll, execute, events]
  rfl

theorem runFrom_eq_execute (b : Body) (live : Liveness) {i : Nat} {block : Block}
    (found : b.blocks[i]? = some block) (start : State) (rest : List Statement) :
    ∀ k, block.statements.drop k = rest → k + rest.length = block.statements.length →
      runFrom b live i block.term k rest (stateAt b live i start k) =
        ⟨stateAt b live i start (block.statements.length + 1),
          (List.range' k (rest.length + 1)).flatMap fun k =>
            (execute b live ⟨i, k⟩ (stateAt b live i start k)).found⟩ := by
  induction rest with
  | nil =>
      intro k _ last
      have atEnd : k = block.statements.length := last
      subst atEnd
      rw [runFrom_nil b live found]
      simp [stateAt, List.range'_one]
  | cons st rest ih =>
      intro k here last
      have stands : block.statements[k]? = some st := by
        rw [← List.head?_drop, here]
        rfl
      have after : block.statements.drop (k + 1) = rest := by
        rw [← List.tail_drop, here]
        rfl
      have tail := ih (k + 1) after (by simp only [List.length_cons] at last; omega)
      rw [stateAt] at tail
      rw [List.length_cons, List.range'_succ, List.flatMap_cons,
        runFrom_cons b live found stands, Outcome.andThen, tail]

theorem transfer_eq_execute (b : Body) (live : Liveness) {i : Nat} {block : Block}
    (found : b.blocks[i]? = some block) (start : State) :
    transfer b live i start =
      ⟨stateAt b live i start (block.statements.length + 1),
        (List.range (block.statements.length + 1)).flatMap fun k =>
          (execute b live ⟨i, k⟩ (stateAt b live i start k)).found⟩ := by
  rw [transfer, found, List.range_eq_range']
  exact runFrom_eq_execute b live found start block.statements 0 rfl (Nat.zero_add _)

end Ownership

end BorrowChecker
