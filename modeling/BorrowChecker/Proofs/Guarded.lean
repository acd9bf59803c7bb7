import BorrowChecker.Ownership.Check
import BorrowChecker.Proofs.Search
import Mathlib.Data.List.ReduceOption

/-!
The checker with its look-ups guarded. A slot of a state, a block, and an entry of a table of blocks
are handed out only where they exist, and a run that asks for one that is missing stops. On a body
without flaws no run stops, and the verdict is that of the checker.
-/

namespace BorrowChecker

namespace Ownership

open Mir

inductive Beyond where
  | slot (place : LocalId) (slots : Nat)
  | block (index blocks : Nat)
deriving DecidableEq, Repr

namespace Guarded

def lookUp {α : Type} (table : List α) (i : Nat) : Except Beyond α :=
  match table[i]? with
  | some x => .ok x
  | none => .error (.block i table.length)

def touch (s : State) (id : LocalId) : Except Beyond Unit :=
  if s.Has id then .ok () else .error (.slot id s.length)

def andThen (o : Except Beyond Outcome) (next : State → Except Beyond Outcome) :
    Except Beyond Outcome := do
  let first ← o
  let second ← next first.state
  return ⟨second.state, first.found ++ second.found⟩

/-- Reading, moving and dropping look at the slot of a local only where its values are not copied. -/
def owned (b : Body) (id : LocalId) (act : State → Outcome) (s : State) : Except Beyond Outcome :=
  if isCopy b id then return ⟨s, []⟩
  else do
    touch s id
    return act s

def operand (b : Body) (loc : Location) (op : Operand) (s : State) : Except Beyond Outcome :=
  match op with
  | .copy id => owned b id (read b loc id) s
  | .move id => owned b id (move b loc id) s
  | .const _ | .unknown _ => return ⟨s, []⟩

def operands (b : Body) (loc : Location) : List Operand → State → Except Beyond Outcome
  | [], s => return ⟨s, []⟩
  | op :: rest, s => andThen (operand b loc op s) (operands b loc rest)

def reinit (loc : Location) (dst : LocalId) (s : State) : Except Beyond State := do
  touch s dst
  return Ownership.reinit loc dst s

def rvalue (b : Body) (loc : Location) (src : RValue) (s : State) : Except Beyond Outcome :=
  match src with
  | .use value => operand b loc value s
  | .ref target => do
    touch s target
    return ⟨s, borrowFaults b s target loc⟩
  | .binary _ left right => andThen (operand b loc left s) (operand b loc right)
  | .unary _ value => operand b loc value s
  | .aggregate _ elems => operands b loc elems s
  | .cast value _ => operand b loc value s
  | .len id => owned b id (read b loc id) s
  | .discriminant id => owned b id (read b loc id) s
  | .unknown => return ⟨s, []⟩

def lend (b : Body) (loc : Location) (dst : LocalId) (src : RValue) (before s : State) :
    Except Beyond State :=
  match src with
  | .ref target => do
    touch before target
    touch s target
    return Ownership.lend b loc dst (.ref target) before s
  | _ => return s

def assign (b : Body) (loc : Location) (dst : LocalId) (src : RValue) (s : State) :
    Except Beyond Outcome := do
  let computed ← rvalue b loc src s
  let stored ← reinit loc dst computed.state
  let lent ← lend b loc dst src s stored
  return { computed with state := lent }

def statement (b : Body) (loc : Location) (st : Statement) (s : State) : Except Beyond Outcome :=
  match st with
  | .assign dst src => assign b loc dst src s
  | .drop id => owned b id (drop b loc id) s
  | .nop | .unknown => return ⟨s, []⟩

def terminator (b : Body) (loc : Location) (t : Terminator) (s : State) : Except Beyond Outcome :=
  match t with
  | .switchInt discr _ _ => operand b loc discr s
  | .call _ args none _ => operands b loc args s
  | .call _ args (some dst) _ => do
    let called ← operands b loc args s
    let stored ← reinit loc dst called.state
    return { called with state := stored }
  | .assert cond _ _ _ => operand b loc cond s
  | .ret => owned b LocalId.ret (read b loc LocalId.ret) s
  | .missing | .goto _ | .unreachable | .unknown => return ⟨s, []⟩

/-- Ending references walks over the slots that are there, and the live sets answer for every
location, so `expire` needs no guard. -/
def runFrom (b : Body) (live : Liveness) (block : BlockId) (term : Terminator) (index : Nat) :
    List Statement → State → Except Beyond Outcome
  | [], s => terminator b ⟨block, index⟩ term (expire live ⟨block, index⟩ s)
  | st :: rest, s =>
    andThen (statement b ⟨block, index⟩ st (expire live ⟨block, index⟩ s))
      (runFrom b live block term (index + 1) rest)

def transfer (b : Body) (live : Liveness) (index : Nat) (s : State) : Except Beyond Outcome := do
  let block ← lookUp b.blocks index
  runFrom b live index block.term 0 block.statements s

def succs (b : Body) (index : Nat) : Except Beyond (List Nat) := do
  let block ← lookUp b.blocks index
  return block.term.successors.filterMap b.blockIndex?

def addPred (source : Nat) (rows : List (List Nat)) (target : Nat) :
    Except Beyond (List (List Nat)) := do
  let _ ← lookUp rows target
  return Body.addPred source rows target

def addPreds (b : Body) (rows : List (List Nat)) (source : Nat) :
    Except Beyond (List (List Nat)) := do
  (← succs b source).foldlM (addPred source) rows

def preds (b : Body) (index : Nat) : Except Beyond (List Nat) := do
  let rows ← (List.range b.blocks.length).foldlM (addPreds b)
    (List.replicate b.blocks.length [])
  lookUp rows index

def accesses (b : Body) (index : Nat) : Except Beyond (List Access) := do
  let block ← lookUp b.blocks index
  return block.accesses

def gather (next : Nat → Except Beyond (List Nat)) (domain pending : List Nat) :
    Except Beyond (List Nat) :=
  match _found : pending.find? domain.contains with
  | none => return []
  | some node => do
    let follows ← next node
    let rest ← gather next (domain.erase node) (follows ++ pending)
    return node :: rest
termination_by domain.length
decreasing_by
  have member : node ∈ domain := List.contains_iff_mem.mp (List.find?_some _found)
  have shorter := List.length_erase_of_mem member
  have positive := List.length_pos_of_mem member
  omega

/-- A block is marked where there is a mark for it, and put on the queue where a place is left. -/
def put {blocks : Nat} (s : Search blocks) (index : Nat) : Except Beyond (Search blocks) :=
  if index < blocks then
    match s.put index with
    | some later => .ok later
    | none => .error (.block s.queue.length blocks)
  else .error (.block index blocks)

def visit {blocks : Nat} (s : Search blocks) (index : Nat) : Except Beyond (Search blocks) := do
  if ← lookUp s.seen.toList index then return s
  put s index

def run {blocks : Nat} (next : Nat → Except Beyond (List Nat)) (position : Nat)
    (s : Search blocks) : Except Beyond (Search blocks) :=
  match _taken : s.queue[position]? with
  | none => return s
  | some index => do
    let follows ← next index
    let later ← follows.foldlM visit s
    run next (position + 1) later
termination_by blocks - position
decreasing_by
  have inside := (List.getElem?_eq_some_iff.mp _taken).1
  have fits := s.fits
  omega

def search (b : Body) : Except Beyond (Search b.blocks.length) :=
  if b.blocks.isEmpty then return .empty
  else do
    let first ← put .empty 0
    run (succs b) 0 first

def liveBlocks (b : Body) (id : LocalId) : Except Beyond (List Nat) := do
  let domain := List.range b.blocks.length
  let starts ← domain.filterM fun i => do return Access.readsFirst id (← accesses b i)
  gather (fun i => do (← preds b i).filterM fun j => do return Access.leaves id (← accesses b j))
    domain starts

def liveBefore (b : Body) (atStart : List LocalSet) (index : Nat) :
    Except Beyond (List LocalSet) := do
  let after ← (← succs b index).foldlM
    (fun acc j => do return LocalSet.union acc (← lookUp atStart j)) LocalSet.empty
  return Access.liveBeforeAll after (← accesses b index)

def liveness (b : Body) : Except Beyond Liveness := do
  let read := b.readLocals
  let named := read.members.filter (· != LocalId.missing)
  let spans ← named.mapM fun id => do return (id, ← liveBlocks b id)
  let atStart := (List.range b.blocks.length).map (Liveness.startOf spans)
  let before ← (List.range b.blocks.length).mapM (liveBefore b atStart)
  return { atStart, before, read }

/-- Joining reads the second state at every slot of the first. -/
def join (s t : State) : Except Beyond State :=
  if s.length ≤ t.length then return s.join t else throw (.slot t.length t.length)

def joinEnd (known : Option State) (exit : Option State) : Except Beyond (Option State) :=
  match known, exit with
  | known, none => return known
  | none, some s => return some s
  | some k, some s => do return some (← join k s)

def inflow (b : Body) (sol : Solution) (index : Nat) : Except Beyond (Option State) := do
  (← preds b index).foldlM (fun acc i => do joinEnd acc (← lookUp sol.exits i))
    (if index = 0 then some (State.initial b) else none)

def entryAfter (b : Body) (sol : Solution) (index : Nat) : Except Beyond (Option State) := do
  match ← inflow b sol index with
  | none => return none
  | some s =>
    match ← lookUp sol.entries index with
    | none => return some s
    | some old => do
      let joined ← join old s
      return if joined = old then none else some joined

/-- The marks of the blocks that wait and of those that are reached are tables of blocks. -/
def queueAfter (b : Body) (sol : Solution) (index : Nat) (exit : State) (queue : List Nat) :
    Except Beyond (List Nat) := do
  if (← lookUp sol.exits index) = some exit then return queue
  let follows ← succs b index
  let _ ← follows.mapM (lookUp b.blocks)
  return enqueue queue follows

def solveFrom (b : Body) (live : Liveness) (limit : Nat) (sol : Solution) (queue : List Nat) :
    Except Beyond Solution :=
  match queue with
  | [] => return sol
  | index :: rest =>
    if sol.transfers < limit then do
      match ← entryAfter b sol index with
      | none => solveFrom b live limit sol rest
      | some entry =>
        let outcome ← transfer b live index entry
        let waits ← queueAfter b sol index outcome.state rest
        solveFrom b live limit
          { entries := sol.entries.set index (some entry)
            exits := sol.exits.set index (some outcome.state)
            transfers := sol.transfers + 1 } waits
    else return sol
termination_by (limit - sol.transfers, queue.length)
decreasing_by
  · exact Prod.Lex.right _ (by simp)
  · exact Prod.Lex.left _ _ (by omega)

def report? (b : Body) (live : Liveness) (sol : Solution) (index : Nat) :
    Except Beyond (Option BlockReport) := do
  match ← lookUp sol.entries index with
  | none => return none
  | some entry => return some ⟨index, (← transfer b live index entry).found⟩

def examine (b : Body) : Except Beyond BodyReport := do
  let live ← liveness b
  let sol ← solveFrom b live (transferLimit b) (.start b) [0]
  let reports ← (List.range b.blocks.length).mapM (report? b live sol)
  return { transfers := sol.transfers, blocks := reports.reduceOption,
           lifetimes := lifetimeViolations b }

def check (b : Body) : Except Beyond (List Violation) := do
  if b.blocks.isEmpty then return []
  return (← examine b).violations

theorem lookUp_eq {α : Type} {table : List α} {i : Nat} {x : α} (found : table[i]? = some x) :
    lookUp table i = .ok x := by
  rw [lookUp, found]

theorem lookUp_getD {α : Type} {table : List α} {i : Nat} (inside : i < table.length) (d : α) :
    lookUp table i = .ok (table.getD i d) :=
  lookUp_eq (by simp [inside])

theorem ok_bind {α β : Type} (x : α) (f : α → Except Beyond β) : (Except.ok x >>= f) = f x := rfl

theorem touch_eq {s : State} {id : LocalId} (has : s.Has id) : touch s id = .ok () := if_pos has

theorem andThen_eq {o : Except Beyond Outcome} {next : State → Except Beyond Outcome}
    {first : Outcome} {then_ : State → Outcome} (starts : o = .ok first)
    (continues : next first.state = .ok (then_ first.state)) :
    andThen o next = .ok (first.andThen then_) := by
  rw [andThen, starts, ok_bind, continues]
  rfl

section Lists

variable {α β : Type}

theorem mapM_eq {f : α → Except Beyond β} {g : α → β} {l : List α}
    (each : ∀ x ∈ l, f x = .ok (g x)) : l.mapM f = .ok (l.map g) := by
  induction l with
  | nil => rfl
  | cons x rest ih =>
      rw [List.mapM_cons, each x (List.mem_cons_self ..),
        ih fun y member => each y (List.mem_cons_of_mem x member)]
      rfl

theorem filterM_eq {f : α → Except Beyond Bool} {p : α → Bool} {l : List α}
    (each : ∀ x ∈ l, f x = .ok (p x)) : l.filterM f = .ok (l.filter p) := by
  suffices collected : ∀ acc, l.filterAuxM f acc = .ok ((l.filter p).reverse ++ acc) by
    rw [List.filterM, collected]
    simp [Except.bind, bind, pure, Except.pure]
  induction l with
  | nil => exact fun _ => rfl
  | cons x rest ih =>
      intro acc
      rw [List.filterAuxM, each x (List.mem_cons_self ..)]
      change rest.filterAuxM f (cond (p x) (x :: acc) acc) = _
      rw [ih fun y member => each y (List.mem_cons_of_mem x member)]
      cases kept : p x <;> simp [kept]

theorem foldlM_eq {f : β → α → Except Beyond β} {g : β → α → β} {P : β → Prop} {l : List α}
    (each : ∀ acc x, x ∈ l → P acc → f acc x = .ok (g acc x) ∧ P (g acc x)) :
    ∀ acc, P acc → l.foldlM f acc = .ok (l.foldl g acc) := by
  induction l with
  | nil => exact fun _ _ => rfl
  | cons x rest ih =>
      intro acc holds
      obtain ⟨computed, kept⟩ := each acc x (List.mem_cons_self ..) holds
      rw [List.foldlM_cons, computed]
      exact ih (fun acc y member => each acc y (List.mem_cons_of_mem x member)) _ kept

end Lists

section Slots

variable {b : Body} {s : State}

theorem has_of_owned {id : LocalId} (full : s.length = b.locals.length)
    (own : isCopy b id = false) : s.Has id :=
  has_of_moveOnly (moveOnly_iff.mpr own) full

theorem owned_eq {id : LocalId} {act : State → Outcome} (full : s.length = b.locals.length)
    (copied : isCopy b id → act s = ⟨s, []⟩) : owned b id act s = .ok (act s) := by
  unfold owned
  split
  · rename_i copy
    rw [copied copy]
    rfl
  · rename_i own
    rw [touch_eq (has_of_owned full (by simpa using own))]
    rfl

theorem read_eq (loc : Location) (id : LocalId) (full : s.length = b.locals.length) :
    owned b id (read b loc id) s = .ok (read b loc id s) :=
  owned_eq full fun copy => by simp [read, useFault?, copy]

theorem move_eq (loc : Location) (id : LocalId) (full : s.length = b.locals.length) :
    owned b id (move b loc id) s = .ok (move b loc id s) :=
  owned_eq full fun copy => by simp [move, copy]

theorem drop_eq (loc : Location) (id : LocalId) (full : s.length = b.locals.length) :
    owned b id (drop b loc id) s = .ok (drop b loc id s) :=
  owned_eq full fun copy => by simp [drop, copy]

theorem operand_eq (loc : Location) (op : Operand) (full : s.length = b.locals.length) :
    operand b loc op s = .ok (Ownership.operand b loc op s) := by
  cases op with
  | copy id => exact read_eq loc id full
  | move id => exact move_eq loc id full
  | const value => rfl
  | unknown id => rfl

theorem length_operand (b : Body) (loc : Location) (op : Operand) (s : State) :
    (Ownership.operand b loc op s).state.length = s.length := by
  rw [operand_eq_happenAll, length_happenAll]

theorem operands_cons (b : Body) (loc : Location) (op : Operand) (rest : List Operand)
    (s : State) : Ownership.operands b loc (op :: rest) s =
      (Ownership.operand b loc op s).andThen (Ownership.operands b loc rest) := by
  rw [operands_eq_happenAll, List.flatMap_cons, happenAll_append, operand_eq_happenAll]
  congr 1
  funext t
  rw [operands_eq_happenAll]

theorem operands_eq (loc : Location) (ops : List Operand) (full : s.length = b.locals.length) :
    operands b loc ops s = .ok (Ownership.operands b loc ops s) := by
  induction ops generalizing s with
  | nil => rfl
  | cons op rest ih =>
      rw [operands_cons]
      exact andThen_eq (operand_eq loc op full) (ih (by rw [length_operand, full]))

theorem reinit_eq (loc : Location) {dst : LocalId} (has : s.Has dst) :
    reinit loc dst s = .ok (Ownership.reinit loc dst s) := by
  rw [reinit, touch_eq has]
  rfl

theorem rvalue_eq (loc : Location) {src : RValue} (full : s.length = b.locals.length)
    (known : ∀ id ∈ src.reads, b.hasLocal id) :
    rvalue b loc src s = .ok (Ownership.rvalue b loc src s) := by
  cases src with
  | use value => exact operand_eq loc value full
  | ref target =>
      rw [rvalue, touch_eq (has_of_hasLocal (known target (List.mem_singleton_self _)) full)]
      rfl
  | binary op left right =>
      exact andThen_eq (operand_eq loc left full)
        (operand_eq loc right (by rw [length_operand, full]))
  | unary op value => exact operand_eq loc value full
  | aggregate head elems => exact operands_eq loc elems full
  | cast value target => exact operand_eq loc value full
  | len id => exact read_eq loc id full
  | discriminant id => exact read_eq loc id full
  | unknown => rfl

theorem length_rvalue (b : Body) (loc : Location) (src : RValue) (s : State) :
    (Ownership.rvalue b loc src s).state.length = s.length := by
  cases src with
  | use value => exact length_operand b loc value s
  | ref target => rfl
  | binary op left right =>
      exact (length_operand b loc right _).trans (length_operand b loc left s)
  | unary op value => exact length_operand b loc value s
  | aggregate head elems => rw [Ownership.rvalue, operands_eq_happenAll, length_happenAll]
  | cast value target => exact length_operand b loc value s
  | len id => rfl
  | discriminant id => rfl
  | unknown => rfl

theorem lend_eq (loc : Location) (dst : LocalId) {src : RValue} {before : State}
    (started : before.length = b.locals.length) (full : s.length = b.locals.length)
    (known : ∀ id ∈ src.reads, b.hasLocal id) :
    lend b loc dst src before s = .ok (Ownership.lend b loc dst src before s) := by
  cases src with
  | ref target =>
      have declared := known target (List.mem_singleton_self _)
      rw [lend, touch_eq (has_of_hasLocal declared started),
        touch_eq (has_of_hasLocal declared full)]
      rfl
  | _ => rfl

theorem assign_eq (loc : Location) {dst : LocalId} {src : RValue}
    (full : s.length = b.locals.length) (known : ∀ id ∈ src.reads ++ [dst], b.hasLocal id) :
    assign b loc dst src s = .ok (Ownership.assign b loc dst src s) := by
  have reads : ∀ id ∈ src.reads, b.hasLocal id := fun id member =>
    known id (List.mem_append_left _ member)
  have declared : b.hasLocal dst := known dst (List.mem_append_right _ (List.mem_singleton_self _))
  have computed : (Ownership.rvalue b loc src s).state.length = b.locals.length := by
    rw [length_rvalue, full]
  have stored : (Ownership.reinit loc dst (Ownership.rvalue b loc src s).state).length =
      b.locals.length := by
    rw [length_reinit, computed]
  rw [assign, rvalue_eq loc full reads, ok_bind,
    reinit_eq loc (has_of_hasLocal declared computed), ok_bind, lend_eq loc dst full stored reads]
  rfl

theorem statement_eq (loc : Location) {st : Statement} (full : s.length = b.locals.length)
    (known : ∀ id ∈ st.reads ++ st.writes, b.hasLocal id) :
    statement b loc st s = .ok (Ownership.statement b loc st s) := by
  cases st with
  | assign dst src => exact assign_eq loc full known
  | drop id => exact drop_eq loc id full
  | nop => rfl
  | unknown => rfl

theorem terminator_eq (loc : Location) {t : Terminator} (full : s.length = b.locals.length)
    (known : ∀ id ∈ t.writes, b.hasLocal id) :
    terminator b loc t s = .ok (Ownership.terminator b loc t s) := by
  cases t with
  | switchInt discr cases otherwise => exact operand_eq loc discr full
  | call func args dst target =>
      cases dst with
      | none => exact operands_eq loc args full
      | some dst =>
          have called : (Ownership.operands b loc args s).state.length = b.locals.length := by
            rw [operands_eq_happenAll, length_happenAll, full]
          have declared : b.hasLocal dst := known dst (List.mem_singleton_self _)
          rw [terminator, operands_eq loc args full, ok_bind,
            reinit_eq loc (has_of_hasLocal declared called)]
          rfl
  | assert cond expected msg target => exact operand_eq loc cond full
  | ret => exact read_eq loc LocalId.ret full
  | missing => rfl
  | goto target => rfl
  | unreachable => rfl
  | unknown => rfl

theorem length_expire (live : Liveness) (loc : Location) (s : State) :
    (expire live loc s).length = s.length :=
  List.length_map _

theorem runFrom_eq (live : Liveness) (block : BlockId) {term : Terminator}
    {statements : List Statement}
    (known : ∀ st ∈ statements, ∀ id ∈ st.reads ++ st.writes, b.hasLocal id)
    (written : ∀ id ∈ term.writes, b.hasLocal id) :
    ∀ index s, s.length = b.locals.length →
      runFrom b live block term index statements s =
        .ok (Ownership.runFrom b live block term index statements s) := by
  induction statements with
  | nil =>
      intro index s full
      exact terminator_eq _ (by rw [length_expire, full]) written
  | cons st rest ih =>
      intro index s full
      have expired : (expire live ⟨block, index⟩ s).length = b.locals.length := by
        rw [length_expire, full]
      refine andThen_eq (statement_eq _ expired (known st (List.mem_cons_self ..))) ?_
      refine ih (fun st member => known st (List.mem_cons_of_mem _ member)) _ _ ?_
      rw [statement_eq_happenAll, length_happenAll, expired]

theorem transfer_eq (valid : b.isValid) (live : Liveness) {i : Nat} (inside : i < b.blocks.length)
    (full : s.length = b.locals.length) :
    transfer b live i s = .ok (Ownership.transfer b live i s) := by
  have found : b.blocks[i]? = some b.blocks[i] := List.getElem?_eq_getElem inside
  rw [transfer, lookUp_eq found, Ownership.transfer, found]
  refine runFrom_eq live i ?_ ?_ 0 s full
  · intro st member id named
    obtain ⟨k, stands⟩ := List.mem_iff_getElem?.mp member
    exact Body.statement_local valid found stands named
  · intro id named
    exact Body.terminator_local valid found (List.mem_append_right _ named)

end Slots

section Flow

variable (b : Body)

theorem succs_eq {i : Nat} (inside : i < b.blocks.length) : succs b i = .ok (b.succs i) := by
  have found : b.blocks[i]? = some b.blocks[i] := List.getElem?_eq_getElem inside
  rw [succs, lookUp_eq found, Body.succs, found]
  rfl

theorem addPred_eq {source target : Nat} {rows : List (List Nat)} (inside : target < rows.length) :
    addPred source rows target = .ok (Body.addPred source rows target) := by
  rw [addPred, lookUp_getD inside []]
  rfl

theorem addPreds_eq {source : Nat} {rows : List (List Nat)} (inside : source < b.blocks.length)
    (sized : rows.length = b.blocks.length) :
    addPreds b rows source = .ok (b.addPreds rows source) := by
  rw [addPreds, succs_eq b inside]
  refine foldlM_eq (P := fun rows => rows.length = b.blocks.length) ?_ rows sized
  intro rows target follows sized
  refine ⟨addPred_eq (sized ▸ Body.succs_inside follows), ?_⟩
  rw [Body.length_addPred, sized]

theorem preds_eq {i : Nat} (inside : i < b.blocks.length) : preds b i = .ok (b.preds i) := by
  rw [preds, foldlM_eq (P := fun rows => rows.length = b.blocks.length) (g := b.addPreds) ?_ _
    List.length_replicate]
  · refine lookUp_getD ?_ []
    rw [(Body.foldl_addPreds b _).1]
    exact inside
  · intro rows source member sized
    refine ⟨addPreds_eq b (List.mem_range.mp member) sized, ?_⟩
    rw [Body.length_addPreds, sized]

theorem accesses_eq {i : Nat} (inside : i < b.blocks.length) :
    accesses b i = .ok (b.accesses i) := by
  have found : b.blocks[i]? = some b.blocks[i] := List.getElem?_eq_getElem inside
  rw [accesses, lookUp_eq found, Body.accesses, found]
  rfl

theorem gather_eq {next : Nat → Except Beyond (List Nat)} {follow : Nat → List Nat}
    (domain pending : List Nat) (each : ∀ node ∈ domain, next node = .ok (follow node)) :
    gather next domain pending = .ok (Mir.gather follow domain pending) := by
  fun_induction Mir.gather follow domain pending with
  | case1 domain pending nothing =>
      rw [gather]
      split
      · rfl
      · rename_i other found
        exact absurd (nothing.symm.trans found) (by simp)
  | case2 domain pending node found ih =>
      have member : node ∈ domain := List.contains_iff_mem.mp (List.find?_some found)
      rw [gather]
      split
      · rename_i missing
        exact absurd (found.symm.trans missing) (by simp)
      · rename_i other again
        obtain rfl : node = other := Option.some.inj (found.symm.trans again)
        rw [each node member, ok_bind,
          ih fun other still => each other (List.mem_of_mem_erase still)]
        rfl

section Search

variable {blocks : Nat} {s t : Search blocks}

theorem put_eq {i : Nat} (put : s.put i = some t) :
    Guarded.put s i = .ok t ∧ t.queue = s.queue ++ [i] ∧ i < blocks := by
  have room : i < blocks ∧ s.queue.length < blocks := by
    by_contra full
    rw [Search.put, dif_neg full] at put
    contradiction
  refine ⟨?_, ?_, room.1⟩
  · simp only [Guarded.put, if_pos room.1, put]
  · rw [Search.put, dif_pos room] at put
    rw [← Option.some.inj put]

theorem visit_eq {i : Nat} (visit : s.visit i = some t) (inside : ∀ j ∈ s.queue, j < blocks) :
    Guarded.visit s i = .ok t ∧ ∀ j ∈ t.queue, j < blocks := by
  unfold Search.visit at visit
  split at visit
  · rename_i seen
    obtain rfl := Option.some.inj visit
    have marked : s.seen.toList[i]? = some true := by rwa [Vector.getElem?_toList]
    exact ⟨by rw [Guarded.visit, lookUp_eq marked]; rfl, inside⟩
  · rename_i unseen
    obtain ⟨put, queue, below⟩ := put_eq visit
    have unmarked : s.seen.toList[i]? = some false := by
      rw [Vector.getElem?_toList]
      rw [Vector.getElem?_eq_getElem below] at unseen ⊢
      simpa using unseen
    refine ⟨by rw [Guarded.visit, lookUp_eq unmarked]; exact put, ?_⟩
    intro j member
    rcases List.mem_append.mp (queue ▸ member) with old | new
    · exact inside j old
    · exact List.mem_singleton.mp new ▸ below

theorem visitAll_eq {indices : List Nat} (visits : indices.foldlM Search.visit s = some t)
    (inside : ∀ j ∈ s.queue, j < blocks) :
    indices.foldlM visit s = .ok t ∧ ∀ j ∈ t.queue, j < blocks := by
  induction indices generalizing s with
  | nil =>
      obtain rfl : s = t := by simpa using visits
      exact ⟨rfl, inside⟩
  | cons i rest ih =>
      rw [List.foldlM_cons, Option.bind_eq_bind, Option.bind_eq_some_iff] at visits
      obtain ⟨first, visited, later⟩ := visits
      obtain ⟨same, still⟩ := visit_eq visited inside
      rw [List.foldlM_cons, same]
      exact ih later still

/-- A search that comes to its end is not stopped by the guards. -/
theorem run_eq {next : Nat → Except Beyond (List Nat)} {follow : Nat → List Nat} {position : Nat}
    (each : ∀ i < blocks, next i = .ok (follow i)) (inside : ∀ j ∈ s.queue, j < blocks)
    (ran : Search.run follow position s = some t) : run next position s = .ok t := by
  fun_induction Search.run follow position s with
  | case1 position s done =>
      obtain rfl := Option.some.inj ran
      rw [run]
      split
      · rfl
      · rename_i other found
        exact absurd (done.symm.trans found) (by simp)
  | case2 position s i taken ih =>
      obtain ⟨later, visits, rest⟩ := Option.bind_eq_some_iff.mp ran
      obtain ⟨same, still⟩ := visitAll_eq visits inside
      rw [run]
      split
      · rename_i missing
        exact absurd (taken.symm.trans missing) (by simp)
      · rename_i other again
        obtain rfl : i = other := Option.some.inj (taken.symm.trans again)
        rw [each i (inside i (List.mem_of_getElem? taken)), ok_bind, same, ok_bind]
        exact ih later still rest

end Search

theorem search_eq {s : Search b.blocks.length} (searched : b.search? = some s) :
    search b = .ok s := by
  unfold Body.search? at searched
  unfold search
  split at searched
  · rename_i empty
    rw [if_pos empty, ← Option.some.inj searched]
    rfl
  · rename_i present
    obtain ⟨first, put, ran⟩ := Option.bind_eq_some_iff.mp searched
    obtain ⟨same, queue, below⟩ := put_eq put
    rw [if_neg present, same, ok_bind]
    refine run_eq (fun i inside => succs_eq b inside) ?_ ran
    intro j member
    rw [queue] at member
    exact List.mem_singleton.mp member ▸ below

theorem liveBlocks_eq (id : LocalId) : liveBlocks b id = .ok (b.liveBlocks id) := by
  have starts := filterM_eq (l := List.range b.blocks.length)
    (f := fun i => do return Access.readsFirst id (← accesses b i))
    (p := fun i => Access.readsFirst id (b.accesses i)) (by
      intro i member
      rw [accesses_eq b (List.mem_range.mp member)]
      rfl)
  rw [liveBlocks, starts]
  refine gather_eq _ _ fun i member => ?_
  rw [preds_eq b (List.mem_range.mp member)]
  refine filterM_eq fun j precedes => ?_
  rw [accesses_eq b (Body.preds_inside precedes)]
  rfl

theorem liveBefore_eq {atStart : List LocalSet} (sized : atStart.length = b.blocks.length) {i : Nat}
    (inside : i < b.blocks.length) : liveBefore b atStart i = .ok (Access.liveBeforeAll
      ((b.succs i).foldl (fun acc j => acc.union (atStart.getD j .empty)) .empty)
      (b.accesses i)) := by
  rw [liveBefore, succs_eq b inside, ok_bind, accesses_eq b inside, foldlM_eq (P := fun _ => True)
    (g := fun acc j => acc.union (atStart.getD j .empty)) ?_ _ trivial]
  · rfl
  · intro acc j follows _
    refine ⟨?_, trivial⟩
    rw [lookUp_getD (sized ▸ Body.succs_inside follows) .empty]
    rfl

/-- The live sets of a body stay inside their tables, whether it has flaws or not. -/
theorem liveness_eq : liveness b = .ok (Liveness.ofBody b) := by
  have spans := mapM_eq (l := b.readLocals.members.filter (· != LocalId.missing))
    (f := fun id => do return (id, ← liveBlocks b id)) (g := fun id => (id, b.liveBlocks id)) (by
      intro id _
      rw [liveBlocks_eq]
      rfl)
  rw [liveness, spans]
  simp only [ok_bind]
  rw [mapM_eq fun i member => liveBefore_eq b (by simp) (List.mem_range.mp member)]
  rfl

end Flow

section Queue

variable {b : Body} {live : Liveness} {sol : Solution} {queue : List Nat}

theorem join_eq {s t : State} (left : s.length = b.locals.length)
    (right : t.length = b.locals.length) : join s t = .ok (s.join t) :=
  if_pos (by omega)

theorem lookUp_entries (works : Works b live sol queue) {i : Nat} (inside : i < b.blocks.length) :
    lookUp sol.entries i = .ok (sol.entry? i) :=
  lookUp_getD (by rw [works.sizes.1]; exact inside) none

theorem lookUp_exits (works : Works b live sol queue) {i : Nat} (inside : i < b.blocks.length) :
    lookUp sol.exits i = .ok (sol.exit? i) :=
  lookUp_getD (by rw [works.sizes.2]; exact inside) none

theorem inflow_eq_foldl (b : Body) (sol : Solution) (i : Nat) :
    Ownership.inflow b sol i = (b.preds i).foldl
      (fun acc j => (sol.exit? j).elim acc fun s => some (joinOnto acc s))
      (if i = 0 then some (State.initial b) else none) := by
  rw [Ownership.inflow, List.foldl_filterMap]
  congr 1
  funext acc j
  cases sol.exit? j <;> rfl

theorem inflow_eq (works : Works b live sol queue) (present : 0 < b.blocks.length) {i : Nat}
    (inside : i < b.blocks.length) : inflow b sol i = .ok (Ownership.inflow b sol i) := by
  rw [inflow, preds_eq b inside, inflow_eq_foldl]
  refine foldlM_eq (P := fun known => ∀ s, known = some s → s.length = b.locals.length)
    ?_ _ ?_
  · intro known j precedes full
    have follows : i ∈ b.succs j := Body.mem_preds.mp precedes
    rw [lookUp_exits works (Body.preds_inside precedes)]
    cases ended : sol.exit? j with
    | none =>
        refine ⟨?_, full⟩
        cases known <;> rfl
    | some t =>
        have length := (works.proper_feeds present (.inr ⟨j, follows, ended⟩)).full
        cases known with
        | none => exact ⟨rfl, fun s same => Option.some.inj same ▸ length⟩
        | some k =>
            have other := full k rfl
            refine ⟨?_, fun s same => Option.some.inj same ▸ ?_⟩
            · rw [ok_bind, joinEnd, join_eq other length]
              rfl
            · exact (State.length_join (other.trans length.symm)).trans other
  · intro s starts
    split at starts
    · obtain rfl := Option.some.inj starts
      exact (proper_initial b).full
    · simp at starts

theorem length_inflow (works : Works b live sol queue) (present : 0 < b.blocks.length) {i : Nat}
    {s : State} (flows : Ownership.inflow b sol i = some s) : s.length = b.locals.length :=
  (inflow_induction (fun _ _ left right => left.join right)
    (fun _ => works.proper_feeds present) flows : Proper b s).full

theorem entryAfter_eq (works : Works b live sol queue) (present : 0 < b.blocks.length) {i : Nat}
    (inside : i < b.blocks.length) :
    entryAfter b sol i = .ok ( newEntry? b sol i) := by
  rw [entryAfter, inflow_eq works present inside, newEntry?, ok_bind]
  cases flows : Ownership.inflow b sol i with
  | none => rfl
  | some s =>
      simp only [lookUp_entries works inside, ok_bind]
      cases known : sol.entry? i with
      | none => rfl
      | some old =>
          simp only [join_eq (works.proper present known).full (length_inflow works present flows),
            ok_bind]
          rfl

theorem queueAfter_eq (works : Works b live sol queue) {i : Nat} (inside : i < b.blocks.length)
    (entry : State) (rest : List Nat) :
    queueAfter b sol i (Ownership.transfer b live i entry).state rest =
      .ok (Ownership.queueAfter b live sol i entry rest) := by
  rw [queueAfter, lookUp_exits works inside, ok_bind, Ownership.queueAfter]
  split
  · rfl
  · rw [succs_eq b inside, ok_bind,
      mapM_eq fun j follows => lookUp_getD (Body.succs_inside follows) { term := .missing }]
    rfl

theorem solveFrom_eq (valid : b.isValid) (limit : Nat) (works : Works b live sol queue) :
    solveFrom b live limit sol queue = .ok (Ownership.solveFrom b live limit sol queue) := by
  have present := Body.blocks_pos valid
  fun_induction Ownership.solveFrom b live limit sol queue with
  | case1 sol => rw [solveFrom]; rfl
  | case2 sol index rest within unchanged ih =>
      have inside := works.inside present index (List.mem_cons_self ..)
      rw [solveFrom, if_pos within, entryAfter_eq works present inside, unchanged]
      exact ih (.skip works unchanged)
  | case3 sol index rest within entry found ih =>
      have inside := works.inside present index (List.mem_cons_self ..)
      have next : Works b live (sol.run b live index entry)
        (Ownership.queueAfter b live sol index entry rest) := .run works found
      have known : Solution.entry? (sol.run b live index entry) index = some entry := by
        rw [Solution.entry?_run b live entry (works.sizes.1 ▸ inside), if_pos rfl]
      rw [solveFrom, if_pos within, entryAfter_eq works present inside, found, ok_bind]
      simp only [transfer_eq valid live inside (next.proper present known).full, ok_bind,
        queueAfter_eq works inside]
      exact ih next
  | case4 sol index rest beyond =>
      rw [solveFrom, if_neg beyond]
      rfl

theorem report?_eq (valid : b.isValid) (works : Works b live sol queue) {i : Nat}
    (inside : i < b.blocks.length) : report? b live sol i =
      .ok ((sol.entry? i).map fun entry => ⟨i, (Ownership.transfer b live i entry).found⟩) := by
  rw [report?, lookUp_entries works inside]
  cases known : sol.entry? i with
  | none => rfl
  | some entry =>
      have full := (works.proper (Body.blocks_pos valid) known).full
      simp only [ok_bind, transfer_eq valid live inside full]
      rfl

theorem examine_eq (valid : b.isValid) : examine b = .ok (Ownership.examine b) := by
  have works := solve_works (.ofBody b) (Body.blocks_pos valid)
  have reports := mapM_eq fun i (member : i ∈ List.range b.blocks.length) =>
    report?_eq valid works (List.mem_range.mp member)
  rw [examine, liveness_eq, ok_bind, solveFrom_eq valid _ .start, ok_bind, ← solve, reports, ok_bind,
    Ownership.examine, List.reduceOption, List.filterMap_map]
  rfl

end Queue

end Guarded

/-- On a body without flaws no look-up of the checker is beyond what is there: not in the control
flow, the live sets, the queue, the blocks or the slots of the states. -/
theorem guarded_check {b : Body} (valid : b.isValid) :
    (∃ s, b.search? = some s ∧ Guarded.search b = .ok s) ∧ Guarded.check b = .ok (check b) := by
  obtain ⟨s, searched, _⟩ := b.search?_spec
  refine ⟨⟨s, searched, Guarded.search_eq b searched⟩, ?_⟩
  rw [Guarded.check, check, Guarded.examine_eq valid]
  split
  · rfl
  · rfl

/-- Statements, values, operands and terminators of no known kind, among a reference, a loop and a
block that is not reached. -/
def outlandish : Body where
  params := [.structNamed []]
  locals := [{ type := .unit }, { type := .structNamed [], isMut := true },
    { type := .refTo (.structNamed []) false }]
  blocks :=
    [{ statements := [.unknown, .assign 2 (.ref 1), .assign 0 .unknown], term := .goto 1 },
      { statements := [.assign 0 (.use (.unknown 2)), .drop 1],
        term := .switchInt (.unknown 0) [⟨3, 0⟩] 2 },
      { term := .unknown },
      { statements := [.assign 2 (.ref 1)], term := .call [] [.unknown 2, .move 1] (some 1) 0 }]

theorem guarded_check_outlandish :
    outlandish.isValid ∧
      (∃ s, outlandish.search? = some s ∧ Guarded.search outlandish = .ok s) ∧
      Guarded.check outlandish = .ok (check outlandish) :=
  have valid : outlandish.isValid := by decide
  ⟨valid, guarded_check valid⟩

/-- The guards are not idle: a destination that is not declared has no slot. -/
example :
    Guarded.check
      { locals := [{ type := .unit }]
        blocks := [{ statements := [.assign 5 .unknown], term := .ret }] } =
      .error (.slot 5 1) := by
  cbv

end Ownership

end BorrowChecker
