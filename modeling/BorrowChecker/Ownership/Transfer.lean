import BorrowChecker.Mir.Liveness
import BorrowChecker.Ownership.State
import BorrowChecker.Ownership.Violation

/-!
What a statement, a terminator and a block do to a state, and which rules they break. An access
that breaks a rule leaves the state as it is.
-/

namespace BorrowChecker

namespace Ownership

open Mir

structure Outcome where
  state : State
  found : List Violation := []
deriving DecidableEq, Repr

namespace Outcome

def andThen (o : Outcome) (next : State → Outcome) : Outcome :=
  { state := (next o.state).state, found := o.found ++ (next o.state).found }

end Outcome

/-- Values of a local that is not declared count as copied. -/
def isCopy (b : Body) (id : LocalId) : Bool :=
  match b.local? id with
  | none => true
  | some decl => decl.type.isCopy

def useFault? (b : Body) (s : State) (id : LocalId) (loc : Location) : Option Violation :=
  if isCopy b id then none
  else
    match (s.slot id).tag with
    | .moved => some (.located .useAfterMove id (s.slot id).since loc)
    | .dropped => some (.located .useAfterFree id (s.slot id).since loc)
    | .owned | .uninitialized => none

def read (b : Body) (loc : Location) (id : LocalId) (s : State) : Outcome :=
  ⟨s, (useFault? b s id loc).toList⟩

def move (b : Body) (loc : Location) (id : LocalId) (s : State) : Outcome :=
  if isCopy b id then ⟨s, []⟩
  else
    match useFault? b s id loc with
    | some fault => ⟨s, [fault]⟩
    | none =>
      match (s.slot id).borrows with
      | br :: _ => ⟨s, [.located .moveWhileBorrowed id br.site loc]⟩
      | [] => ⟨s.update id fun slot => { slot with tag := .moved, since := loc }, []⟩

def operand (b : Body) (loc : Location) (op : Operand) (s : State) : Outcome :=
  match op with
  | .copy id => read b loc id s
  | .move id => move b loc id s
  | .const _ | .unknown _ => ⟨s, []⟩

def operands (b : Body) (loc : Location) (ops : List Operand) (s : State) : Outcome :=
  ops.foldl (fun o op => o.andThen (operand b loc op)) ⟨s, []⟩

def borrowKind (b : Body) (target : LocalId) : BorrowKind :=
  match b.local? target with
  | none => .shared
  | some decl => if decl.isMut then .exclusive else .shared

def conflicts (kind : BorrowKind) (borrows : List Borrow) : List Borrow :=
  borrows.filter fun br => kind = .exclusive || br.kind = .exclusive

def borrowFaults (b : Body) (s : State) (target : LocalId) (loc : Location) : List Violation :=
  match useFault? b s target loc with
  | some fault => [fault]
  | none =>
    (conflicts (borrowKind b target) (s.slot target).borrows).map fun br =>
      .located .mutableBorrowConflict target br.site loc

/-- Gives a local a new value. References to the old value end, and so do those it held. -/
def reinit (loc : Location) (dst : LocalId) (s : State) : State :=
  (s.update dst fun _ => { tag := .owned, since := loc, borrows := [] }).releaseHolder dst

/-- What computing a value does, apart from taking references. -/
def rvalue (b : Body) (loc : Location) (src : RValue) (s : State) : Outcome :=
  match src with
  | .use value => operand b loc value s
  | .ref target => ⟨s, borrowFaults b s target loc⟩
  | .binary _ left right => (operand b loc left s).andThen (operand b loc right)
  | .unary _ value => operand b loc value s
  | .aggregate _ elems => operands b loc elems s
  | .cast value _ => operand b loc value s
  | .len id => read b loc id s
  | .discriminant id => read b loc id s
  | .unknown => ⟨s, []⟩

def lend (b : Body) (loc : Location) (dst : LocalId) (src : RValue) (before s : State) : State :=
  match src with
  | .ref target =>
    if (borrowFaults b before target loc).isEmpty then
      s.update target fun slot => slot.addBorrow ⟨borrowKind b target, loc, dst⟩
    else s
  | _ => s

/-- An assignment computes its value, gives it to the destination, and then records the reference
it has taken. -/
def assign (b : Body) (loc : Location) (dst : LocalId) (src : RValue) (s : State) : Outcome :=
  let computed := rvalue b loc src s
  { computed with state := lend b loc dst src s (reinit loc dst computed.state) }

/-- Drops a value. What was moved away is not dropped again. -/
def drop (b : Body) (loc : Location) (id : LocalId) (s : State) : Outcome :=
  if isCopy b id then ⟨s, []⟩
  else
    match (s.slot id).tag with
    | .moved => ⟨s, []⟩
    | .dropped => ⟨s, [.located .doubleFree id (s.slot id).since loc]⟩
    | .owned | .uninitialized =>
      ⟨s.update id fun _ => { tag := .dropped, since := loc, borrows := [] }, []⟩

def statement (b : Body) (loc : Location) (st : Statement) (s : State) : Outcome :=
  match st with
  | .assign dst src => assign b loc dst src s
  | .drop id => drop b loc id s
  | .nop | .unknown => ⟨s, []⟩

def terminator (b : Body) (loc : Location) (t : Terminator) (s : State) : Outcome :=
  match t with
  | .switchInt discr _ _ => operand b loc discr s
  | .call _ args dst _ =>
    let called := operands b loc args s
    match dst with
    | some id => { called with state := reinit loc id called.state }
    | none => called
  | .assert cond _ _ _ => operand b loc cond s
  | .ret => read b loc LocalId.ret s
  | .missing | .goto _ | .unreachable | .unknown => ⟨s, []⟩

/-- Ends the references whose holder is dead. A holder that is read nowhere keeps its reference. -/
def expire (live : Liveness) (loc : Location) (s : State) : State :=
  s.map (Slot.keepBorrows fun br => !(live.read.has br.holder && !live.liveBefore loc br.holder))

def runFrom (b : Body) (live : Liveness) (block : BlockId) (term : Terminator) (index : Nat) :
    List Statement → State → Outcome
  | [], s => terminator b ⟨block, index⟩ term (expire live ⟨block, index⟩ s)
  | st :: rest, s =>
    (statement b ⟨block, index⟩ st (expire live ⟨block, index⟩ s)).andThen
      (runFrom b live block term (index + 1) rest)

def transfer (b : Body) (live : Liveness) (index : Nat) (s : State) : Outcome :=
  match b.blocks[index]? with
  | none => ⟨s, []⟩
  | some block => runFrom b live index block.term 0 block.statements s

end Ownership

end BorrowChecker
