import BorrowChecker.Mir.Operand

/-!
Statements, terminators, bodies and modules, with what each reads and writes.
-/

namespace BorrowChecker

namespace Mir

abbrev BlockId := Int

namespace BlockId

def missing : BlockId := -1

def print (id : BlockId) : Text := "bb" ++ Text.ofInt id

end BlockId

/-- A statement of a block. The number after the last statement is that of the terminator. -/
structure Location where
  block : BlockId
  statement : Int
deriving DecidableEq, Repr

namespace Location

def print (l : Location) : Text := Text.ofInt l.block ++ ":" ++ Text.ofInt l.statement

def before (l o : Location) : Bool :=
  if l.block ≠ o.block then l.block < o.block else l.statement < o.statement

end Location

inductive Statement where
  | assign (dst : LocalId) (src : RValue)
  | drop (place : LocalId)
  | nop
  | unknown
deriving Repr

namespace Statement

/-- The locals that a statement reads. Dropping is a read. -/
def reads : Statement → List LocalId
  | assign _ src => src.reads
  | drop place => [place]
  | nop => []
  | unknown => []

/-- The locals that a statement overwrites. Dropping is a write. -/
def writes : Statement → List LocalId
  | assign dst _ => [dst]
  | drop place => [place]
  | nop => []
  | unknown => []

def print : Statement → Text
  | assign dst src => dst.print ++ " = " ++ src.print
  | drop place => "drop(" ++ place.print ++ ")"
  | nop => "nop"
  | unknown => "<invalid statement>"

end Statement

structure SwitchCase where
  value : Int64
  target : BlockId
deriving DecidableEq, Repr

inductive Terminator where
  | missing
  | goto (target : BlockId)
  | switchInt (discr : Operand) (cases : List SwitchCase) (otherwise : BlockId)
  | ret
  | unreachable
  | call (func : Text) (args : List Operand) (dst : Option LocalId) (target : BlockId)
  | assert (cond : Operand) (expected : Bool) (msg : Text) (target : BlockId)
  | unknown
deriving DecidableEq, Repr

namespace Terminator

/-- The blocks control may go to: the cases of a switch in order, then its fallback. -/
def successors : Terminator → List BlockId
  | goto target => [target]
  | switchInt _ cases otherwise => cases.map SwitchCase.target ++ [otherwise]
  | call _ _ _ target => [target]
  | assert _ _ _ target => [target]
  | missing | ret | unreachable | unknown => []

/-- The locals that a terminator reads. Returning reads the return local. -/
def reads : Terminator → List LocalId
  | switchInt discr _ _ => discr.reads
  | ret => [LocalId.ret]
  | call _ args _ _ => args.flatMap Operand.reads
  | assert cond _ _ _ => cond.reads
  | missing | goto _ | unreachable | unknown => []

def writes : Terminator → List LocalId
  | call _ _ dst _ => dst.toList
  | _ => []

def printCase (c : SwitchCase) : Text :=
  Text.ofInt c.value.toInt ++ ": " ++ c.target.print ++ ", "

def print : Terminator → Text
  | goto target => "goto -> " ++ target.print
  | switchInt discr cases otherwise =>
    "switchInt(" ++ discr.print ++ ") -> [" ++ cases.flatMap printCase ++ "otherwise: " ++
      otherwise.print ++ "]"
  | ret => "return"
  | unreachable => "unreachable"
  | call func args dst target =>
    let line := func ++ "(" ++ Operand.printAll args ++ ") -> " ++ target.print
    match dst with
    | some place => place.print ++ " = " ++ line
    | none => line
  | assert cond expected msg target =>
    "assert(" ++ cond.print ++ ", " ++ (if expected then "true" else "false") ++ ", " ++
      Quoted.encode msg ++ ") -> " ++ target.print
  | missing => "<unterminated>"
  | unknown => "<invalid terminator>"

end Terminator

structure LocalDecl where
  name : Text := []
  type : Ty
  isMut : Bool := false
  lifetime : Text := []
deriving Repr

structure Bound where
  name : Text
  outlives : Text
deriving DecidableEq, Repr

namespace Bound

def print (b : Bound) : Text := "'" ++ b.name ++ ": '" ++ b.outlives

end Bound

structure Block where
  name : Text := []
  statements : List Statement := []
  term : Terminator := .missing
deriving Repr

/-- One function. The first local is the return slot and the parameters follow it. -/
structure Body where
  name : Text := []
  params : List Ty := []
  result : Ty := .unit
  locals : List LocalDecl := []
  blocks : List Block := []
  lifetimeParams : List Text := []
  lifetimeBounds : List Bound := []
deriving Repr

namespace Body

def local? (b : Body) (id : LocalId) : Option LocalDecl :=
  if id < 0 then none else b.locals[id.toNat]?

def block? (b : Body) (id : BlockId) : Option Block :=
  if id < 0 then none else b.blocks[id.toNat]?

def isParam (b : Body) (id : LocalId) : Bool := 1 ≤ id && id ≤ b.params.length

def localName (b : Body) (id : LocalId) : Text :=
  match b.local? id with
  | some decl => if decl.name.isEmpty then id.print else decl.name
  | none => id.print

end Body

/-- Functions under a name. A body may be absent in a module read from outside. -/
structure Module where
  name : Text := []
  bodies : List (Option Body) := []
deriving Repr

namespace Module

def body? (m : Module) (name : Text) : Option Body :=
  m.bodies.findSome? fun
    | some b => if b.name = name then some b else none
    | none => none

end Module

end Mir

end BorrowChecker
