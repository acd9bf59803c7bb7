import BorrowChecker.Mir.Type
import BorrowChecker.Number.Double

/-!
Operands and the values that an assignment computes. Every inductive type has a case for what is
read from outside and is none of the known kinds; such parts have no effect.
-/

namespace BorrowChecker

namespace Mir

abbrev LocalId := Int

namespace LocalId

def missing : LocalId := -1

def ret : LocalId := 0

def print (id : LocalId) : Text := "_" ++ Text.ofInt id

end LocalId

inductive Const where
  | int (value : Int64)
  | float (value : Double)
  | bool (value : Bool)
  | str (value : Text)
  | unit
  | unknown
deriving DecidableEq, Repr

namespace Const

/-- A float is written with a point or an exponent, so that it does not read as an integer. -/
def printFloat (value : Double) : Text :=
  let text := value.general
  if text.any fun b => b == 46 || b == 101 || b == 73 || b == 78 then text else text ++ ".0"

def print : Const → Text
  | int value => Text.ofInt value.toInt
  | float value => printFloat value
  | bool value => if value then "true" else "false"
  | str value => Quoted.encode value
  | unit => "()"
  | unknown => "?"

end Const

inductive Operand where
  | copy (place : LocalId)
  | move (place : LocalId)
  | const (value : Const)
  | unknown (place : LocalId)
deriving DecidableEq, Repr

namespace Operand

/-- The local that an operand reads. Only a constant reads none. -/
def reads? : Operand → Option LocalId
  | copy place => some place
  | move place => some place
  | const _ => none
  | unknown place => some place

def reads (op : Operand) : List LocalId := op.reads?.toList

def print : Operand → Text
  | copy place => "copy " ++ place.print
  | move place => "move " ++ place.print
  | const value => "const " ++ value.print
  | unknown _ => "<invalid operand>"

def printAll (ops : List Operand) : Text := Text.joined ", " (ops.map print)

end Operand

inductive BinaryOp where
  | add | sub | mul | div | rem
  | bitAnd | bitOr | bitXor
  | shl | shr
  | eq | ne | lt | le | gt | ge
  | unknown
deriving DecidableEq, Repr

namespace BinaryOp

def known : List BinaryOp :=
  [add, sub, mul, div, rem, bitAnd, bitOr, bitXor, shl, shr, eq, ne, lt, le, gt, ge]

def print : BinaryOp → Text
  | add => "Add"
  | sub => "Sub"
  | mul => "Mul"
  | div => "Div"
  | rem => "Rem"
  | bitAnd => "BitAnd"
  | bitOr => "BitOr"
  | bitXor => "BitXor"
  | shl => "Shl"
  | shr => "Shr"
  | eq => "Eq"
  | ne => "Ne"
  | lt => "Lt"
  | le => "Le"
  | gt => "Gt"
  | ge => "Ge"
  | unknown => "BinOp?"

def ofName? (name : Text) : Option BinaryOp := known.find? fun op => op.print == name

end BinaryOp

inductive UnaryOp where
  | neg
  | not
  | unknown
deriving DecidableEq, Repr

namespace UnaryOp

def print : UnaryOp → Text
  | neg => "Neg"
  | not => "Not"
  | unknown => "UnOp?"

end UnaryOp

inductive AggregateHead where
  | tuple
  | array
  | struct (name : Text)
  | enum (name : Text) (variant : UInt32)
  | unknown
deriving DecidableEq, Repr

namespace AggregateHead

def print : AggregateHead → Text
  | tuple => "tuple"
  | array => "array"
  | struct name => "struct " ++ name
  | enum name variant => "enum " ++ name ++ "::" ++ Text.ofNat variant.toNat
  | unknown => []

end AggregateHead

inductive RValue where
  | use (value : Operand)
  | ref (place : LocalId)
  | binary (op : BinaryOp) (left right : Operand)
  | unary (op : UnaryOp) (value : Operand)
  | aggregate (head : AggregateHead) (elems : List Operand)
  | cast (value : Operand) (target : Ty)
  | len (place : LocalId)
  | discriminant (place : LocalId)
  | unknown
deriving Repr

namespace RValue

/-- The locals that a value reads, in order and with repeats. Taking a reference is a read. -/
def reads : RValue → List LocalId
  | use value => value.reads
  | ref place => [place]
  | binary _ left right => left.reads ++ right.reads
  | unary _ value => value.reads
  | aggregate _ elems => elems.flatMap Operand.reads
  | cast value _ => value.reads
  | len place => [place]
  | discriminant place => [place]
  | unknown => []

def print : RValue → Text
  | use value => value.print
  | ref place => "&" ++ place.print
  | binary op left right => op.print ++ "(" ++ left.print ++ ", " ++ right.print ++ ")"
  | unary op value => op.print ++ "(" ++ value.print ++ ")"
  | aggregate head elems => head.print ++ "(" ++ Operand.printAll elems ++ ")"
  | cast value target => "cast " ++ value.print ++ " as " ++ target.print
  | len place => "len(" ++ place.print ++ ")"
  | discriminant place => "discriminant(" ++ place.print ++ ")"
  | unknown => "<invalid rvalue>"

end RValue

end Mir

end BorrowChecker
