import BorrowChecker.Text.Quoted

/-!
Types of the mid-level representation. A type is a shape with whatever is attached to it: a
pointee or element, tuple elements, parameters and a result. A well-made type attaches only what
its shape calls for; types read from outside may carry more, and the lifetimes of those parts count
too.
-/

namespace BorrowChecker

namespace Mir

inductive Shape where
  | unit
  | i8 | i16 | i32 | i64 | i128
  | u8 | u16 | u32 | u64 | u128
  | f32 | f64
  | bool
  | char
  | str
  | never
  | pointer
  | ref
  | refMut
  | refLifetime
  | refMutLifetime
  | array
  | tuple
  | struct
  | enum
  | function
  | unknown
deriving DecidableEq, Repr

namespace Shape

def scalarName? : Shape → Option Text
  | unit => some "()"
  | i8 => some "i8"
  | i16 => some "i16"
  | i32 => some "i32"
  | i64 => some "i64"
  | i128 => some "i128"
  | u8 => some "u8"
  | u16 => some "u16"
  | u32 => some "u32"
  | u64 => some "u64"
  | u128 => some "u128"
  | f32 => some "f32"
  | f64 => some "f64"
  | bool => some "bool"
  | char => some "char"
  | str => some "str"
  | never => some "!"
  | _ => none

def scalars : List Shape :=
  [unit, i8, i16, i32, i64, i128, u8, u16, u32, u64, u128, f32, f64, bool, char, str, never]

def ofScalarName? (name : Text) : Option Shape :=
  scalars.find? fun s => s.scalarName? == some name

/-- Whether values are duplicated on a move. Strings and compound values own their contents. -/
def isCopy : Shape → Bool
  | str | array | tuple | struct | enum => false
  | _ => true

def isRef : Shape → Bool
  | ref | refMut | refLifetime | refMutLifetime => true
  | _ => false

end Shape

structure Ty where
  shape : Shape
  name : Text := []
  lifetime : Text := []
  elem : Option Ty := none
  elems : List Ty := []
  params : List Ty := []
  result : Option Ty := none
deriving Repr

namespace Ty

def scalar (s : Shape) : Ty := { shape := s }

def unit : Ty := scalar .unit

def pointerTo (elem : Ty) : Ty := { shape := .pointer, elem := some elem }

def refTo (elem : Ty) (isMut : Bool) : Ty :=
  { shape := if isMut then .refMut else .ref, elem := some elem }

def refWithLifetime (lifetime : Text) (elem : Ty) (isMut : Bool) : Ty :=
  { shape := if isMut then .refMutLifetime else .refLifetime, lifetime, elem := some elem }

def structNamed (name : Text) : Ty := { shape := .struct, name }

def enumNamed (name : Text) : Ty := { shape := .enum, name }

def arrayOf (elem : Ty) : Ty := { shape := .array, elem := some elem }

def tupleOf (elems : List Ty) : Ty := { shape := .tuple, elems }

def functionOf (params : List Ty) (result : Ty) : Ty :=
  { shape := .function, params, result := some result }

def isCopy (t : Ty) : Bool := t.shape.isCopy

def isRef (t : Ty) : Bool := t.shape.isRef

mutual

/-- The lifetime that a parameter of this type contributes to elision: that of a reference at the
top, or the first found among tuple elements. -/
def inputLifetime? : Ty → Option Text
  | ⟨shape, _, lifetime, _, elems, _, _⟩ =>
    if shape.isRef then if lifetime.isEmpty then none else some lifetime
    else if shape = .tuple then firstInputLifetime? elems
    else none

def firstInputLifetime? : List Ty → Option Text
  | [] => none
  | t :: ts =>
    match t.inputLifetime? with
    | some lifetime => some lifetime
    | none => firstInputLifetime? ts

end

mutual

def lifetimes : Ty → List Text
  | ⟨_, _, lifetime, elem, elems, params, result⟩ =>
    (if lifetime.isEmpty then [] else [lifetime]) ++ lifetimesOfOption elem ++
      lifetimesOfAll elems ++ lifetimesOfAll params ++ lifetimesOfOption result

def lifetimesOfOption : Option Ty → List Text
  | none => []
  | some t => t.lifetimes

def lifetimesOfAll : List Ty → List Text
  | [] => []
  | t :: ts => t.lifetimes ++ lifetimesOfAll ts

end

mutual

def print : Ty → Text
  | ⟨shape, name, lifetime, elem, elems, params, result⟩ =>
    match shape with
    | .pointer => "*" ++ printElem elem
    | .ref => "&" ++ printElem elem
    | .refMut => "&mut " ++ printElem elem
    | .refLifetime => "&'" ++ lifetime ++ " " ++ printElem elem
    | .refMutLifetime => "&'" ++ lifetime ++ " mut " ++ printElem elem
    | .array => "[" ++ printElem elem ++ "]"
    | .tuple =>
      "(" ++ Text.joined ", " (printAll elems) ++ (if elems.length = 1 then "," else "") ++ ")"
    | .struct => name
    | .enum => "enum " ++ name
    | .function =>
      "fn(" ++ Text.joined ", " (printAll params) ++ ") -> " ++ printResult result
    | .unknown => "<invalid>"
    | s => s.scalarName?.getD []

def printElem : Option Ty → Text
  | none => "?"
  | some t => t.print

def printResult : Option Ty → Text
  | none => "()"
  | some t => t.print

def printAll : List Ty → List Text
  | [] => []
  | t :: ts => t.print :: printAll ts

end

end Ty

end Mir

end BorrowChecker
