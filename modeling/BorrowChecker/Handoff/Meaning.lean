import BorrowChecker.Handoff.Record
import BorrowChecker.Mir.Body

/-!
What a hand-off record means, and the record of a module. A record of a kind that is not known
means the `unknown` case; what a record carries besides the contents of its kind has no meaning,
types excepted.
-/

namespace BorrowChecker

namespace Mir.Shape

def coded : List Shape :=
  [unit, i8, i16, i32, i64, i128, u8, u16, u32, u64, u128, f32, f64, bool, char, str, never,
    pointer, ref, refMut, refLifetime, refMutLifetime, array, tuple, struct, enum, function]

def ofCode (code : UInt8) : Shape := coded.getD code.toNat .unknown

def code (s : Shape) : UInt8 := (coded.idxOf s).toUInt8

end Mir.Shape

namespace Handoff

def Slice.members {α : Type} (s : Slice α) : List α := s.getD []

def Slice.ofList {α : Type} (l : List α) : Slice α := if l.isEmpty then none else some l

mutual

def Ty.meaning : Ty → Mir.Ty
  | ⟨kind, name, lifetime, elem, elems, params, result⟩ =>
    { shape := .ofCode kind, name, lifetime, elem := meaningOfOption elem,
      elems := meaningOfSlice elems, params := meaningOfSlice params,
      result := meaningOfOption result }

def Ty.meaningOfOption : Option Ty → Option Mir.Ty
  | none => none
  | some t => some t.meaning

def Ty.meaningOfSlice : Option (List Ty) → List Mir.Ty
  | none => []
  | some ts => meaningOfAll ts

def Ty.meaningOfAll : List Ty → List Mir.Ty
  | [] => []
  | t :: ts => t.meaning :: meaningOfAll ts

end

mutual

def Ty.ofMir : Mir.Ty → Ty
  | ⟨shape, name, lifetime, elem, elems, params, result⟩ =>
    { kind := shape.code, name, lifetime, elem := ofMirOption elem,
      elems := Slice.ofList (ofMirAll elems), params := Slice.ofList (ofMirAll params),
      result := ofMirOption result }

def Ty.ofMirOption : Option Mir.Ty → Option Ty
  | none => none
  | some t => some (ofMir t)

def Ty.ofMirAll : List Mir.Ty → List Ty
  | [] => []
  | t :: ts => ofMir t :: ofMirAll ts

end

namespace Place

def meaning (p : Place) : Mir.LocalId := p.slot.toInt

def ofMir (id : Mir.LocalId) : Place := ⟨Int32.ofInt id⟩

end Place

namespace Const

def meaning (c : Const) : Mir.Const :=
  match c.kind with
  | 0 => .int c.int
  | 1 => .float c.float
  | 2 => .bool c.bool
  | 3 => .str c.str
  | 4 => .unit
  | _ => .unknown

def ofMir : Mir.Const → Const
  | .int int => { int }
  | .float float => { kind := 1, float }
  | .bool bool => { kind := 2, bool }
  | .str str => { kind := 3, str }
  | .unit => { kind := 4 }
  | .unknown => { kind := 5 }

end Const

namespace Operand

def meaning (op : Operand) : Mir.Operand :=
  match op.kind with
  | 0 => .copy op.place.meaning
  | 1 => .move op.place.meaning
  | 2 => .const op.const.meaning
  | _ => .unknown op.place.meaning

def ofMir : Mir.Operand → Operand
  | .copy id => { place := .ofMir id }
  | .move id => { kind := 1, place := .ofMir id }
  | .const c => { kind := 2, const := .ofMir c }
  | .unknown id => { kind := 3, place := .ofMir id }

end Operand

def binaryOpOfCode (code : UInt8) : Mir.BinaryOp := Mir.BinaryOp.known.getD code.toNat .unknown

def codeOfBinaryOp (op : Mir.BinaryOp) : UInt8 := (Mir.BinaryOp.known.idxOf op).toUInt8

def unaryOpOfCode (code : UInt8) : Mir.UnaryOp :=
  match code with
  | 0 => .neg
  | 1 => .not
  | _ => .unknown

def codeOfUnaryOp : Mir.UnaryOp → UInt8
  | .neg => 0
  | .not => 1
  | .unknown => 2

namespace Aggregate

def head (a : Aggregate) : Mir.AggregateHead :=
  match a.kind with
  | 0 => .tuple
  | 1 => .array
  | 2 => .struct a.name
  | 3 => .enum a.name a.variant
  | _ => .unknown

def ofMir (head : Mir.AggregateHead) (elems : List Mir.Operand) : Aggregate :=
  let elems := Slice.ofList (elems.map Operand.ofMir)
  match head with
  | .tuple => { elems }
  | .array => { kind := 1, elems }
  | .struct name => { kind := 2, name, elems }
  | .enum name variant => { kind := 3, name, variant, elems }
  | .unknown => { kind := 4, elems }

end Aggregate

namespace RValue

def meaning (rv : RValue) : Mir.RValue :=
  match rv.kind with
  | 0 => .use rv.use.meaning
  | 1 => .ref rv.ref.meaning
  | 2 => .binary (binaryOpOfCode rv.binary.op) rv.binary.left.meaning rv.binary.right.meaning
  | 3 => .unary (unaryOpOfCode rv.unary.op) rv.unary.value.meaning
  | 4 => .aggregate rv.aggregate.head (rv.aggregate.elems.members.map Operand.meaning)
  | 5 => .cast rv.cast.value.meaning rv.cast.target.meaning
  | 6 => .len rv.len.meaning
  | 7 => .discriminant rv.discriminant.meaning
  | _ => .unknown

def ofMir : Mir.RValue → RValue
  | .use op => { use := .ofMir op }
  | .ref id => { kind := 1, ref := .ofMir id }
  | .binary op left right =>
    { kind := 2, binary := { op := codeOfBinaryOp op, left := .ofMir left, right := .ofMir right } }
  | .unary op value => { kind := 3, unary := { op := codeOfUnaryOp op, value := .ofMir value } }
  | .aggregate head elems => { kind := 4, aggregate := .ofMir head elems }
  | .cast value target => { kind := 5, cast := { value := .ofMir value, target := .ofMir target } }
  | .len id => { kind := 6, len := .ofMir id }
  | .discriminant id => { kind := 7, discriminant := .ofMir id }
  | .unknown => { kind := 8 }

end RValue

namespace Statement

def meaning (s : Statement) : Mir.Statement :=
  match s.kind with
  | 0 => .assign s.assign.dst.meaning s.assign.src.meaning
  | 1 => .drop s.drop.place.meaning
  | 2 => .nop
  | _ => .unknown

def ofMir : Mir.Statement → Statement
  | .assign dst src => { assign := { dst := .ofMir dst, src := .ofMir src } }
  | .drop id => { kind := 1, drop := { place := .ofMir id } }
  | .nop => { kind := 2 }
  | .unknown => { kind := 3 }

end Statement

namespace Terminator

def caseMeaning (c : SwitchCase) : Mir.SwitchCase := ⟨c.value, c.target.toInt⟩

def caseOfMir (c : Mir.SwitchCase) : SwitchCase := ⟨c.value, Int32.ofInt c.target⟩

def meaning (t : Terminator) : Mir.Terminator :=
  match t.kind with
  | 0 => .missing
  | 1 => .goto t.goto.target.toInt
  | 2 =>
    .switchInt t.switchInt.discr.meaning (t.switchInt.cases.members.map caseMeaning)
      t.switchInt.otherwise.toInt
  | 3 => .ret
  | 4 => .unreachable
  | 5 =>
    .call t.call.func (t.call.args.members.map Operand.meaning)
      (if t.call.hasDst then some t.call.dst.meaning else none) t.call.target.toInt
  | 6 =>
    .assert t.assert.cond.meaning t.assert.expected t.assert.msg t.assert.target.toInt
  | _ => .unknown

def ofMir : Mir.Terminator → Terminator
  | .missing => {}
  | .goto target => { kind := 1, goto := { target := Int32.ofInt target } }
  | .switchInt discr cases otherwise =>
    { kind := 2, switchInt :=
      { discr := .ofMir discr, cases := Slice.ofList (cases.map caseOfMir),
        otherwise := Int32.ofInt otherwise } }
  | .ret => { kind := 3 }
  | .unreachable => { kind := 4 }
  | .call func args dst target =>
    { kind := 5, call :=
      { func, args := Slice.ofList (args.map Operand.ofMir), hasDst := dst.isSome,
        dst := (dst.map Place.ofMir).getD {}, target := Int32.ofInt target } }
  | .assert cond expected msg target =>
    { kind := 6, assert :=
      { cond := .ofMir cond, expected, msg, target := Int32.ofInt target } }
  | .unknown => { kind := 7 }

end Terminator

namespace Block

def meaning (b : Block) : Mir.Block :=
  { name := b.name, statements := b.statements.members.map Statement.meaning,
    term := b.term.meaning }

def ofMir (b : Mir.Block) : Block :=
  { name := b.name, statements := Slice.ofList (b.statements.map Statement.ofMir),
    term := .ofMir b.term }

end Block

namespace LocalDecl

def meaning (l : LocalDecl) : Mir.LocalDecl :=
  { name := l.name, type := l.type.meaning, isMut := l.isMut, lifetime := l.lifetime }

def ofMir (l : Mir.LocalDecl) : LocalDecl :=
  { name := l.name, type := .ofMir l.type, isMut := l.isMut, lifetime := l.lifetime }

end LocalDecl

namespace Bound

def meaning (b : Bound) : Mir.Bound := ⟨b.name, b.outlives⟩

def ofMir (b : Mir.Bound) : Bound := ⟨b.name, b.outlives⟩

end Bound

namespace Body

def meaning (b : Body) : Mir.Body :=
  { name := b.name
    params := b.params.members.map Ty.meaning
    result := b.result.meaning
    locals := b.locals.members.map LocalDecl.meaning
    blocks := b.blocks.members.map Block.meaning
    lifetimeParams := b.lifetimeParams.members
    lifetimeBounds := b.lifetimeBounds.members.map Bound.meaning }

def ofMir (b : Mir.Body) : Body :=
  { name := b.name
    params := Slice.ofList (b.params.map Ty.ofMir)
    result := .ofMir b.result
    locals := Slice.ofList (b.locals.map LocalDecl.ofMir)
    blocks := Slice.ofList (b.blocks.map Block.ofMir)
    lifetimeParams := Slice.ofList b.lifetimeParams
    lifetimeBounds := Slice.ofList (b.lifetimeBounds.map Bound.ofMir) }

end Body

namespace Module

def meaning (m : Module) : Mir.Module :=
  { name := m.name, bodies := m.bodies.members.map fun b => b.map Body.meaning }

def ofMir (m : Mir.Module) : Module :=
  { name := m.name, bodies := Slice.ofList (m.bodies.map fun b => b.map Body.ofMir) }

end Module

end Handoff

end BorrowChecker
