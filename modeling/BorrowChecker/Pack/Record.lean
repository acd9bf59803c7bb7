import BorrowChecker.Handoff.Record
import BorrowChecker.Pack.Codec

/-!
The packed form of the hand-off records: every record is a map with all its fields.
-/

namespace BorrowChecker

mutual

def Handoff.Ty.depth : Handoff.Ty → Nat
  | ⟨_, _, _, elem, elems, params, result⟩ =>
    max (Handoff.Ty.depthOfOption elem)
      (max (Handoff.Ty.depthOfSlice elems)
        (max (Handoff.Ty.depthOfSlice params) (Handoff.Ty.depthOfOption result))) + 1

def Handoff.Ty.depthOfOption : Option Handoff.Ty → Nat
  | none => 0
  | some t => t.depth

def Handoff.Ty.depthOfSlice : Option (List Handoff.Ty) → Nat
  | none => 0
  | some l => Handoff.Ty.depthOfAll l

def Handoff.Ty.depthOfAll : List Handoff.Ty → Nat
  | [] => 0
  | t :: rest => max t.depth (Handoff.Ty.depthOfAll rest)

end

namespace Pack

open Handoff

def tyOfDepth (fit : Fit) : Nat → Codec Ty
  | 0 => ⟨fun _ => .nil, fun _ _ => none⟩
  | depth + 1 =>
    let inner := tyOfDepth fit depth
    .record {} [
      field "Kind" (.uint8 fit) Ty.kind fun t x => { t with kind := x },
      field "Name" .text Ty.name fun t x => { t with name := x },
      field "Lifetime" .text Ty.lifetime fun t x => { t with lifetime := x },
      field "Elem" (.option {} inner) Ty.elem fun t x => { t with elem := x },
      field "Elems" (.items {} inner) Ty.elems fun t x => { t with elems := x },
      field "Params" (.items {} inner) Ty.params fun t x => { t with params := x },
      field "Result" (.option {} inner) Ty.result fun t x => { t with result := x }]

def ty (fit : Fit) : Codec Ty where
  write t := (tyOfDepth fit t.depth).write t
  read t v := (tyOfDepth fit v.depth).read t v

def place (fit : Fit) : Codec Place := .record {} [
  field "Local" (.int32 fit) Place.slot fun p x => { p with slot := x }]

def const (fit : Fit) : Codec Const := .record {} [
  field "Kind" (.uint8 fit) Const.kind fun c x => { c with kind := x },
  field "Int" (.int64 fit) Const.int fun c x => { c with int := x },
  field "Float" .double Const.float fun c x => { c with float := x },
  field "Bool" .bool Const.bool fun c x => { c with bool := x },
  field "Str" .text Const.str fun c x => { c with str := x }]

def operand (fit : Fit) : Codec Operand := .record {} [
  field "Kind" (.uint8 fit) Operand.kind fun o x => { o with kind := x },
  field "Place" (place fit) Operand.place fun o x => { o with place := x },
  field "Const" (const fit) Operand.const fun o x => { o with const := x }]

def binary (fit : Fit) : Codec Binary := .record {} [
  field "Op" (.uint8 fit) Binary.op fun b x => { b with op := x },
  field "Left" (operand fit) Binary.left fun b x => { b with left := x },
  field "Right" (operand fit) Binary.right fun b x => { b with right := x }]

def unary (fit : Fit) : Codec Unary := .record {} [
  field "Op" (.uint8 fit) Unary.op fun u x => { u with op := x },
  field "Value" (operand fit) Unary.value fun u x => { u with value := x }]

def aggregate (fit : Fit) : Codec Aggregate := .record {} [
  field "Kind" (.uint8 fit) Aggregate.kind fun a x => { a with kind := x },
  field "Name" .text Aggregate.name fun a x => { a with name := x },
  field "Variant" (.uint32 fit) Aggregate.variant fun a x => { a with variant := x },
  field "Elems" (.items {} (operand fit)) Aggregate.elems fun a x => { a with elems := x }]

def cast (fit : Fit) : Codec Cast := .record {} [
  field "Value" (operand fit) Cast.value fun c x => { c with value := x },
  field "Target" (ty fit) Cast.target fun c x => { c with target := x }]

def rvalue (fit : Fit) : Codec RValue := .record {} [
  field "Kind" (.uint8 fit) RValue.kind fun r x => { r with kind := x },
  field "Use" (operand fit) RValue.use fun r x => { r with use := x },
  field "Ref" (place fit) RValue.ref fun r x => { r with ref := x },
  field "Binary" (binary fit) RValue.binary fun r x => { r with binary := x },
  field "Unary" (unary fit) RValue.unary fun r x => { r with unary := x },
  field "Aggregate" (aggregate fit) RValue.aggregate fun r x => { r with aggregate := x },
  field "Cast" (cast fit) RValue.cast fun r x => { r with cast := x },
  field "Len" (place fit) RValue.len fun r x => { r with len := x },
  field "Discriminant" (place fit) RValue.discriminant fun r x => { r with discriminant := x }]

def assign (fit : Fit) : Codec Assign := .record {} [
  field "Dst" (place fit) Assign.dst fun a x => { a with dst := x },
  field "Src" (rvalue fit) Assign.src fun a x => { a with src := x }]

def drop (fit : Fit) : Codec Drop := .record {} [
  field "Place" (place fit) Drop.place fun d x => { d with place := x }]

def statement (fit : Fit) : Codec Statement := .record {} [
  field "Kind" (.uint8 fit) Statement.kind fun s x => { s with kind := x },
  field "Assign" (assign fit) Statement.assign fun s x => { s with assign := x },
  field "Drop" (drop fit) Statement.drop fun s x => { s with drop := x }]

def goto (fit : Fit) : Codec Goto := .record {} [
  field "Target" (.int32 fit) Goto.target fun g x => { g with target := x }]

def switchCase (fit : Fit) : Codec SwitchCase := .record {} [
  field "Value" (.int64 fit) SwitchCase.value fun c x => { c with value := x },
  field "Target" (.int32 fit) SwitchCase.target fun c x => { c with target := x }]

def switchInt (fit : Fit) : Codec SwitchInt := .record {} [
  field "Discr" (operand fit) SwitchInt.discr fun s x => { s with discr := x },
  field "Cases" (.items {} (switchCase fit)) SwitchInt.cases fun s x => { s with cases := x },
  field "Otherwise" (.int32 fit) SwitchInt.otherwise fun s x => { s with otherwise := x }]

def call (fit : Fit) : Codec Call := .record {} [
  field "Func" .text Call.func fun c x => { c with func := x },
  field "Args" (.items {} (operand fit)) Call.args fun c x => { c with args := x },
  field "HasDst" .bool Call.hasDst fun c x => { c with hasDst := x },
  field "Dst" (place fit) Call.dst fun c x => { c with dst := x },
  field "Target" (.int32 fit) Call.target fun c x => { c with target := x }]

def assert (fit : Fit) : Codec Assert := .record {} [
  field "Cond" (operand fit) Assert.cond fun a x => { a with cond := x },
  field "Expected" .bool Assert.expected fun a x => { a with expected := x },
  field "Msg" .text Assert.msg fun a x => { a with msg := x },
  field "Target" (.int32 fit) Assert.target fun a x => { a with target := x }]

def terminator (fit : Fit) : Codec Terminator := .record {} [
  field "Kind" (.uint8 fit) Terminator.kind fun t x => { t with kind := x },
  field "Goto" (goto fit) Terminator.goto fun t x => { t with goto := x },
  field "SwitchInt" (switchInt fit) Terminator.switchInt fun t x => { t with switchInt := x },
  field "Call" (call fit) Terminator.call fun t x => { t with call := x },
  field "Assert" (assert fit) Terminator.assert fun t x => { t with assert := x }]

def block (fit : Fit) : Codec Block := .record {} [
  field "Name" .text Block.name fun b x => { b with name := x },
  field "Statements" (.items {} (statement fit)) Block.statements
    fun b x => { b with statements := x },
  field "Term" (terminator fit) Block.term fun b x => { b with term := x }]

def localDecl (fit : Fit) : Codec LocalDecl := .record {} [
  field "Name" .text LocalDecl.name fun l x => { l with name := x },
  field "Type" (ty fit) LocalDecl.type fun l x => { l with type := x },
  field "Mutable" .bool LocalDecl.isMut fun l x => { l with isMut := x },
  field "Lifetime" .text LocalDecl.lifetime fun l x => { l with lifetime := x }]

def bound : Codec Bound := .record {} [
  field "Name" .text Bound.name fun b x => { b with name := x },
  field "Outlives" .text Bound.outlives fun b x => { b with outlives := x }]

def body (fit : Fit) : Codec Body := .record {} [
  field "Name" .text Body.name fun b x => { b with name := x },
  field "Params" (.items {} (ty fit)) Body.params fun b x => { b with params := x },
  field "Result" (ty fit) Body.result fun b x => { b with result := x },
  field "Locals" (.items {} (localDecl fit)) Body.locals fun b x => { b with locals := x },
  field "Blocks" (.items {} (block fit)) Body.blocks fun b x => { b with blocks := x },
  field "LifetimeParams" (.items [] .text) Body.lifetimeParams
    fun b x => { b with lifetimeParams := x },
  field "LifetimeBounds" (.items {} bound) Body.lifetimeBounds
    fun b x => { b with lifetimeBounds := x }]

def module (fit : Fit) : Codec Module := .record {} [
  field "Name" .text Module.name fun m x => { m with name := x },
  field "Bodies" (.items none (.option {} (body fit))) Module.bodies
    fun m x => { m with bodies := x }]

end Pack

end BorrowChecker
