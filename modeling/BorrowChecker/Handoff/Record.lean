import BorrowChecker.Number.Double

/-!
The hand-off form of a module, as it is exchanged in binary files. Every record names its kind by a
number and has room for the contents of every kind, used or not; a list may be absent, which is not
the same as empty. Nothing is lost by reading and writing this form.
-/

namespace BorrowChecker

namespace Handoff

abbrev Slice (α : Type) := Option (List α)

structure Ty where
  kind : UInt8 := 0
  name : Text := []
  lifetime : Text := []
  elem : Option Ty := none
  elems : Option (List Ty) := none
  params : Option (List Ty) := none
  result : Option Ty := none
deriving Repr, Inhabited

structure Place where
  slot : Int32 := 0
deriving Repr, Inhabited, DecidableEq

structure Const where
  kind : UInt8 := 0
  int : Int64 := 0
  float : Double := ⟨0⟩
  bool : Bool := false
  str : Text := []
deriving Repr, DecidableEq

structure Operand where
  kind : UInt8 := 0
  place : Place := {}
  const : Const := {}
deriving Repr, DecidableEq

structure Binary where
  op : UInt8 := 0
  left : Operand := {}
  right : Operand := {}
deriving Repr, DecidableEq

structure Unary where
  op : UInt8 := 0
  value : Operand := {}
deriving Repr, DecidableEq

structure Aggregate where
  kind : UInt8 := 0
  name : Text := []
  variant : UInt32 := 0
  elems : Slice Operand := none
deriving Repr, DecidableEq

structure Cast where
  value : Operand := {}
  target : Ty := {}
deriving Repr

structure RValue where
  kind : UInt8 := 0
  use : Operand := {}
  ref : Place := {}
  binary : Binary := {}
  unary : Unary := {}
  aggregate : Aggregate := {}
  cast : Cast := {}
  len : Place := {}
  discriminant : Place := {}
deriving Repr

structure Assign where
  dst : Place := {}
  src : RValue := {}
deriving Repr

structure Drop where
  place : Place := {}
deriving Repr, DecidableEq

structure Statement where
  kind : UInt8 := 0
  assign : Assign := {}
  drop : Drop := {}
deriving Repr

structure Goto where
  target : Int32 := 0
deriving Repr, DecidableEq

structure SwitchCase where
  value : Int64 := 0
  target : Int32 := 0
deriving Repr, DecidableEq

structure SwitchInt where
  discr : Operand := {}
  cases : Slice SwitchCase := none
  otherwise : Int32 := 0
deriving Repr, DecidableEq

structure Call where
  func : Text := []
  args : Slice Operand := none
  hasDst : Bool := false
  dst : Place := {}
  target : Int32 := 0
deriving Repr, DecidableEq

structure Assert where
  cond : Operand := {}
  expected : Bool := false
  msg : Text := []
  target : Int32 := 0
deriving Repr, DecidableEq

structure Terminator where
  kind : UInt8 := 0
  goto : Goto := {}
  switchInt : SwitchInt := {}
  call : Call := {}
  assert : Assert := {}
deriving Repr, DecidableEq

structure Block where
  name : Text := []
  statements : Slice Statement := none
  term : Terminator := {}
deriving Repr

structure LocalDecl where
  name : Text := []
  type : Ty := {}
  isMut : Bool := false
  lifetime : Text := []
deriving Repr

structure Bound where
  name : Text := []
  outlives : Text := []
deriving Repr, DecidableEq

structure Body where
  name : Text := []
  params : Slice Ty := none
  result : Ty := {}
  locals : Slice LocalDecl := none
  blocks : Slice Block := none
  lifetimeParams : Slice Text := none
  lifetimeBounds : Slice Bound := none
deriving Repr

structure Module where
  name : Text := []
  bodies : Slice (Option Body) := none
deriving Repr

end Handoff

end BorrowChecker
