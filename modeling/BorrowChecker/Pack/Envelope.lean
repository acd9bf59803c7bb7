import BorrowChecker.Pack.Record

/-!
A packed module: an envelope with the number of the layout and the module itself.
-/

namespace BorrowChecker

namespace Pack

structure Envelope where
  layout : UInt16 := 0
  module : Option Handoff.Module := none
deriving Repr

def currentLayout : UInt16 := 1

def envelope (fit : Fit) : Codec Envelope := .record {} [
  field "Schema" (.uint16 fit) Envelope.layout fun e x => { e with layout := x },
  field "Module" (.option {} (module fit)) Envelope.module fun e x => { e with module := x }]

inductive Fault
  | garbled
  | otherLayout (found : UInt16)
  | noModule
deriving DecidableEq, Repr

def Fault.message? : Fault → Option Text
  | garbled => none
  | otherLayout found =>
    some (Text.ofString "msgpack schema " ++ Text.ofNat found.toNat ++ Text.ofString ", want " ++
      Text.ofNat currentLayout.toNat)
  | noModule => some (Text.ofString "msgpack payload has no module")

def encodeModule (m : Handoff.Module) : Text :=
  ((envelope .wrap).write { layout := currentLayout, module := some m }).encode

/-- The module at the front of the bytes; what follows it is ignored. -/
def decodeModule (t : Text) : Except Fault Handoff.Module :=
  match Value.take? t with
  | none => .error .garbled
  | some (v, _) =>
    match (envelope .wrap).read {} v with
    | none => .error .garbled
    | some e =>
      if e.layout = currentLayout then
        match e.module with
        | some m => .ok m
        | none => .error .noModule
      else .error (.otherLayout e.layout)

end Pack

end BorrowChecker
