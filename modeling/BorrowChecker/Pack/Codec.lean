import BorrowChecker.Pack.Value

/-!
How typed data is written as packed values and read back. Reading is generous: a number may have any
form, nothing stands for zero, a record may be a map in any order or the bare array of its fields,
and members that a record does not know are passed over. Reading starts from a value that is there
already and changes only what it finds.
-/

namespace BorrowChecker

namespace Pack

/-- What becomes of a number that is too large for its field. -/
inductive Fit
  | wrap
  | refuse
deriving DecidableEq, Repr

def Fit.admits (fit : Fit) (low high v : Int) : Bool :=
  match fit with
  | wrap => true
  | refuse => low ≤ v && v ≤ high

structure Codec (α : Type) where
  write : α → Value
  /-- Reads over a value that is there already. -/
  read : α → Value → Option α

namespace Value

def int? : Value → Option Int
  | nil => some 0
  | int _ v => some v
  | _ => none

def text? : Value → Option Text
  | nil => some []
  | text t | bytes t => some t
  | _ => none

def intWithin? (fit : Fit) (low high : Int) (v : Value) : Option Int :=
  v.int?.filter (fit.admits low high)

end Value

namespace Codec

def uint8 (fit : Fit) : Codec UInt8 where
  write n := .int .u8 n.toNat
  read _ v := (v.intWithin? fit 0 0xFF).map UInt8.ofInt

def uint16 (fit : Fit) : Codec UInt16 where
  write n := .int .u16 n.toNat
  read _ v := (v.intWithin? fit 0 0xFFFF).map UInt16.ofInt

def uint32 (fit : Fit) : Codec UInt32 where
  write n := .int .u32 n.toNat
  read _ v := (v.intWithin? fit 0 0xFFFFFFFF).map UInt32.ofInt

def int32 (fit : Fit) : Codec Int32 where
  write n := .int .i32 n.toInt
  read _ v := (v.intWithin? fit (-0x80000000) 0x7FFFFFFF).map Int32.ofInt

def int64 (fit : Fit) : Codec Int64 where
  write n := .int .i64 n.toInt
  read _ v := (v.intWithin? fit (-0x8000000000000000) 0x7FFFFFFFFFFFFFFF).map Int64.ofInt

def id32 (fit : Fit) : Codec Int where
  write n := .int .i32 n
  read _ v := (v.intWithin? fit (-0x80000000) 0x7FFFFFFF).map fun n => n.bmod 0x100000000

/-- An integer of sixty-four bits, held without a bound and written in the shortest form. -/
def count (fit : Fit) : Codec Int where
  write n := .int (.shortest n) n
  read _ v := (v.intWithin? fit (-0x8000000000000000) 0x7FFFFFFFFFFFFFFF).map fun n => n.bmod 0x10000000000000000

def bool : Codec Bool where
  write b := .bool b
  read
    | _, .nil => some false
    | _, .bool b => some b
    | _, _ => none

/-- A double; an integer stands for the double nearest to it. -/
def double : Codec Double where
  write x := .double x
  read
    | _, .single bits => some (.ofSingle bits)
    | _, .double x => some x
    | _, v => v.int?.map fun n => .ofInt (n.bmod 0x10000000000000000)

def text : Codec Text where
  write t := .text t
  read _ v := v.text?

/-- A value that may be missing; one that is not is read over the given blank. -/
def option {α : Type} (blank : α) (c : Codec α) : Codec (Option α) where
  write
    | none => .nil
    | some a => c.write a
  read
    | _, .nil => some none
    | old, v => (c.read (old.getD blank) v).map some

def items {α : Type} (blank : α) (c : Codec α) : Codec (Option (List α)) where
  write
    | none => .nil
    | some l => .array (l.map c.write)
  read
    | _, .nil => some none
    | _, .array items => (items.mapM (c.read blank)).map some
    | _, _ => none

end Codec

structure Field (α : Type) where
  name : Text
  write : α → Value
  set : α → Value → Option α

def field {α β : Type} (name : String) (c : Codec β) (get : α → β) (put : α → β → α) : Field α where
  name := name
  write a := c.write (get a)
  set a v := (c.read (get a) v).map (put a)

def setMember {α : Type} (fields : List (Field α)) (a : α) (member : Value × Value) : Option α :=
  match member.1.text? with
  | none => none
  | some name =>
    match fields.find? fun f => f.name == name with
    | none => some a
    | some f => f.set a member.2

def Codec.record {α : Type} (blank : α) (fields : List (Field α)) : Codec α where
  write a := .map (fields.map fun f => (.text f.name, f.write a))
  read
    | _, .nil => some blank
    | a, .map members => members.foldlM (setMember fields) a
    | a, .array items =>
      if items.isEmpty then some blank
      else if items.length = fields.length then
        (fields.zip items).foldlM (fun a (f, v) => f.set a v) a
      else none
    | _, _ => none

end Pack

end BorrowChecker
