import BorrowChecker.Number.Double

/-!
Packed values: a compact binary form of nested data. The first byte of a value tells its kind and,
for a short one, its size; longer ones are followed by their size or their digits in base 256, the
most significant first. Reading a value takes exactly its bytes and leaves the rest.
-/

namespace BorrowChecker

namespace Pack

/-- How an integer is written: in the first byte itself, or in so many bits after it. -/
inductive IntForm
  | tiny
  | u8
  | u16
  | u32
  | u64
  | i8
  | i16
  | i32
  | i64
deriving DecidableEq, Repr

inductive Value
  | nil
  | bool (b : Bool)
  | int (form : IntForm) (v : Int)
  | single (bits : UInt32)
  | double (x : Double)
  | text (t : Text)
  | bytes (t : Text)
  | array (items : List Value)
  | map (members : List (Value × Value))
  | extension (kind : UInt8) (data : Text)
deriving Repr, Inhabited

/-- The last so many digits of a number in base 256, the most significant first. -/
def digits : Nat → Nat → Text
  | 0, _ => []
  | width + 1, n => digits width (n / 256) ++ [n.toUInt8]

def ofDigits (t : Text) : Nat := t.foldl (fun n b => n * 256 + b.toNat) 0

namespace IntForm

def width : IntForm → Nat
  | tiny => 0
  | u8 | i8 => 1
  | u16 | i16 => 2
  | u32 | i32 => 4
  | u64 | i64 => 8

def lead : IntForm → UInt8
  | tiny => 0
  | u8 => 0xcc
  | u16 => 0xcd
  | u32 => 0xce
  | u64 => 0xcf
  | i8 => 0xd0
  | i16 => 0xd1
  | i32 => 0xd2
  | i64 => 0xd3

def isSigned : IntForm → Bool
  | tiny | i8 | i16 | i32 | i64 => true
  | u8 | u16 | u32 | u64 => false

def shortest (v : Int) : IntForm :=
  if 0 ≤ v then
    if v < 0x80 then tiny
    else if v < 0x100 then u8
    else if v < 0x10000 then u16
    else if v < 0x100000000 then u32
    else u64
  else if -0x20 ≤ v then tiny
  else if -0x80 ≤ v then i8
  else if -0x8000 ≤ v then i16
  else if -0x80000000 ≤ v then i32
  else i64

/-- An integer in a form, modulo the form's range. -/
def encode (form : IntForm) (v : Int) : Text :=
  if form = tiny then [UInt8.ofInt v]
  else form.lead :: digits form.width (v % Nat.pow 256 form.width).toNat

def decode (form : IntForm) (t : Text) : Int :=
  if form.isSigned then Int.bmod (ofDigits t) (Nat.pow 256 form.width) else ofDigits t

end IntForm

/-- The size of a text, an array or a map: in the first byte below the given bound, else in the
fewest bytes offered that hold it. -/
def sizeHeader (bound : Nat) (small : UInt8) (wide : List (UInt8 × Nat)) (n : Nat) : Text :=
  if n < bound then [small + n.toUInt8]
  else
    match wide.find? fun (_, width) => n < Nat.pow 256 width with
    | some (lead, width) => lead :: digits width n
    | none => []

def textHeader : Nat → Text := sizeHeader 32 0xa0 [(0xd9, 1), (0xda, 2), (0xdb, 4)]

def bytesHeader : Nat → Text := sizeHeader 0 0 [(0xc4, 1), (0xc5, 2), (0xc6, 4)]

def arrayHeader : Nat → Text := sizeHeader 16 0x90 [(0xdc, 2), (0xdd, 4)]

def mapHeader : Nat → Text := sizeHeader 16 0x80 [(0xde, 2), (0xdf, 4)]

def extensionHeader (n : Nat) : Text :=
  match n with
  | 1 => [0xd4]
  | 2 => [0xd5]
  | 4 => [0xd6]
  | 8 => [0xd7]
  | 16 => [0xd8]
  | n => sizeHeader 0 0 [(0xc7, 1), (0xc8, 2), (0xc9, 4)] n

mutual

def Value.encode : Value → Text
  | .nil => [0xc0]
  | .bool b => [if b then 0xc3 else 0xc2]
  | .int form v => form.encode v
  | .single bits => 0xca :: digits 4 bits.toNat
  | .double x => 0xcb :: digits 8 x.bits.toNat
  | .text t => textHeader t.length ++ t
  | .bytes t => bytesHeader t.length ++ t
  | .array items => arrayHeader items.length ++ Value.encodeAll items
  | .map members => mapHeader members.length ++ Value.encodeMembers members
  | .extension kind data => extensionHeader data.length ++ kind :: data

def Value.encodeAll : List Value → Text
  | [] => []
  | v :: rest => v.encode ++ Value.encodeAll rest

def Value.encodeMembers : List (Value × Value) → Text
  | [] => []
  | (k, v) :: rest => k.encode ++ v.encode ++ Value.encodeMembers rest

end

inductive Head
  | done (v : Value)
  | int (form : IntForm)
  | single
  | double
  | text (size : Nat)
  | bytes (size : Nat)
  | array (size : Nat)
  | map (size : Nat)
  | extension (size : Nat)
  | sized (width : Nat) (head : Nat → Head)

/-- Every byte but one begins a value. -/
def Head.ofByte (b : UInt8) : Option Head :=
  if b < 0x80 then some (.done (.int .tiny b.toNat))
  else if b < 0x90 then some (.map (b - 0x80).toNat)
  else if b < 0xa0 then some (.array (b - 0x90).toNat)
  else if b < 0xc0 then some (.text (b - 0xa0).toNat)
  else if 0xe0 ≤ b then some (.done (.int .tiny (b.toNat - 256 : Int)))
  else
    match b with
    | 0xc0 => some (.done .nil)
    | 0xc2 => some (.done (.bool false))
    | 0xc3 => some (.done (.bool true))
    | 0xc4 => some (.sized 1 .bytes)
    | 0xc5 => some (.sized 2 .bytes)
    | 0xc6 => some (.sized 4 .bytes)
    | 0xc7 => some (.sized 1 .extension)
    | 0xc8 => some (.sized 2 .extension)
    | 0xc9 => some (.sized 4 .extension)
    | 0xca => some .single
    | 0xcb => some .double
    | 0xcc => some (.int .u8)
    | 0xcd => some (.int .u16)
    | 0xce => some (.int .u32)
    | 0xcf => some (.int .u64)
    | 0xd0 => some (.int .i8)
    | 0xd1 => some (.int .i16)
    | 0xd2 => some (.int .i32)
    | 0xd3 => some (.int .i64)
    | 0xd4 => some (.extension 1)
    | 0xd5 => some (.extension 2)
    | 0xd6 => some (.extension 4)
    | 0xd7 => some (.extension 8)
    | 0xd8 => some (.extension 16)
    | 0xd9 => some (.sized 1 .text)
    | 0xda => some (.sized 2 .text)
    | 0xdb => some (.sized 4 .text)
    | 0xdc => some (.sized 2 .array)
    | 0xdd => some (.sized 4 .array)
    | 0xde => some (.sized 2 .map)
    | 0xdf => some (.sized 4 .map)
    | _ => none

/-- A result and the bytes after it, of which there are at most so many. -/
abbrev Taken (α : Type) (bound : Nat) := Option { r : α × Text // r.2.length ≤ bound }

def takeBytes (n : Nat) (t : Text) : Taken Text t.length :=
  if n ≤ t.length then some ⟨(t.take n, t.drop n), by simp⟩ else none

def Taken.map {α β : Type} {m n : Nat} (h : m ≤ n) (f : α → β) : Taken α m → Taken β n
  | none => none
  | some ⟨(a, rest), le⟩ => some ⟨(f a, rest), Nat.le_trans le h⟩

mutual

def takeValue : (t : Text) → Taken Value (t.length - 1)
  | [] => none
  | b :: rest =>
    match Head.ofByte b with
    | none => none
    | some (.sized width head) =>
      match takeBytes width rest with
      | none => none
      | some ⟨(size, after), le⟩ =>
        have short : after.length ≤ rest.length := le
        (takeRest (head (ofDigits size)) after).map short id
    | some head => takeRest head rest
termination_by t => (t.length, 1)
decreasing_by
  all_goals simp_wf
  all_goals omega

def takeRest (head : Head) (t : Text) : Taken Value t.length :=
  match head with
  | .done v => some ⟨(v, t), Nat.le_refl _⟩
  | .int form => (takeBytes form.width t).map (Nat.le_refl _) fun d => .int form (form.decode d)
  | .single => (takeBytes 4 t).map (Nat.le_refl _) fun d => .single (ofDigits d).toUInt32
  | .double => (takeBytes 8 t).map (Nat.le_refl _) fun d => .double ⟨(ofDigits d).toUInt64⟩
  | .text n => (takeBytes n t).map (Nat.le_refl _) .text
  | .bytes n => (takeBytes n t).map (Nat.le_refl _) .bytes
  | .extension n =>
    match t with
    | [] => none
    | kind :: rest => (takeBytes n rest).map (by simp) (.extension kind)
  | .array n => (takeValues n t).map (Nat.le_refl _) .array
  | .map n => (takeMembers n t).map (Nat.le_refl _) .map
  | .sized _ _ => none
termination_by (t.length, 4)
decreasing_by
  all_goals omega

def takeValues (n : Nat) (t : Text) : Taken (List Value) t.length :=
  match n with
  | 0 => some ⟨([], t), Nat.le_refl _⟩
  | n + 1 =>
    match takeValue t with
    | none => none
    | some ⟨(v, rest), le⟩ =>
      if h : t = [] then none
      else
        have short : rest.length < t.length := by
          have := List.length_pos_iff.2 h
          simp at le
          omega
        (takeValues n rest).map (Nat.le_of_lt short) (v :: ·)
termination_by (t.length, 3)
decreasing_by
  all_goals omega

def takeMembers (n : Nat) (t : Text) : Taken (List (Value × Value)) t.length :=
  match n with
  | 0 => some ⟨([], t), Nat.le_refl _⟩
  | n + 1 =>
    match takeValue t with
    | none => none
    | some ⟨(k, afterKey), leKey⟩ =>
      if h : t = [] then none
      else
        have short : afterKey.length < t.length := by
          have := List.length_pos_iff.2 h
          simp at leKey
          omega
        match takeValue afterKey with
        | none => none
        | some ⟨(v, rest), le⟩ =>
          have shorter : rest.length < t.length := by
            simp at le
            omega
          (takeMembers n rest).map (Nat.le_of_lt shorter) ((k, v) :: ·)
termination_by (t.length, 3)
decreasing_by
  all_goals omega

end

def Value.take? (t : Text) : Option (Value × Text) := Option.map Subtype.val (takeValue t)

mutual

def Value.depth : Value → Nat
  | .array items => Value.depthOfAll items + 1
  | .map members => Value.depthOfMembers members + 1
  | _ => 1

def Value.depthOfAll : List Value → Nat
  | [] => 0
  | v :: rest => max v.depth (Value.depthOfAll rest)

def Value.depthOfMembers : List (Value × Value) → Nat
  | [] => 0
  | (_, v) :: rest => max v.depth (Value.depthOfMembers rest)

end

end Pack

end BorrowChecker
