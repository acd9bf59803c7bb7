import BorrowChecker.Text.Letter

/-!
Quoted text. A text is written between double quotes; a quote, a backslash and whatever does not
print as itself is escaped. Reading accepts in addition the escapes `\x`, `\u`, `\U` and three
octal digits for any byte or code point, and refuses a raw line break.
-/

namespace BorrowChecker

namespace Quoted

def escapeLetter (c : Nat) : Option UInt8 :=
  match c with
  | 7 => some 97
  | 8 => some 98
  | 9 => some 116
  | 10 => some 110
  | 11 => some 118
  | 12 => some 102
  | 13 => some 114
  | _ => none

def encodePoint (quote : UInt8) (c : CodePoint) : Text :=
  if c.isBroken then ("\\x" : Text) ++ Text.hex c.bytes
  else if c.value = quote.toNat ∨ c.value = 92 then 92 :: c.bytes
  else if CodePoint.isPrintable c.value then c.bytes
  else
    match escapeLetter c.value with
    | some letter => [92, letter]
    | none =>
      if c.value < 128 then ("\\x" : Text) ++ Text.hexDigits 2 c.value
      else if c.value < 0x10000 then ("\\u" : Text) ++ Text.hexDigits 4 c.value
      else ("\\U" : Text) ++ Text.hexDigits 8 c.value

def encode (text : Text) : Text :=
  34 :: (text.codePoints.flatMap (encodePoint 34) ++ [34])

def encodeChar (c : Nat) : Text :=
  39 :: (encodePoint 39 ⟨c, CodePoint.encode c⟩ ++ [39])

def hexValue? (c : Nat) : Option Nat :=
  if 48 ≤ c ∧ c ≤ 57 then some (c - 48)
  else if 97 ≤ c ∧ c ≤ 102 then some (c - 87)
  else if 65 ≤ c ∧ c ≤ 70 then some (c - 55)
  else none

def octalValue? (c : Nat) : Option Nat :=
  if 48 ≤ c ∧ c ≤ 55 then some (c - 48) else none

def digits? (base : Nat) (value? : Nat → Option Nat) : Nat → Nat → List CodePoint → Option Nat
  | 0, acc, _ => some acc
  | _ + 1, _, [] => none
  | count + 1, acc, c :: rest => do
    let d ← value? c.value
    digits? base value? count (base * acc + d) rest

def isScalar (c : Nat) : Bool := c < 0xD800 || (0xDFFF < c && c ≤ 0x10FFFF)

/-- What stands after a backslash: the bytes it is written for and how many code points it takes. -/
def escape? : List CodePoint → Option (Text × Nat)
  | [] => none
  | c :: rest =>
    match c.value with
    | 97 => some ([7], 1)
    | 98 => some ([8], 1)
    | 102 => some ([12], 1)
    | 110 => some ([10], 1)
    | 114 => some ([13], 1)
    | 116 => some ([9], 1)
    | 118 => some ([11], 1)
    | 92 => some ([92], 1)
    | 34 => some ([34], 1)
    | 120 => do
      let v ← digits? 16 hexValue? 2 0 rest
      some ([v.toUInt8], 3)
    | 117 => do
      let v ← digits? 16 hexValue? 4 0 rest
      if isScalar v then some (CodePoint.encode v, 5) else none
    | 85 => do
      let v ← digits? 16 hexValue? 8 0 rest
      if isScalar v then some (CodePoint.encode v, 9) else none
    | _ => do
      let v ← digits? 8 octalValue? 3 0 (c :: rest)
      if v ≤ 255 then some ([v.toUInt8], 3) else none

/-- Reads up to the closing quote: the text and how many code points it takes, the quote included.
A byte that is not UTF-8 reads as the replacement character. -/
def decode? (points : List CodePoint) : Option (Text × Nat) :=
  match points with
  | [] => none
  | c :: rest =>
    if c.value = 34 then some ([], 1)
    else if c.value = 10 then none
    else if c.value = 92 then
      match escape? rest with
      | none => none
      | some (bytes, used) =>
        match decode? (rest.drop used) with
        | none => none
        | some (text, more) => some (bytes ++ text, 1 + used + more)
    else
      match decode? rest with
      | none => none
      | some (text, more) => some (CodePoint.encode c.value ++ text, 1 + more)
termination_by points.length
decreasing_by all_goals simp; try omega

end Quoted

end BorrowChecker
