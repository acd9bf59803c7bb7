import BorrowChecker.Text.Basic

/-!
Reading a byte string as code points. A byte that no well-formed UTF-8 sequence starts with stands
for the replacement character by itself, so every byte string splits into code points and their
bytes put together are the byte string again.
-/

namespace BorrowChecker

structure CodePoint where
  value : Nat
  bytes : Text
deriving DecidableEq, Repr

namespace CodePoint

/-- What a byte that starts no well-formed sequence reads as. -/
def replacement : Nat := 0xFFFD

def ofByte (b : UInt8) : CodePoint :=
  if b < 0x80 then ⟨b.toNat, [b]⟩ else ⟨replacement, [b]⟩

def isContinuation (b : UInt8) : Bool := 0x80 ≤ b && b ≤ 0xBF

def isPair (a b : UInt8) : Bool := 0xC2 ≤ a && a ≤ 0xDF && isContinuation b

/-- The second byte of a three-byte sequence keeps out overlong forms and surrogates. -/
def isTriple (a b c : UInt8) : Bool :=
  isContinuation c &&
    ((a == 0xE0 && 0xA0 ≤ b && b ≤ 0xBF) ||
     (a == 0xED && 0x80 ≤ b && b ≤ 0x9F) ||
     (((0xE1 ≤ a && a ≤ 0xEC) || a == 0xEE || a == 0xEF) && isContinuation b))

/-- The second byte of a four-byte sequence keeps out overlong forms and values above 10FFFF. -/
def isQuadruple (a b c d : UInt8) : Bool :=
  isContinuation c && isContinuation d &&
    ((a == 0xF0 && 0x90 ≤ b && b ≤ 0xBF) ||
     (a == 0xF4 && 0x80 ≤ b && b ≤ 0x8F) ||
     (0xF1 ≤ a && a ≤ 0xF3 && isContinuation b))

def low (b : UInt8) : Nat := b.toNat % 64

def pair (a b : UInt8) : CodePoint := ⟨a.toNat % 32 * 64 + low b, [a, b]⟩

def triple (a b c : UInt8) : CodePoint :=
  ⟨(a.toNat % 16 * 64 + low b) * 64 + low c, [a, b, c]⟩

def quadruple (a b c d : UInt8) : CodePoint :=
  ⟨((a.toNat % 8 * 64 + low b) * 64 + low c) * 64 + low d, [a, b, c, d]⟩

/-- The UTF-8 bytes of a code point. A surrogate or a value above 10FFFF is written as the
replacement character. -/
def encode (c : Nat) : Text :=
  if c < 0x80 then [c.toUInt8]
  else if c < 0x800 then [(0xC0 + c / 64).toUInt8, (0x80 + c % 64).toUInt8]
  else if (0xD800 ≤ c && c ≤ 0xDFFF) || 0x10FFFF < c then [0xEF, 0xBF, 0xBD]
  else if c < 0x10000 then
    [(0xE0 + c / 4096).toUInt8, (0x80 + c / 64 % 64).toUInt8, (0x80 + c % 64).toUInt8]
  else
    [(0xF0 + c / 262144).toUInt8, (0x80 + c / 4096 % 64).toUInt8, (0x80 + c / 64 % 64).toUInt8,
      (0x80 + c % 64).toUInt8]

/-- A byte read as a replacement character, rather than a replacement character written out. -/
def isBroken (c : CodePoint) : Bool := c.value == replacement && c.bytes.length == 1

end CodePoint

namespace Text

def codePoints : Text → List CodePoint
  | [] => []
  | a :: rest =>
    match rest with
    | [] => [.ofByte a]
    | b :: rest₂ =>
      if CodePoint.isPair a b then .pair a b :: codePoints rest₂
      else
        match rest₂ with
        | [] => .ofByte a :: codePoints [b]
        | c :: rest₃ =>
          if CodePoint.isTriple a b c then .triple a b c :: codePoints rest₃
          else
            match rest₃ with
            | [] => .ofByte a :: codePoints [b, c]
            | d :: rest₄ =>
              if CodePoint.isQuadruple a b c d then .quadruple a b c d :: codePoints rest₄
              else .ofByte a :: codePoints (b :: c :: d :: rest₄)

def ofCodePoints (points : List CodePoint) : Text := points.flatMap CodePoint.bytes

def isWellFormed (text : Text) : Bool := text.codePoints.all fun c => !c.isBroken

end Text

end BorrowChecker
