import BorrowChecker.Number.Integer

/-!
Double-precision numbers, held as their 64 bits so that everything about them is arithmetic on
natural numbers: rounding a quotient to the nearest double, the fewest decimal digits that read
back as the same double, and a decimal with a fixed number of places.
-/

namespace BorrowChecker

/-- A double by its bits: sign, eleven bits of exponent, fifty-two of fraction. -/
structure Double where
  bits : UInt64
deriving DecidableEq, Repr

namespace Double

def isNegative (x : Double) : Bool := 0x8000000000000000 ≤ x.bits.toNat

def exponentField (x : Double) : Nat := x.bits.toNat / 0x10000000000000 % 2048

def fraction (x : Double) : Nat := x.bits.toNat % 0x10000000000000

def isNaN (x : Double) : Bool := x.exponentField == 2047 && x.fraction != 0

def isInfinite (x : Double) : Bool := x.exponentField == 2047 && x.fraction == 0

def isZero (x : Double) : Bool := x.exponentField == 0 && x.fraction == 0

def significand (x : Double) : Nat :=
  if x.exponentField = 0 then x.fraction else 0x10000000000000 + x.fraction

/-- The power of two, shifted by 1074 so that it is never negative. -/
def scale (x : Double) : Nat := x.exponentField - 1

def magnitude (x : Double) : Nat × Nat :=
  if 1074 ≤ x.scale then (x.significand * Nat.pow 2 (x.scale - 1074), 1)
  else (x.significand, Nat.pow 2 (1074 - x.scale))

def withSign (negative : Bool) (magnitudeBits : Nat) : Double :=
  ⟨(magnitudeBits + if negative then 0x8000000000000000 else 0).toUInt64⟩

def infinityBits : Nat := 2047 * 0x10000000000000

/-- A quotient rounded to the nearest integer, a half going to the even neighbour. -/
def roundDiv (num den : Nat) : Nat :=
  let q := num / den
  let r := num % den
  if 2 * r < den then q else if den < 2 * r then q + 1 else if q % 2 = 0 then q else q + 1

/-- The largest `k` with `2 ^ k ≤ num / den`, shifted by 1074 and cut off at zero. -/
def logQuotient (num den : Nat) : Nat :=
  let guess := 1074 + num.log2 - den.log2
  if den * Nat.pow 2 guess ≤ num * Nat.pow 2 1074 then guess else guess - 1

/-- The bits of the double nearest to a positive quotient, a half going to the even neighbour.
The result is at least `infinityBits` when the quotient is too large. -/
def nearestBits (num den : Nat) : Nat :=
  if num = 0 then 0
  else if den.log2 + 1100 < num.log2 then infinityBits
  else if num.log2 + 1100 < den.log2 then 0
  else
    let shift := logQuotient num den - 52
    roundDiv (num * Nat.pow 2 1074) (den * Nat.pow 2 shift) + shift * 0x10000000000000

def ofQuotient? (negative : Bool) (num den : Nat) : Option Double :=
  let bits := nearestBits num den
  if bits < infinityBits then some (withSign negative bits) else none

def ofQuotient (num den : Nat) : Double :=
  (ofQuotient? false num den).getD (withSign false infinityBits)

def ofInt (v : Int) : Double :=
  (ofQuotient? (v < 0) v.natAbs 1).getD (withSign (v < 0) infinityBits)

/-- The double nearest to the sum of two that are not negative. -/
def add (x y : Double) : Double :=
  let (a, b) := x.magnitude
  let (c, d) := y.magnitude
  ofQuotient (a * d + c * b) (b * d)

/-- The double nearest to one that is not negative, divided by a count. -/
def dividedBy (x : Double) (count : Nat) : Double :=
  let (a, b) := x.magnitude
  ofQuotient a (b * count)

def ofSingle (bits : UInt32) : Double :=
  let b := bits.toNat
  let negative := decide (0x80000000 ≤ b)
  let exponent := b / 0x800000 % 256
  let part := b % 0x800000
  if exponent = 255 then
    if part = 0 then withSign negative infinityBits
    else withSign negative (infinityBits + 0x8000000000000 + part % 0x400000 * 0x20000000)
  else if exponent = 0 then
    (ofQuotient? negative part (Nat.pow 2 149)).getD (withSign negative 0)
  else withSign negative ((exponent + 896) * 0x10000000000000 + part * 0x20000000)

structure Decimal where
  coefficient : Nat
  exponent : Int
deriving DecidableEq, Repr

def ofDecimal? (negative : Bool) (d : Decimal) : Option Double :=
  let size := (Nat.toDigits 10 d.coefficient).length
  if d.coefficient = 0 then some (withSign negative 0)
  else if 400 < d.exponent + size then none
  else if d.exponent + size < -400 then some (withSign negative 0)
  else if 0 ≤ d.exponent then ofQuotient? negative (d.coefficient * Nat.pow 10 d.exponent.toNat) 1
  else ofQuotient? negative d.coefficient (Nat.pow 10 (-d.exponent).toNat)

/-- Significant decimal digits `0.d₁d₂… · 10 ^ point`. -/
structure Digits where
  digits : Text
  point : Int
deriving DecidableEq, Repr

/-- How many digits the integer part of a positive quotient has; zero or less when the quotient
is below one, by the zeros after the point. -/
def decimalPoint (num den : Nat) : Int :=
  if den ≤ num then (Nat.toDigits 10 (num / den)).length
  else 1 - (Nat.toDigits 10 ((den - 1) / num)).length

def between (ends : Bool) (low x high : Nat × Nat) : Bool :=
  if ends then low.1 * x.2 ≤ x.1 * low.2 && x.1 * high.2 ≤ high.1 * x.2
  else low.1 * x.2 < x.1 * low.2 && x.1 * high.2 < high.1 * x.2

def gridPoint (k : Nat) (exponent : Int) : Nat × Nat :=
  if 0 ≤ exponent then (k * Nat.pow 10 exponent.toNat, 1) else (k, Nat.pow 10 (-exponent).toNat)

def dropZeros (digits : Text) : Text := (digits.reverse.dropWhile (· == 48)).reverse

/-- The decimals of one length next to a quotient that lie in the given interval; of two, the
nearer, and of two equally near the even one. -/
def nearestOfLength (value low high : Nat × Nat) (ends : Bool) (point : Int) (length : Nat) :
    Option Digits :=
  let exponent := point - length
  let k := if 0 ≤ exponent then value.1 / (value.2 * Nat.pow 10 exponent.toNat)
    else value.1 * Nat.pow 10 (-exponent).toNat / value.2
  let lower := between ends low (gridPoint k exponent) high && 0 < k
  let upper := between ends low (gridPoint (k + 1) exponent) high
  let chosen :=
    if lower && upper then
      some (if 0 ≤ exponent then roundDiv value.1 (value.2 * Nat.pow 10 exponent.toNat)
        else roundDiv (value.1 * Nat.pow 10 (-exponent).toNat) value.2)
    else if lower then some k
    else if upper then some (k + 1)
    else none
  chosen.map fun c =>
    let written := Text.ofNat c
    ⟨dropZeros written, point + (written.length - length : Int)⟩

/-- The fewest digits that read back as the same double, and of those the nearest. The interval of
decimals that read back is taken with its ends when the significand is even. -/
def shortest (x : Double) : Digits :=
  if x.isZero then ⟨[48], 1⟩
  else
    let m := x.significand
    let (num, den) := x.magnitude
    let low := if m = 0x10000000000000 ∧ 1 < x.exponentField then (num * (4 * m - 1), den * (4 * m))
      else (num * (2 * m - 1), den * (2 * m))
    let high := (num * (2 * m + 1), den * (2 * m))
    let point := decimalPoint num den
    let found := (List.range 17).findSome? fun n =>
      nearestOfLength (num, den) low high (m % 2 == 0) point (n + 1)
    found.getD ⟨[48], 1⟩

def zeros (n : Int) : Text := List.replicate n.toNat 48

def positional (d : Digits) : Text :=
  let whole := if d.point ≤ 0 then [48]
    else d.digits.take d.point.toNat ++ zeros (d.point - d.digits.length)
  let part := if d.point < 0 then zeros (-d.point) ++ d.digits else d.digits.drop d.point.toNat
  if part.isEmpty then whole else whole ++ 46 :: part

def scientific (width : Nat) (d : Digits) : Text :=
  let exponent := d.point - 1
  let part := d.digits.drop 1
  d.digits.take 1 ++ (if part.isEmpty then [] else 46 :: part) ++
    [101, if exponent < 0 then 45 else 43] ++ Text.padLeft width 48 (Text.ofNat exponent.natAbs)

def signText (x : Double) : Text := if x.isNegative then [45] else []

/-- The shortest text, with a power of ten below `1e-4` and from `1e+6` on. -/
def general (x : Double) : Text :=
  if x.isNaN then "NaN"
  else if x.isInfinite then if x.isNegative then "-Inf" else "+Inf"
  else
    let d := x.shortest
    let exponent := d.point - 1
    x.signText ++
      if exponent < -4 ∨ 6 ≤ exponent then scientific 2 d else positional d

/-- The shortest text as a JSON number, with a power of ten below `1e-6` and from `1e21` on. -/
def json (x : Double) : Text :=
  let d := x.shortest
  let exponent := d.point - 1
  x.signText ++
    if !x.isZero && (exponent < -6 || 21 ≤ exponent) then scientific 1 d else positional d

def fixed (places : Nat) (x : Double) : Text :=
  if x.isNaN then "NaN"
  else if x.isInfinite then if x.isNegative then "-Inf" else "+Inf"
  else
    let (num, den) := x.magnitude
    let scaled := roundDiv (num * Nat.pow 10 places) den
    let part := Text.padLeft places 48 (Text.ofNat (scaled % Nat.pow 10 places))
    x.signText ++ Text.ofNat (scaled / Nat.pow 10 places) ++
      if places = 0 then [] else 46 :: part

def decimal? (text : Text) : Option (Bool × Decimal) :=
  let (negative, unsigned) := Text.cutSign text
  let mantissa := unsigned.takeWhile fun b => b != 101 && b != 69
  let tail := unsigned.drop mantissa.length
  let whole := mantissa.takeWhile (· != 46)
  let part := (mantissa.drop whole.length).drop 1
  let digits := whole ++ part
  let exponent? := if tail.isEmpty then some 0 else Text.toInt? (tail.drop 1)
  match exponent?, Text.toNat? digits with
  | some exponent, some coefficient => some (negative, ⟨coefficient, exponent - part.length⟩)
  | _, _ => none

def read (text : Text) : Except NumberFault Double :=
  match decimal? text with
  | none => .error ⟨.float, text, .malformed⟩
  | some (negative, d) =>
    match ofDecimal? negative d with
    | none => .error ⟨.float, text, .outOfRange⟩
    | some x => .ok x

end Double

end BorrowChecker
