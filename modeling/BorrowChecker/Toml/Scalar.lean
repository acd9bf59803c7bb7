import BorrowChecker.Number.Double
import BorrowChecker.Text.Quoted
import BorrowChecker.Toml.Syntax

/-!
Numbers, moments and strings of TOML. Each reader takes its bytes from the front of a text and
returns the rest, or nothing where the text is malformed.
-/

namespace BorrowChecker

namespace Toml

def isHexByte (b : UInt8) : Bool := (Quoted.hexValue? b.toNat).isSome

/-! ### Numbers -/

/-- Whether every underscore stands between digits, and a digit ends the text. -/
def underscoresFit (t : Text) : Bool := fits false t
where
  fits (afterDigit : Bool) : Text → Bool
    | [] => afterDigit
    | b :: rest => (b != 95 || afterDigit) && fits (isHexByte b) rest

def hasLeadingZero (t : Text) : Bool :=
  match t with
  | 48 :: b :: _ => b != 98 && b != 111 && b != 120
  | sign :: 48 :: _ :: _ => sign == 43 || sign == 45
  | _ => false

def digitsIn (base : Nat) (t : Text) : Option Nat :=
  if t.isEmpty then none
  else t.foldlM (fun n b => do
    let d ← Quoted.hexValue? b.toNat
    if d < base then some (n * base + d) else none) 0

def readInteger? (t : Text) : Option Int :=
  if !underscoresFit t || hasLeadingZero t then none
  else
    let (negative, unsigned) := Text.cutSign (t.filter (· != 95))
    let magnitude? := match unsigned with
      | 48 :: 120 :: digits => digitsIn 16 digits
      | 48 :: 111 :: digits => digitsIn 8 digits
      | 48 :: 98 :: digits => digitsIn 2 digits
      | digits => digitsIn 10 digits
    (magnitude?.map fun n => if negative then -(n : Int) else n).filter fun v =>
      -0x8000000000000000 ≤ v && v < 0x8000000000000000

def pointsFit : Text → Bool
  | [] => true
  | 46 :: b :: rest => Text.isDigitByte b && pointsFit (b :: rest)
  | [46] => false
  | _ :: rest => pointsFit rest

def floatParts (t : Text) : List Text :=
  (Text.splitOnByte 46 (t.map fun b => if b == 101 || b == 69 then 46 else b)).filter
    fun part => !part.isEmpty

def isFloat (t : Text) : Bool :=
  let parts := floatParts t
  parts.all underscoresFit && !hasLeadingZero (parts.headD []) && pointsFit t &&
    (Double.read (t.filter (· != 95))).toOption.isSome

/-! ### Moments -/

def takePair (exact : Bool) : Text → Option (Nat × Text)
  | a :: b :: rest =>
    if !Text.isDigitByte a then none
    else if Text.isDigitByte b then some (Text.digitsValue [a, b], rest)
    else if exact then none
    else some (Text.digitsValue [a], b :: rest)
  | [a] => if Text.isDigitByte a && !exact then some (Text.digitsValue [a], []) else none
  | [] => none

def takeByte (b : UInt8) : Text → Option Text
  | c :: rest => if b = c then some rest else none
  | [] => none

def daysIn (year month : Nat) : Nat :=
  if month = 2 then
    if year % 4 = 0 ∧ (year % 100 ≠ 0 ∨ year % 400 = 0) then 29 else 28
  else if month = 4 ∨ month = 6 ∨ month = 9 ∨ month = 11 then 30
  else 31

def takeDate (t : Text) : Option Text := do
  let year ← if (t.take 4).length = 4 then Text.toNat? (t.take 4) else none
  let t ← takeByte 45 (t.drop 4)
  let (month, t) ← takePair true t
  let t ← takeByte 45 t
  let (day, t) ← takePair true t
  if 1 ≤ month ∧ month ≤ 12 ∧ 1 ≤ day ∧ day ≤ daysIn year month then some t else none

def takeFraction : Text → Text
  | 46 :: b :: rest => if Text.isDigitByte b then rest.dropWhile Text.isDigitByte else 46 :: b :: rest
  | t => t

def takeTime (t : Text) : Option Text := do
  let (hour, t) ← takePair false t
  let t ← takeByte 58 t
  let (minute, t) ← takePair true t
  let t ← takeByte 58 t
  let (second, t) ← takePair true t
  if hour < 24 ∧ minute < 60 ∧ second < 60 then some (takeFraction t) else none

/-- Takes a distance from universal time: `Z` or `+01:30`. -/
def takeZone : Text → Option Text
  | 90 :: rest => some rest
  | sign :: rest => do
    if sign != 43 && sign != 45 then none
    let (hour, t) ← takePair true rest
    let t ← takeByte 58 t
    let (minute, t) ← takePair true t
    if hour ≤ 24 ∧ minute ≤ 60 then some t else none
  | [] => none

def isMoment (written : Text) : Bool :=
  let t := written.map fun b => if b == 116 || b == 32 then 84 else if b == 122 then 90 else b
  let dated := ((takeDate t).bind (takeByte 84)).bind takeTime
  takeDate t == some [] || takeTime t == some [] || dated == some [] ||
    dated.bind takeZone == some []

/-! ### Strings -/

def readEscape (digits rest : Text) : Option (Text × Text) := do
  let c ← digitsIn 16 digits
  if Quoted.isScalar c then some (CodePoint.encode c, rest) else none

def takeEscape : Text → Option (Text × Text)
  | 98 :: rest => some ([8], rest)
  | 116 :: rest => some ([9], rest)
  | 110 :: rest => some ([10], rest)
  | 102 :: rest => some ([12], rest)
  | 114 :: rest => some ([13], rest)
  | 34 :: rest => some ([34], rest)
  | 92 :: rest => some ([92], rest)
  | 117 :: rest => if 4 ≤ rest.length then readEscape (rest.take 4) (rest.drop 4) else none
  | 85 :: rest => if 8 ≤ rest.length then readEscape (rest.take 8) (rest.drop 8) else none
  | _ => none

def isNewline (b : UInt8) : Bool := b == 10 || b == 13

def isBlank (b : UInt8) : Bool := b == 32 || b == 9

/-- The text up to the closing quote of one line. The fuel is at least the number of bytes. -/
def takeBasic : Nat → Text → Option (Text × Text)
  | 0, _ => none
  | _, [] => none
  | _, 34 :: rest => some ([], rest)
  | fuel + 1, 92 :: rest => do
    let (c, rest) ← takeEscape rest
    let (t, rest) ← takeBasic fuel rest
    return (c ++ t, rest)
  | fuel + 1, b :: rest => do
    if isNewline b then none
    let (t, rest) ← takeBasic fuel rest
    return (b :: t, rest)

def takeLiteral : Text → Option (Text × Text)
  | [] => none
  | 39 :: rest => some ([], rest)
  | b :: rest => do
    if isNewline b then none
    let (t, rest) ← takeLiteral rest
    return (b :: t, rest)

def cutFirstNewline : Text → Text
  | 10 :: rest => rest
  | 13 :: 10 :: rest => rest
  | t => t

/-- A run of quotes at the front: as part of the text, or, from three on, as its end with up to two
quotes before it. More than five are too many. -/
def takeQuotes (quote : UInt8) (t : Text) : Option (Text × Bool × Text) :=
  let run := t.takeWhile (· == quote)
  let rest := t.drop run.length
  if run.length < 3 then some (run, false, rest)
  else if run.length ≤ 5 then some (run.drop 3, true, rest)
  else none

/-- The text of several lines up to its closing quotes. A backslash at the end of a line takes the
blanks and newlines after it away. -/
def takeLongBasic : Nat → Text → Option (Text × Text)
  | 0, _ => none
  | _, [] => none
  | fuel + 1, 34 :: rest => do
    let (quotes, isEnd, rest) ← takeQuotes 34 (34 :: rest)
    if isEnd then return (quotes, rest)
    let (t, rest) ← takeLongBasic fuel rest
    return (quotes ++ t, rest)
  | fuel + 1, 92 :: rest => do
    let gap := rest.takeWhile fun b => isBlank b || isNewline b
    if gap.contains 10 then takeLongBasic fuel (rest.drop gap.length)
    else
      let (c, rest) ← takeEscape rest
      let (t, rest) ← takeLongBasic fuel rest
      return (c ++ t, rest)
  | fuel + 1, b :: rest => do
    let (t, rest) ← takeLongBasic fuel rest
    return (b :: t, rest)

def takeLongLiteral : Nat → Text → Option (Text × Text)
  | 0, _ => none
  | _, [] => none
  | fuel + 1, 39 :: rest => do
    let (quotes, isEnd, rest) ← takeQuotes 39 (39 :: rest)
    if isEnd then return (quotes, rest)
    let (t, rest) ← takeLongLiteral fuel rest
    return (quotes ++ t, rest)
  | fuel + 1, b :: rest => do
    let (t, rest) ← takeLongLiteral fuel rest
    return (b :: t, rest)

def takeString (t : Text) : Option (Text × Text) :=
  match t with
  | 34 :: 34 :: 34 :: rest => takeLongBasic (rest.length + 1) (cutFirstNewline rest)
  | 39 :: 39 :: 39 :: rest => takeLongLiteral (rest.length + 1) (cutFirstNewline rest)
  | 34 :: rest => takeBasic (rest.length + 1) rest
  | 39 :: rest => takeLiteral rest
  | _ => none

/-! ### Values without parts -/

def isFloatMark (t : Text) : Bool :=
  match t with
  | b :: _ => b == 46 || b == 101 || b == 69
  | [] => false

def isFloatByte (b : UInt8) : Bool :=
  Text.isDigitByte b || b == 95 || b == 46 || b == 45 || b == 43 || b == 101 || b == 69

def isMomentByte (b : UInt8) : Bool :=
  Text.isDigitByte b || [45, 58, 84, 116, 32, 46, 90, 122, 43].contains b

def ofInteger (t : Text) (rest : Text) : Option (Expr × Text) := (readInteger? t).map fun v => (.integer v, rest)

/-- A decimal number, of which a sign and a first digit may have been seen. -/
def takeDecimal (lead t : Text) : Option (Expr × Text) :=
  let digits := t.takeWhile fun b => Text.isDigitByte b || b == 95
  let rest := t.drop digits.length
  if isFloatMark rest then
    let written := lead ++ t.takeWhile isFloatByte
    if isFloat written then some (.float written, t.dropWhile isFloatByte) else none
  else ofInteger (lead ++ digits) rest

def takeBased (mark : UInt8) (base : Nat) (t : Text) : Option (Expr × Text) :=
  let isDigit := fun b => ((Quoted.hexValue? b.toNat).map fun d => decide (d < base)).getD false
  if (t.head?.map isDigit).getD false then
    let digits := t.takeWhile fun b => isDigit b || b == 95
    ofInteger (48 :: mark :: digits) (t.drop digits.length)
  else none

def takeNumber (t : Text) : Option (Expr × Text) :=
  match t with
  | 48 :: 120 :: rest => takeBased 120 16 rest
  | 48 :: 111 :: rest => takeBased 111 8 rest
  | 48 :: 98 :: rest => takeBased 98 2 rest
  | _ =>
    match t.dropWhile Text.isDigitByte with
    | b :: _ =>
      if b == 45 || b == 58 then
        let span := t.takeWhile isMomentByte
        let written := (span.reverse.dropWhile (· == 32)).reverse
        if isMoment written then some (.moment written, t.drop span.length) else none
      else takeDecimal [] t
    | [] => takeDecimal [] t

def takeSigned (sign : UInt8) (t : Text) : Option (Expr × Text) :=
  match t with
  | 105 :: 110 :: 102 :: rest => some (.float (sign :: Text.ofString "inf"), rest)
  | 110 :: 97 :: 110 :: rest => some (.float (sign :: Text.ofString "nan"), rest)
  | b :: _ => if Text.isDigitByte b then takeDecimal [sign] t else none
  | [] => none

def isLetterByte (b : UInt8) : Bool := (65 ≤ b && b ≤ 90) || (97 ≤ b && b ≤ 122)

def takeScalar (t : Text) : Option (Expr × Text) :=
  match t with
  | [] => none
  | b :: rest =>
    if b == 34 || b == 39 then (takeString t).map fun (s, rest) => (.string s, rest)
    else if b == 43 || b == 45 then takeSigned b rest
    else if Text.isDigitByte b then takeNumber t
    else
      let word := t.takeWhile isLetterByte
      let rest := t.drop word.length
      if word = Text.ofString "true" then some (.bool true, rest)
      else if word = Text.ofString "false" then some (.bool false, rest)
      else if word = Text.ofString "inf" ∨ word = Text.ofString "nan" then some (.float word, rest)
      else none

end Toml

end BorrowChecker
