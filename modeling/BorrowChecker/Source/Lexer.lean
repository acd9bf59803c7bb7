import BorrowChecker.Source.Token

/-!
Splitting a line into tokens. White space separates tokens and is otherwise skipped; every other
code point belongs to a token or the line is refused.
-/

namespace BorrowChecker

namespace Source

def isNamePoint (c : CodePoint) : Bool :=
  c.value == 95 || CodePoint.isLetter c.value || CodePoint.isDecimal c.value

def isDigitPoint (c : CodePoint) : Bool := CodePoint.isAsciiDigit c.value

def digitRun (points : List CodePoint) : Nat := (points.takeWhile isDigitPoint).length

def fractionLength : List CodePoint → Nat
  | [] => 0
  | c :: rest => if c.value = 46 ∧ digitRun rest ≠ 0 then 1 + digitRun rest else 0

def exponentLength : List CodePoint → Nat
  | [] => 0
  | c :: rest =>
    if c.value = 101 ∨ c.value = 69 then
      let sign := match rest with
        | s :: _ => if s.value = 43 ∨ s.value = 45 then 1 else 0
        | [] => 0
      let digits := digitRun (rest.drop sign)
      if digits = 0 then 0 else 1 + sign + digits
    else 0

def scanNumber (points : List CodePoint) : Option (TokenKind × Nat) :=
  let sign := match points with
    | s :: _ => if s.value = 45 then 1 else 0
    | [] => 0
  let digits := digitRun (points.drop sign)
  if digits = 0 then none
  else
    let whole := sign + digits
    let fraction := fractionLength (points.drop whole)
    let exponent := exponentLength (points.drop (whole + fraction))
    some (if fraction + exponent = 0 then .int else .float, whole + fraction + exponent)

def nextIs (value : Nat) : List CodePoint → Bool
  | [] => false
  | c :: _ => c.value == value

def isSymbol (c : Nat) : Bool := (Text.ofString "&*!()[],:=").any fun b => b.toNat == c

/-- The token that starts with a code point at an offset: its kind, its text and how many of the
code points after the first it takes. -/
def scan (pos : Nat) (c : CodePoint) (rest : List CodePoint) :
    Except Fault (TokenKind × Text × Nat) :=
  if c.value = 95 ∨ CodePoint.isLetter c.value then
    let name := rest.takeWhile isNamePoint
    .ok (.ident, Text.ofCodePoints (c :: name), name.length)
  else if c.value = 39 then
    let name := rest.takeWhile isNamePoint
    if name.isEmpty then .error (.emptyLifetime pos)
    else .ok (.lifetime, Text.ofCodePoints name, name.length)
  else if c.value = 34 then
    match Quoted.decode? rest with
    | some (text, used) => .ok (.string, text, used)
    | none => .error (.badString pos)
  else if c.value = 45 ∧ nextIs 62 rest then .ok (.punct, "->", 1)
  else if c.value = 58 ∧ nextIs 58 rest then .ok (.punct, "::", 1)
  else if c.value = 45 ∨ CodePoint.isDecimal c.value then
    match scanNumber (c :: rest) with
    | some (kind, length) => .ok (kind, Text.ofCodePoints ((c :: rest).take length), length - 1)
    | none => .error (.unexpectedCharacter pos c.value)
  else if isSymbol c.value then .ok (.punct, c.bytes, 0)
  else .error (.unexpectedCharacter pos c.value)

/-- The tokens from an offset on, ended by one that marks the end of the line. -/
def lexFrom (pos : Nat) (points : List CodePoint) : Except Fault (List Token) :=
  match points with
  | [] => .ok [⟨.eof, [], pos⟩]
  | c :: rest =>
    if CodePoint.isBlank c.value then lexFrom (pos + c.bytes.length) rest
    else
      match scan pos c rest with
      | .error fault => .error fault
      | .ok (kind, text, extra) =>
        let width := (Text.ofCodePoints (c :: rest.take extra)).length
        match lexFrom (pos + width) (rest.drop extra) with
        | .error fault => .error fault
        | .ok tokens => .ok (⟨kind, text, pos⟩ :: tokens)
termination_by points.length
decreasing_by all_goals simp; try omega

def lex (src : Text) : Except Fault (List Token) := lexFrom 0 src.codePoints

end Source

end BorrowChecker
