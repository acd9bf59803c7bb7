import BorrowChecker.Number.Integer

/-!
Reading integers as a program text writes them: in one of four bases, with underscores between
digits. Also reading truth values.
-/

namespace BorrowChecker

namespace Text

/-- Cuts the mark of a base in front of digits. A zero alone is the mark of base eight. -/
def cutBase : Text → Nat × Text
  | 48 :: mark :: digit :: rest =>
    if mark = 98 ∨ mark = 66 then (2, digit :: rest)
    else if mark = 111 ∨ mark = 79 then (8, digit :: rest)
    else if mark = 120 ∨ mark = 88 then (16, digit :: rest)
    else (8, mark :: digit :: rest)
  | 48 :: rest => (8, rest)
  | text => (10, text)

def addDigits (bits base : Nat) (n : Nat) : Text → Except NumberCause Nat
  | [] => .ok n
  | b :: rest =>
    if b = 95 then addDigits bits base n rest
    else
      match Quoted.hexValue? b.toNat with
      | none => .error .malformed
      | some d =>
        if base ≤ d then .error .malformed
        else if Nat.pow 2 bits ≤ n * base + d then .error .outOfRange
        else addDigits bits base (n * base + d) rest

/-- Whether every underscore stands between digits; the mark of a base counts as a digit. -/
def underscoresFit (text : Text) : Bool :=
  let isMarked := match text with
    | 48 :: mark :: _ => [98, 66, 111, 79, 120, 88].contains mark
    | _ => false
  let digits := if isMarked then 48 :: text.drop 2 else text
  (Text.splitOnByte 95 digits).all fun part => !part.isEmpty

def readLiteral (bits : Nat) (text : Text) : Except NumberCause Nat :=
  if text.isEmpty then .error .malformed
  else
    match addDigits bits (cutBase text).1 0 (cutBase text).2 with
    | .error cause => .error cause
    | .ok n => if text.contains 95 && !underscoresFit text then .error .malformed else .ok n

def readSignedLiteral (bits : Nat) (text : Text) : Except NumberFault Int :=
  match readLiteral bits (cutSign text).2 with
  | .error cause => .error ⟨.signed, text, cause⟩
  | .ok n =>
    let v : Int := if (cutSign text).1 then -(n : Int) else n
    let bound : Int := Nat.pow 2 (bits - 1)
    if -bound ≤ v ∧ v < bound then .ok v else .error ⟨.signed, text, .outOfRange⟩

def readBool (text : Text) : Except NumberFault Bool :=
  let isOneOf (names : List String) : Bool := names.any fun name => Text.ofString name == text
  if isOneOf ["1", "t", "T", "TRUE", "true", "True"] then .ok true
  else if isOneOf ["0", "f", "F", "FALSE", "false", "False"] then .ok false
  else .error ⟨.bool, text, .malformed⟩

end Text

end BorrowChecker
