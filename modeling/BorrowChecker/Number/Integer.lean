import BorrowChecker.Text.Quoted

/-!
Reading decimal integers of a bounded width. A reader names itself in its error, and the error
says whether the text is no number or the number does not fit.
-/

namespace BorrowChecker

inductive NumberReader where
  | signed
  | unsigned
  | float
  | bool
deriving DecidableEq, Repr

namespace NumberReader

def label : NumberReader → Text
  | signed => "strconv.ParseInt"
  | unsigned => "strconv.ParseUint"
  | float => "strconv.ParseFloat"
  | bool => "strconv.ParseBool"

end NumberReader

inductive NumberCause where
  | malformed
  | outOfRange
deriving DecidableEq, Repr

structure NumberFault where
  reader : NumberReader
  text : Text
  cause : NumberCause
deriving DecidableEq, Repr

namespace NumberFault

def reason : NumberCause → Text
  | .malformed => "invalid syntax"
  | .outOfRange => "value out of range"

def message (fault : NumberFault) : Text :=
  fault.reader.label ++ ": parsing " ++ Quoted.encode fault.text ++ ": " ++ reason fault.cause

end NumberFault

namespace Text

def isDigitByte (b : UInt8) : Bool := 48 ≤ b && b ≤ 57

def digitsValue (digits : Text) : Nat :=
  digits.foldl (fun n b => 10 * n + (b.toNat - 48)) 0

def toNat? (text : Text) : Option Nat :=
  if text.isEmpty then none
  else if text.all isDigitByte then some (digitsValue text)
  else none

def cutSign : Text → Bool × Text
  | [] => (false, [])
  | b :: rest => if b = 45 then (true, rest) else if b = 43 then (false, rest) else (false, b :: rest)

def toInt? (text : Text) : Option Int :=
  (toNat? (cutSign text).2).map fun n => if (cutSign text).1 then -(n : Int) else n

def readSigned (bits : Nat) (text : Text) : Except NumberFault Int :=
  match toInt? text with
  | none => .error ⟨.signed, text, .malformed⟩
  | some v =>
    let bound : Int := Nat.pow 2 (bits - 1)
    if -bound ≤ v ∧ v < bound then .ok v
    else .error ⟨.signed, text, .outOfRange⟩

/-- An unsigned integer of so many bits; no sign is accepted. -/
def readUnsigned (bits : Nat) (text : Text) : Except NumberFault Nat :=
  match toNat? text with
  | none => .error ⟨.unsigned, text, .malformed⟩
  | some v => if v < Nat.pow 2 bits then .ok v else .error ⟨.unsigned, text, .outOfRange⟩

end Text

end BorrowChecker
