import BorrowChecker.Text.CodePoint

/-!
Sets of code points given by inclusive ranges. A table is written as hexadecimal numbers
and ranges, one or more to a line, such as `AA B5 C0-D6`.
-/

namespace BorrowChecker

namespace CodePoint

def hexValue (c : Char) : Nat :=
  if c.isDigit then c.toNat - 48 else c.toNat - 55

def ofHex (digits : List Char) : Nat :=
  digits.foldl (fun n c => 16 * n + hexValue c) 0

def cutAt (sep : Char → Bool) : List Char → List (List Char)
  | [] => [[]]
  | c :: rest =>
    if sep c then [] :: cutAt sep rest
    else
      match cutAt sep rest with
      | [] => [[c]]
      | piece :: pieces => (c :: piece) :: pieces

def ranges (table : String) : List (Nat × Nat) :=
  (cutAt Char.isWhitespace table.toList).filterMap fun entry =>
    match cutAt (· == '-') entry with
    | [[]] => none
    | [one] => some (ofHex one, ofHex one)
    | [first, last] => some (ofHex first, ofHex last)
    | _ => none

def within (table : List (Nat × Nat)) (c : Nat) : Bool :=
  table.any fun r => r.1 ≤ c && c ≤ r.2

end CodePoint

end BorrowChecker
