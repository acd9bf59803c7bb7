/-!
Byte strings. Names, messages and rendered output are raw bytes, because a name read from a file
need not be valid UTF-8.
-/

namespace BorrowChecker

abbrev Text := List UInt8

namespace Text

instance lawful : LawfulBEq Text := inferInstance

def ofString (s : String) : Text := s.toByteArray.data.toList

instance : Coe String Text := ⟨ofString⟩

def digit (n : Nat) : UInt8 := 48 + n.toUInt8

def ofNat (n : Nat) : Text :=
  if n < 10 then [digit n] else ofNat (n / 10) ++ [digit (n % 10)]

def ofInt : Int → Text
  | .ofNat n => ofNat n
  | .negSucc n => 45 :: ofNat (n + 1)

def padLeft (width : Nat) (fill : UInt8) (text : Text) : Text :=
  List.replicate (width - text.length) fill ++ text

def padRight (width : Nat) (text : Text) : Text :=
  text ++ List.replicate (width - text.length) 32

def guarded (condition : Bool) (text : Text) : Text := if condition then text else []

def joined (sep : Text) (parts : List Text) : Text := sep.intercalate parts

def repeated (n : Nat) (text : Text) : Text := (List.replicate n text).flatten

def startsWith (text start : Text) : Bool := start.isPrefixOf text

def cutStart (start text : Text) : Option Text :=
  if start.isPrefixOf text then some (text.drop start.length) else none

def cutEnd (ending text : Text) : Option Text :=
  if ending.isSuffixOf text then some (text.take (text.length - ending.length)) else none

def before : Text → Text → Bool
  | [], [] => false
  | [], _ :: _ => true
  | _ :: _, [] => false
  | a :: s, b :: t => if a = b then before s t else a < b

/-- Pieces between the occurrences of one byte; always at least one piece. -/
def splitOnByte (sep : UInt8) : Text → List Text
  | [] => [[]]
  | b :: rest =>
    if b = sep then [] :: splitOnByte sep rest
    else
      match splitOnByte sep rest with
      | [] => [[b]]
      | piece :: pieces => (b :: piece) :: pieces

def hexByte (b : UInt8) : Text :=
  [hexDigit (b / 16), hexDigit (b % 16)]
where
  hexDigit (d : UInt8) : UInt8 := if d < 10 then 48 + d else 87 + d

def hex (text : Text) : Text := text.flatMap hexByte

/-- Exactly so many lower-case hexadecimal digits of a number, the most significant first. -/
def hexDigits : Nat → Nat → Text
  | 0, _ => []
  | width + 1, n => hexDigits width (n / 16) ++ [hexByte.hexDigit (n % 16).toUInt8]

end Text

end BorrowChecker
