import BorrowChecker.Number.Double

/-!
JSON documents and their text. What is special in HTML is escaped, so that a document can stand
inside a page.
-/

namespace BorrowChecker

/-- A JSON document. The members of an object keep their order. -/
inductive Json where
  | null
  | bool (value : Bool)
  | int (value : Int)
  | double (value : Double)
  | string (value : Text)
  | array (elems : List Json)
  | object (members : List (Text × Json))
deriving Repr

namespace Json

def escapeLetter? (c : Nat) : Option UInt8 :=
  match c with
  | 34 => some 34
  | 92 => some 92
  | 8 => some 98
  | 12 => some 102
  | 10 => some 110
  | 13 => some 114
  | 9 => some 116
  | _ => none

/-- Whether a code point is written by its number: controls, the signs of HTML, the two line
separators, and bytes that are not UTF-8. -/
def isNumbered (c : CodePoint) : Bool :=
  c.value < 32 || c.value == 38 || c.value == 60 || c.value == 62 || c.value == 0x2028 ||
    c.value == 0x2029 || c.isBroken

def escapePoint (c : CodePoint) : Text :=
  match escapeLetter? c.value with
  | some letter => [92, letter]
  | none => if isNumbered c then ("\\u" : Text) ++ Text.hexDigits 4 c.value else c.bytes

def quote (text : Text) : Text := 34 :: (text.codePoints.flatMap escapePoint ++ [34])

def member (name : Text) (value : Json) : Text × Json := (name, value)

def textMember (name value : Text) : List (Text × Json) :=
  if value.isEmpty then [] else [(name, .string value)]

def newline (depth : Nat) : Text := 10 :: List.replicate (2 * depth) 32

mutual

def compact : Json → Text
  | null => "null"
  | bool value => if value then "true" else "false"
  | int value => Text.ofInt value
  | double value => value.json
  | string value => quote value
  | array elems => "[" ++ Text.joined "," (compactAll elems) ++ "]"
  | object members => "\x7b" ++ Text.joined "," (compactMembers members) ++ "\x7d"

def compactAll : List Json → List Text
  | [] => []
  | j :: rest => j.compact :: compactAll rest

def compactMembers : List (Text × Json) → List Text
  | [] => []
  | (name, j) :: rest => (quote name ++ ":" ++ j.compact) :: compactMembers rest

end

mutual

def indented (depth : Nat) : Json → Text
  | null => "null"
  | bool value => if value then "true" else "false"
  | int value => Text.ofInt value
  | double value => value.json
  | string value => quote value
  | array [] => "[]"
  | array (first :: rest) =>
    "[" ++ newline (depth + 1) ++
      Text.joined (44 :: newline (depth + 1)) (indentedAll (depth + 1) (first :: rest)) ++
      newline depth ++ "]"
  | object [] => "\x7b\x7d"
  | object (first :: rest) =>
    "\x7b" ++ newline (depth + 1) ++
      Text.joined (44 :: newline (depth + 1)) (indentedMembers (depth + 1) (first :: rest)) ++
      newline depth ++ "\x7d"

def indentedAll (depth : Nat) : List Json → List Text
  | [] => []
  | j :: rest => j.indented depth :: indentedAll depth rest

def indentedMembers (depth : Nat) : List (Text × Json) → List Text
  | [] => []
  | (name, j) :: rest => (quote name ++ ": " ++ j.indented depth) :: indentedMembers depth rest

end

end Json

end BorrowChecker
