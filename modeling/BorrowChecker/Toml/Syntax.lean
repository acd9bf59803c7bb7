import BorrowChecker.Text.Basic

/-!
The parts of a TOML text: keys, expressions and lines.
-/

namespace BorrowChecker

namespace Toml

abbrev Key := List Text

/-- What stands after an equals sign. A float or a moment in time is kept as it is written. -/
inductive Expr
  | string (t : Text)
  | integer (v : Int)
  | float (written : Text)
  | bool (b : Bool)
  | moment (written : Text)
  | array (items : List Expr)
  | inline (members : List (Key × Expr))
deriving Repr, Inhabited

inductive Line
  /-- Opens a table: `[key]`. -/
  | table (key : Key)
  /-- Opens one more table of a list: `[[key]]`. -/
  | row (key : Key)
  | pair (key : Key) (value : Expr)
deriving Repr

namespace Key

def isBareByte (b : UInt8) : Bool :=
  (48 ≤ b && b ≤ 57) || (65 ≤ b && b ≤ 90) || (97 ≤ b && b ≤ 122) || b == 95 || b == 45

def escapeByte (b : UInt8) : Text :=
  match b with
  | 34 => "\\\""
  | 92 => "\\\\"
  | 8 => "\\b"
  | 9 => "\\t"
  | 10 => "\\n"
  | 12 => "\\f"
  | 13 => "\\r"
  | b => if b < 32 || b == 127 then "\\u00" ++ Text.hexByte b else [b]

/-- A name, in quotes unless it can stand without. -/
def printName (name : Text) : Text :=
  if !name.isEmpty && name.all isBareByte then name
  else 34 :: (name.flatMap escapeByte ++ [34])

def print (key : Key) : Text := Text.joined "." (key.map printName)

end Key

end Toml

end BorrowChecker
