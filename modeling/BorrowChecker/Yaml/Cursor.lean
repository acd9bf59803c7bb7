import BorrowChecker.Text.CodePoint

/-!
A place in a YAML text: the characters still to be read, with the line and the column of the first.
-/

namespace BorrowChecker

namespace Yaml

/-- A place in the text. Characters are code points; zero stands for the end. -/
structure Cursor where
  rest : List Nat
  index : Nat := 0
  line : Nat := 0
  column : Nat := 0
deriving Repr

def isBlank (c : Nat) : Bool := c == 32 || c == 9

def isBreak (c : Nat) : Bool := c == 10 || c == 13 || c == 0x85 || c == 0x2028 || c == 0x2029

def isBreakOrEnd (c : Nat) : Bool := isBreak c || c == 0

def isGap (c : Nat) : Bool := isBlank c || isBreakOrEnd c

def isAllowed (c : Nat) : Bool :=
  c == 9 || c == 10 || c == 13 || (0x20 ≤ c && c ≤ 0x7E) || c == 0x85 ||
    (0xA0 ≤ c && c ≤ 0xD7FF) || (0xE000 ≤ c && c ≤ 0xFFFD) || (0x10000 ≤ c && c ≤ 0x10FFFF)

namespace Cursor

def start? (text : Text) : Option Cursor :=
  let points := ((Text.cutStart [0xEF, 0xBB, 0xBF] text).getD text).codePoints
  if points.all fun c => !c.isBroken && isAllowed c.value then
    some { rest := points.map CodePoint.value }
  else none

def look (c : Cursor) (ahead : Nat) : Nat := c.rest.getD ahead 0

def head (c : Cursor) : Nat := c.look 0

/-- Passes over a character that does not end its line. -/
def skip (c : Cursor) : Cursor :=
  match c.rest with
  | [] => c
  | _ :: rest => { c with rest, index := c.index + 1, column := c.column + 1 }

def skipMany : Nat → Cursor → Cursor
  | 0, c => c
  | n + 1, c => skipMany n c.skip

def skipWhile (keep : Nat → Bool) (c : Cursor) : Cursor :=
  c.skipMany (c.rest.takeWhile keep).length

def takeBreak (c : Cursor) : List Nat × Cursor :=
  match c.rest with
  | 13 :: 10 :: rest => ([10], ⟨rest, c.index + 2, c.line + 1, 0⟩)
  | b :: rest =>
    if isBreak b then
      ([if b == 0x2028 || b == 0x2029 then b else 10], ⟨rest, c.index + 1, c.line + 1, 0⟩)
    else ([], c)
  | [] => ([], c)

/-- Whether three dashes or points stand alone at the start of a line. -/
def atMarker (mark : Nat) (c : Cursor) : Bool :=
  c.column == 0 && c.look 0 == mark && c.look 1 == mark && c.look 2 == mark && isGap (c.look 3)

def atDocumentMarker (c : Cursor) : Bool := c.atMarker 45 || c.atMarker 46

end Cursor

def encode (points : List Nat) : Text := points.flatMap CodePoint.encode

end Yaml

end BorrowChecker
