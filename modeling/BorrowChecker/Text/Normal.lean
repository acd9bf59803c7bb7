import BorrowChecker.Text.Normal.Table

/-!
The canonical composed form of a text, in which names that look the same are equal. A text is
decomposed, its marks are put in the order of their combining classes, and what can be composed is
composed again. A run of more than thirty marks is first broken up by a combining grapheme joiner.
-/

namespace BorrowChecker

namespace CodePoint

def combiningClass (c : Nat) : Nat :=
  if c < 0x300 then 0
  else ((classTable.find? fun row => within row.2 c).map Prod.fst).getD 0

def isSyllable (c : Nat) : Bool := 0xAC00 ≤ c && c ≤ 0xD7A3

/-- The canonical decomposition of one code point in one step; empty for most. -/
def decomposition (c : Nat) : List Nat :=
  if c < 0xC0 then []
  else if isSyllable c then
    let index := c - 0xAC00
    if index % 28 = 0 then [0x1100 + index / 588, 0x1161 + index % 588 / 28]
    else [c - index % 28, 0x11A7 + index % 28]
  else
    match (compositions ++ exclusions).find? fun row => row.1 == c with
    | some (_, a, b) => if b = 0 then [a] else [a, b]
    | none => []

def decompose : Nat → Nat → List Nat
  | 0, c => [c]
  | depth + 1, c =>
    match decomposition c with
    | [] => [c]
    | parts => parts.flatMap (decompose depth)

/-- No code point decomposes in more steps than this. -/
def maxDepth : Nat := 6

def composite? (a b : Nat) : Option Nat :=
  if 0x1100 ≤ a && a < 0x1113 && 0x1161 ≤ b && b < 0x1176 then
    some (0xAC00 + (a - 0x1100) * 588 + (b - 0x1161) * 28)
  else if isSyllable a && (a - 0xAC00) % 28 == 0 && 0x11A8 ≤ b && b < 0x11C3 then
    some (a + (b - 0x11A7))
  else (compositions.find? fun row => row.2.1 == a && row.2.2 == b).map Prod.fst

def composesBackward (c : Nat) : Bool :=
  (0x1161 ≤ c && c < 0x1176) || (0x11A8 ≤ c && c < 0x11C3) ||
    compositions.any fun row => row.2.2 == c

def attaches (c : Nat) : Bool :=
  if c < 0x300 then false else combiningClass c != 0 || composesBackward c

def leadingMarks (c : Nat) : Nat :=
  if c < 0x300 then 0
  else if within wideLeads c then 1
  else ((decompose maxDepth c).takeWhile attaches).length

def trailingMarks (c : Nat) : Nat :=
  if c < 0x80 then 0
  else if within wideTrails c then 1
  else if within widePairs c then 2
  else ((decompose maxDepth c).reverse.takeWhile attaches).length

def ofValue (c : Nat) : CodePoint := ⟨c, encode c⟩

end CodePoint

namespace Normal

/-- The longest run of marks that is left as it is. -/
def maxMarks : Nat := 30

def joiner : CodePoint := .ofValue 0x34F

def breakRuns (count : Nat) : List CodePoint → List CodePoint
  | [] => []
  | c :: rest =>
    let lead := CodePoint.leadingMarks c.value
    if maxMarks < count + lead then joiner :: c :: breakRuns lead rest
    else if lead = 0 then c :: breakRuns (CodePoint.trailingMarks c.value) rest
    else c :: breakRuns (count + lead) rest

/-- Every code point decomposed; one that does not decompose keeps its bytes. -/
def decomposeAll (points : List CodePoint) : List CodePoint :=
  points.flatMap fun c =>
    if (CodePoint.decomposition c.value).isEmpty then [c]
    else (CodePoint.decompose CodePoint.maxDepth c.value).map .ofValue

/-- Moves a mark behind the marks of lower class that follow it. -/
def place (c : CodePoint) : List CodePoint → List CodePoint
  | [] => [c]
  | d :: rest =>
    let low := CodePoint.combiningClass d.value
    if low ≠ 0 ∧ low < CodePoint.combiningClass c.value then d :: place c rest
    else c :: d :: rest

def reorder : List CodePoint → List CodePoint
  | [] => []
  | c :: rest => place c (reorder rest)

/-- Composes what follows a code point with it, unless something in between blocks. The marks seen
since are held back in reverse order. -/
def composeFrom (start : CodePoint) (marks : List CodePoint) : List CodePoint → List CodePoint
  | [] => start :: marks.reverse
  | c :: rest =>
    let k := CodePoint.combiningClass c.value
    let blocked := match marks with
      | [] => false
      | m :: _ => k ≤ CodePoint.combiningClass m.value
    let composed := if blocked then none else CodePoint.composite? start.value c.value
    match composed with
    | some x => composeFrom (.ofValue x) marks rest
    | none =>
      if k = 0 then start :: marks.reverse ++ composeFrom c [] rest
      else composeFrom start (c :: marks) rest

def compose : List CodePoint → List CodePoint
  | [] => []
  | c :: rest => composeFrom c [] rest

end Normal

namespace Text

/-- The canonical composed form of a text. Bytes that are not UTF-8 stay as they are. -/
def normalize (text : Text) : Text :=
  if text.all (· < 0x80) then text
  else
    ofCodePoints
      (Normal.compose (Normal.reorder (Normal.decomposeAll (Normal.breakRuns 0 text.codePoints))))

end Text

end BorrowChecker
