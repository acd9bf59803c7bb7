import BorrowChecker.Yaml.Scalar

/-!
Tokens of a YAML text. Blocks are told apart by indentation, which the tokens make explicit: a block
opens where a line is indented further and is closed where a line is indented less. A key in front
of a colon is only known as such when the colon is met, so that its token is put in afterwards.
-/

namespace BorrowChecker

namespace Yaml

inductive Token
  | version (major minor : Nat)
  | handle (name content : List Nat)
  | documentStart
  | documentEnd
  | sequenceStart
  | mappingStart
  | blockEnd
  | flowSequenceStart
  | flowSequenceEnd
  | flowMappingStart
  | flowMappingEnd
  | blockEntry
  | flowEntry
  | key
  | value
  | alias (name : List Nat)
  | anchor (name : List Nat)
  | tag (handle rest : List Nat)
  | scalar (style : Style) (text : List Nat)
  | streamEnd
deriving DecidableEq, Repr

/-- A place where a key may have begun that is not marked as one. -/
structure KeyStart where
  token : Nat
  at_ : Cursor
  /-- Whether nothing but a key may stand there. -/
  isRequired : Bool
deriving Repr

structure Scan where
  cursor : Cursor
  /-- The tokens so far, the last first. -/
  tokens : List Token := []
  indent : Int := -1
  outer : List Int := []
  keyAllowed : Bool := true
  /-- Where a key may have begun, for the innermost bracket and those around it. -/
  keys : List (Option KeyStart) := [none]
deriving Repr

namespace Scan

def inFlow (s : Scan) : Bool := 1 < s.keys.length

def push (t : Token) (s : Scan) : Scan := { s with tokens := t :: s.tokens }

def insertAt (number : Nat) (t : Token) (s : Scan) : Scan :=
  let after := s.tokens.length - number
  { s with tokens := s.tokens.take after ++ t :: s.tokens.drop after }

def advance (n : Nat) (s : Scan) : Scan := { s with cursor := s.cursor.skipMany n }

/-- Opens a block at a column that is further right, as the token of the given number. -/
def openBlock (column : Nat) (number : Nat) (t : Token) (s : Scan) : Scan :=
  if s.inFlow || column ≤ s.indent then s
  else { s.insertAt number t with indent := column, outer := s.indent :: s.outer }

def closeBlocks (column : Int) (s : Scan) : Scan := if s.inFlow then s else close s.outer s
where
  close : List Int → Scan → Scan
    | [], s => s
    | indent :: outer, s =>
      if column < s.indent then close outer { s.push .blockEnd with indent, outer } else s

/-- Gives up on a key; there must not have been need of one. -/
def dropKey (s : Scan) : Option Scan :=
  match s.keys with
  | some k :: rest => if k.isRequired then none else some { s with keys := none :: rest }
  | _ => some s

def saveKey (s : Scan) : Option Scan :=
  if s.keyAllowed then do
    let isRequired := !s.inFlow && s.indent == s.cursor.column
    let s ← s.dropKey
    return { s with keys := some ⟨s.tokens.length, s.cursor, isRequired⟩ :: s.keys.drop 1 }
  else some s

/-- The key that a colon here belongs to. It stands on the same line, not too far back. -/
def keyHere (s : Scan) : Option (Option KeyStart) :=
  match s.keys with
  | some k :: _ =>
    if k.at_.line < s.cursor.line || k.at_.index + 1024 < s.cursor.index then
      if k.isRequired then none else some none
    else some (some k)
  | _ => some none

/-- Passes over blanks, comments and line breaks. In a block, tabs may not indent a line. -/
def skipGaps : Nat → Scan → Scan
  | 0, s => s
  | fuel + 1, s =>
    let tabs := s.inFlow || !s.keyAllowed
    let c := s.cursor.skipWhile fun x => x == 32 || (tabs && x == 9)
    let c := if c.head == 35 then c.skipWhile fun x => !isBreakOrEnd x else c
    if isBreak c.head then
      skipGaps fuel { s with cursor := c.takeBreak.2, keyAllowed := s.keyAllowed || !s.inFlow }
    else { s with cursor := c }

/-! ### Tokens -/

def isNameChar (c : Nat) : Bool :=
  (48 ≤ c && c ≤ 57) || (65 ≤ c && c ≤ 90) || (97 ≤ c && c ≤ 122) || c == 95 || c == 45

def atLineEnd (c : Cursor) : Option Cursor :=
  let c := c.skipWhile isBlank
  let c := if c.head == 35 then c.skipWhile fun x => !isBreakOrEnd x else c
  if isBreakOrEnd c.head then some c.takeBreak.2 else none

def isUriChar (c : Nat) : Bool :=
  isNameChar c || [59, 47, 63, 58, 64, 38, 61, 43, 36, 46, 33, 126, 42, 39, 40, 41, 37].contains c

/-- The handle of a tag: an exclamation mark, and a name with a second mark if one follows. -/
def takeHandle (c : Cursor) : List Nat × Cursor :=
  let name := c.skip.rest.takeWhile isNameChar
  let after := c.skip.skipMany name.length
  if after.head == 33 then (33 :: (name ++ [33]), after.skip) else (33 :: name, after)

def takeDirective (c : Cursor) : Option (Token × Cursor) := do
  let name := c.skip.rest.takeWhile isNameChar
  let c := (c.skip.skipMany name.length).skipWhile isBlank
  let digits := fun (c : Cursor) => c.rest.takeWhile fun x => 48 ≤ x && x ≤ 57
  let number := fun (l : List Nat) => l.foldl (fun n d => 10 * n + (d - 48)) 0
  if name = [89, 65, 77, 76] then
    let major := digits c
    let c := c.skipMany major.length
    if major.isEmpty || c.head != 46 then none
    let minor := digits c.skip
    if minor.isEmpty then none
    let after ← atLineEnd (c.skip.skipMany minor.length)
    return (.version (number major) (number minor), after)
  else if name = [84, 65, 71] then
    if c.head != 33 then none
    let (handle, c) := takeHandle c
    if !isBlank c.head then none
    let c := c.skipWhile isBlank
    let content := c.rest.takeWhile fun x => isUriChar x || x == 44 || x == 91 || x == 93
    let c := c.skipMany content.length
    if content.isEmpty || !isGap c.head then none
    let after ← atLineEnd c
    return (.handle handle content, after)
  else none

def takeAnchor (c : Cursor) : Option (List Nat × Cursor) :=
  let name := c.skip.rest.takeWhile isNameChar
  let after := c.skip.skipMany name.length
  if !name.isEmpty && (isGap after.head || [63, 58, 44, 93, 125, 37, 64, 96].contains after.head) then
    some (name, after)
  else none

def takeTag (c : Cursor) : Option (Token × Cursor) := do
  let (token, after) ←
    if c.look 1 == 60 then
      let uri := (c.skipMany 2).rest.takeWhile fun x => isUriChar x || x == 44 || x == 91 || x == 93
      let after := c.skipMany (2 + uri.length)
      if uri.isEmpty || after.head != 62 then none else some (Token.tag [] uri, after.skip)
    else
      let (handle, after) := takeHandle c
      let rest := after.rest.takeWhile isUriChar
      let end_ := after.skipMany rest.length
      if 1 < handle.length && handle.getLast? == some 33 then
        if rest.isEmpty then none else some (.tag handle rest, end_)
      else
        let rest := handle.drop 1 ++ rest
        some (if rest.isEmpty then .tag [] [33] else .tag [33] rest, end_)
  if isGap after.head then return (token, after) else none

def openFlow (t : Token) (s : Scan) : Option Scan := do
  let s ← s.saveKey
  return { (s.push t).advance 1 with keys := none :: s.keys, keyAllowed := true }

def closeFlow (t : Token) (s : Scan) : Option Scan := do
  let s ← s.dropKey
  return { (s.push t).advance 1 with
    keys := if s.inFlow then s.keys.drop 1 else s.keys, keyAllowed := false }

def blockEntry (s : Scan) : Option Scan := do
  if !s.inFlow && !s.keyAllowed then none
  let s ← (s.openBlock s.cursor.column s.tokens.length .sequenceStart).dropKey
  return { (s.push .blockEntry).advance 1 with keyAllowed := true }

def explicitKey (s : Scan) : Option Scan := do
  if !s.inFlow && !s.keyAllowed then none
  let s ← (s.openBlock s.cursor.column s.tokens.length .mappingStart).dropKey
  return { (s.push .key).advance 1 with keyAllowed := !s.inFlow }

/-- A colon: after a key on the same line, or in a place of its own. -/
def value (s : Scan) : Option Scan := do
  match ← s.keyHere with
  | some k =>
    let s := (s.insertAt k.token .key).openBlock k.at_.column k.token .mappingStart
    return { (s.push .value).advance 1 with keys := none :: s.keys.drop 1, keyAllowed := false }
  | none =>
    if !s.inFlow && !s.keyAllowed then none
    let s := s.openBlock s.cursor.column s.tokens.length .mappingStart
    return { (s.push .value).advance 1 with keyAllowed := !s.inFlow }

def keyToken (s : Scan) (take : Cursor → Option (Token × Cursor)) : Option Scan := do
  let s ← s.saveKey
  let (t, cursor) ← take s.cursor
  return { s.push t with cursor, keyAllowed := false }

def quoted (isSingle : Bool) (c : Cursor) : Option (Token × Cursor) :=
  (takeQuoted isSingle (c.rest.length + 1) [] c.skip).map fun (t, c) => (.scalar .quoted t, c)

def plain (s : Scan) : Option Scan := do
  let s ← s.saveKey
  let (t, cursor, isBroken) ←
    takePlain s.inFlow (s.indent + 1).toNat (s.cursor.rest.length + 1) {} [] s.cursor
  return { s.push (.scalar .plain t) with cursor, keyAllowed := isBroken }

def block (isLiteral : Bool) (s : Scan) : Option Scan := do
  let s ← s.dropKey
  let (t, cursor) ← takeBlock isLiteral s.indent s.cursor.skip
  return { s.push (.scalar .block t) with cursor, keyAllowed := true }

def documentMark (t : Token) (s : Scan) : Option Scan := do
  let s ← (s.closeBlocks (-1)).dropKey
  return { (s.push t).advance 3 with keyAllowed := false }

def directive (s : Scan) : Option Scan := do
  let s ← (s.closeBlocks (-1)).dropKey
  let (t, cursor) ← takeDirective s.cursor
  return { s.push t with cursor, keyAllowed := false }

def startsPlain (s : Scan) : Bool :=
  let c := s.cursor
  let indicators := [45, 63, 58, 44, 91, 93, 123, 125, 35, 38, 42, 33, 124, 62, 39, 34, 37, 64, 96]
  !(isGap c.head || indicators.contains c.head) ||
    (c.head == 45 && !isBlank (c.look 1)) ||
    (!s.inFlow && (c.head == 63 || c.head == 58) && !isGap (c.look 1))

def next (s : Scan) : Option Scan :=
  let s := s.skipGaps (s.cursor.rest.length + 1)
  let s := s.closeBlocks s.cursor.column
  let c := s.cursor
  let isAlone := isGap (c.look 1)
  match c.head with
  | 0 => do
    let s ← (s.closeBlocks (-1)).dropKey
    return s.push .streamEnd
  | b =>
    if c.column == 0 && b == 37 then s.directive
    else if c.atMarker 45 then s.documentMark .documentStart
    else if c.atMarker 46 then s.documentMark .documentEnd
    else if b == 91 then s.openFlow .flowSequenceStart
    else if b == 123 then s.openFlow .flowMappingStart
    else if b == 93 then s.closeFlow .flowSequenceEnd
    else if b == 125 then s.closeFlow .flowMappingEnd
    else if b == 44 then do
      let s ← s.dropKey
      return { (s.push .flowEntry).advance 1 with keyAllowed := true }
    else if b == 45 && isAlone then s.blockEntry
    else if b == 63 && (s.inFlow || isAlone) then s.explicitKey
    else if b == 58 && (s.inFlow || isAlone) then s.value
    else if b == 42 then s.keyToken fun c => (takeAnchor c).map fun (n, c) => (.alias n, c)
    else if b == 38 then s.keyToken fun c => (takeAnchor c).map fun (n, c) => (.anchor n, c)
    else if b == 33 then s.keyToken takeTag
    else if b == 124 && !s.inFlow then s.block true
    else if b == 62 && !s.inFlow then s.block false
    else if b == 39 then s.keyToken (quoted true)
    else if b == 34 then s.keyToken (quoted false)
    else if s.startsPlain then s.plain
    else none

/-- Reads all tokens, up to the first place that none can be read from. -/
def all : Nat → Scan → List Token
  | 0, s => s.tokens.reverse
  | fuel + 1, s =>
    match s.next with
    | none => s.tokens.reverse
    | some s => if s.tokens.head? == some .streamEnd then s.tokens.reverse else all fuel s

end Scan

/-- The tokens of a text. They end in `streamEnd` unless the text is malformed. -/
def tokens (text : Text) : List Token :=
  match Cursor.start? text with
  | none => []
  | some cursor => Scan.all (text.length + 2) { cursor }

end Yaml

end BorrowChecker
