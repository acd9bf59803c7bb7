import BorrowChecker.Text.Quoted
import BorrowChecker.Yaml.Cursor

/-!
Scalars of YAML: plain, in quotes, and in blocks of lines. Lines are folded: a single break between
two lines becomes a blank, and of more breaks the first is dropped. Loops are bounded by fuel; every
turn passes over at least one character, so the length of the text is enough.
-/

namespace BorrowChecker

namespace Yaml

inductive Style
  | plain
  | quoted
  | block
deriving DecidableEq, Repr

structure Gap where
  blanks : List Nat := []
  isBroken : Bool := false
  first : List Nat := []
  others : List Nat := []
deriving Repr

namespace Gap

def folded (g : Gap) : List Nat :=
  if !g.isBroken then g.blanks
  else if g.first.head? == some 10 then if g.others.isEmpty then [32] else g.others
  else g.first ++ g.others

/-- Passes over blanks and line breaks. A tab may not stand left of the given column on a later
line. -/
def take (column : Nat) : Nat → Gap → Cursor → Option (Gap × Cursor)
  | 0, _, _ => none
  | fuel + 1, g, c =>
    if isBlank c.head then
      if g.isBroken && c.column < column && c.head == 9 then none
      else if g.isBroken then take column fuel g c.skip
      else take column fuel { g with blanks := g.blanks ++ [c.head] } c.skip
    else if isBreak c.head then
      let (br, after) := c.takeBreak
      if g.isBroken then take column fuel { g with others := g.others ++ br } after
      else take column fuel { g with blanks := [], isBroken := true, first := br } after
    else some (g, c)

end Gap

/-! ### Quoted scalars -/

def escapeLetter? (c : Nat) : Option Nat :=
  match c with
  | 48 => some 0
  | 97 => some 7
  | 98 => some 8
  | 116 | 9 => some 9
  | 110 => some 10
  | 118 => some 11
  | 102 => some 12
  | 114 => some 13
  | 101 => some 27
  | 32 => some 32
  | 34 => some 34
  | 39 => some 39
  | 92 => some 92
  | 78 => some 0x85
  | 95 => some 0xA0
  | 76 => some 0x2028
  | 80 => some 0x2029
  | _ => none

def escapeWidth? (c : Nat) : Option Nat :=
  match c with
  | 120 => some 2
  | 117 => some 4
  | 85 => some 8
  | _ => none

/-- The code point of an escape and how many characters the escape has, its backslash included. -/
def escape? (c : Cursor) : Option (Nat × Nat) :=
  match escapeLetter? (c.look 1) with
  | some v => some (v, 2)
  | none => do
    let width ← escapeWidth? (c.look 1)
    let value ← (List.range width).foldlM (fun v k => do
      let d ← Quoted.hexValue? (c.look (2 + k))
      return 16 * v + d) 0
    if Quoted.isScalar value then some (value, 2 + width) else none

def takeQuoted (isSingle : Bool) : Nat → List Nat → Cursor → Option (List Nat × Cursor)
  | 0, _, _ => none
  | fuel + 1, text, c =>
    let quote := if isSingle then 39 else 34
    if c.atDocumentMarker || c.head == 0 then none
    else if isSingle && c.head == 39 && c.look 1 == 39 then
      takeQuoted isSingle fuel (text ++ [39]) (c.skipMany 2)
    else if c.head == quote then some (text, c.skip)
    else if !isSingle && c.head == 92 then
      if isBreak (c.look 1) then do
        let (g, after) ← Gap.take 0 (fuel + 1) { isBroken := true } c.skip.takeBreak.2
        takeQuoted isSingle fuel (text ++ g.folded) after
      else do
        let (v, width) ← escape? c
        takeQuoted isSingle fuel (text ++ [v]) (c.skipMany width)
    else if isGap c.head then do
      let (g, after) ← Gap.take 0 (fuel + 1) {} c
      takeQuoted isSingle fuel (text ++ g.folded) after
    else takeQuoted isSingle fuel (text ++ [c.head]) c.skip

/-! ### Plain scalars -/

def endsPlain (inFlow : Bool) (c : Cursor) : Bool :=
  (c.head == 58 && isGap (c.look 1)) ||
    (inFlow && (c.head == 44 || (c.head == 63 && (c.look 1 == 32 || isBreakOrEnd (c.look 1))) ||
      c.head == 91 || c.head == 93 || c.head == 123 || c.head == 125))

/-- The words of a plain scalar; later lines must be indented up to the given column. The last
result tells whether a line break follows the scalar. -/
def takePlain (inFlow : Bool) (column : Nat) :
    Nat → Gap → List Nat → Cursor → Option (List Nat × Cursor × Bool)
  | 0, _, _, _ => none
  | fuel + 1, g, text, c =>
    if c.atDocumentMarker || c.head == 35 then some (text, c, g.isBroken)
    else
      let word := wordOf fuel c
      let text := if word.isEmpty then text else text ++ g.folded ++ word
      let g : Gap := if word.isEmpty then g else {}
      let c := c.skipMany word.length
      if isBlank c.head || isBreak c.head then do
        let (g, after) ← Gap.take column (fuel + 1) g c
        if !inFlow && after.column < column then return (text, after, g.isBroken)
        takePlain inFlow column fuel g text after
      else some (text, c, g.isBroken)
where
  wordOf : Nat → Cursor → List Nat
    | 0, _ => []
    | fuel + 1, c =>
      if isGap c.head || endsPlain inFlow c then [] else c.head :: wordOf fuel c.skip

/-! ### Block scalars -/

inductive Chomp
  | clip
  | strip
  | keep
deriving DecidableEq, Repr

def chompOf? (c : Nat) : Option Chomp :=
  if c == 43 then some .keep else if c == 45 then some .strip else none

def incrementOf? (c : Nat) : Option Nat := if 49 ≤ c && c ≤ 57 then some (c - 48) else none

/-- The marks after the sign of a block: how its end is chomped and how far it is indented, in
either order. -/
def takeBlockMarks (c : Cursor) : Chomp × Option Nat × Cursor :=
  match chompOf? c.head with
  | some chomp =>
    match incrementOf? c.skip.head with
    | some n => (chomp, some n, c.skip.skip)
    | none => (chomp, none, c.skip)
  | none =>
    match incrementOf? c.head with
    | some n =>
      match chompOf? c.skip.head with
      | some chomp => (chomp, some n, c.skip.skip)
      | none => (.clip, some n, c.skip)
    | none => (.clip, none, c)

/-- Passes over the indentation and the empty lines before a line of a block. Returns the line
breaks, the widest indentation met and the place. -/
def takeEmptyLines (indent : Option Nat) :
    Nat → List Nat → Nat → Cursor → Option (List Nat × Nat × Cursor)
  | 0, _, _, _ => none
  | fuel + 1, breaks, widest, c =>
    let isInside := fun (column : Nat) => (indent.map fun n => decide (column < n)).getD true
    let blanks := (c.rest.takeWhile (· == 32)).length
    let blanks := (indent.map fun n => min blanks (n - c.column)).getD blanks
    let c := c.skipMany blanks
    let widest := max widest c.column
    if isInside c.column && c.head == 9 then none
    else if isBreak c.head then
      let (br, after) := c.takeBreak
      takeEmptyLines indent fuel (breaks ++ br) widest after
    else some (breaks, widest, c)

def takeBlockLines (isLiteral : Bool) (indent : Nat) :
    Nat → (text first others : List Nat) → (afterBlank : Bool) → Cursor →
      Option (List Nat × List Nat × List Nat × Cursor)
  | 0, _, _, _, _, _ => none
  | fuel + 1, text, first, others, afterBlank, c =>
    if c.column == indent && c.head != 0 then do
      let startsBlank := isBlank c.head
      let joint :=
        if !isLiteral && !afterBlank && !startsBlank && first.head? == some 10 then
          if others.isEmpty then [32] else []
        else first
      let line := c.rest.takeWhile fun x => !isBreakOrEnd x
      let (br, after) := (c.skipMany line.length).takeBreak
      let (breaks, _, after) ← takeEmptyLines (some indent) (fuel + 1) [] 0 after
      takeBlockLines isLiteral indent fuel (text ++ joint ++ others ++ line) br breaks startsBlank
        after
    else some (text, first, others, c)

def takeBlock (isLiteral : Bool) (outer : Int) (c : Cursor) : Option (List Nat × Cursor) := do
  let (chomp, increment, c) := takeBlockMarks c
  let c := c.skipWhile isBlank
  let c := if c.head == 35 then c.skipWhile fun x => !isBreakOrEnd x else c
  if !isBreakOrEnd c.head then none
  let c := c.takeBreak.2
  let fuel := c.rest.length + 1
  let given := increment.map fun n => (max outer 0).toNat + n
  let (breaks, widest, c) ← takeEmptyLines given fuel [] 0 c
  let indent := given.getD (max (max widest (outer + 1).toNat) 1)
  let (text, first, others, c) ← takeBlockLines isLiteral indent fuel [] [] breaks false c
  let ending := match chomp with
    | .strip => []
    | .clip => first
    | .keep => first ++ others
  return (text ++ ending, c)

end Yaml

end BorrowChecker
