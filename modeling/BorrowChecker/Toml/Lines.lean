import BorrowChecker.Toml.Scalar

/-!
Reading a TOML text into its lines. Recursion that follows nested brackets is bounded by fuel, of
which every step into or along a bracket takes one; each such step also takes a byte, so twice the
length of the text is always enough.
-/

namespace BorrowChecker

namespace Toml

/-- Whether the text holds only what may stand in a TOML text: well-formed characters, no control
characters but tabs and newlines, and a carriage return only before a line feed. -/
def isAdmissible (t : Text) : Bool := t.isWellFormed && linesFit t
where
  linesFit : Text → Bool
    | [] => true
    | 13 :: rest => rest.head? == some 10 && linesFit rest
    | b :: rest => (b == 9 || b == 10 || (32 ≤ b && b != 127)) && linesFit rest

def skipBlanks (t : Text) : Text := t.dropWhile isBlank

def skipGaps (inComment : Bool) : Text → Text
  | [] => []
  | b :: rest =>
    if inComment then skipGaps (!isNewline b) rest
    else if isBlank b || isNewline b then skipGaps false rest
    else if b == 35 then skipGaps true rest
    else b :: rest

def takeName (t : Text) : Option (Text × Text) :=
  match t with
  | 34 :: rest => takeBasic (rest.length + 1) rest
  | 39 :: rest => takeLiteral rest
  | _ =>
    let name := t.takeWhile Key.isBareByte
    if name.isEmpty then none else some (name, t.drop name.length)

def takeKey : Nat → Text → Option (Key × Text)
  | 0, _ => none
  | fuel + 1, t => do
    let (name, rest) ← takeName (skipBlanks t)
    match skipBlanks rest with
    | 46 :: rest =>
      let (key, rest) ← takeKey fuel rest
      return (name :: key, rest)
    | rest => return ([name], rest)

mutual

def takeExpr : Nat → Text → Option (Expr × Text)
  | 0, _ => none
  | fuel + 1, t =>
    match skipBlanks t with
    | 91 :: rest => (takeItems fuel rest).map fun (items, rest) => (.array items, rest)
    | 123 :: rest =>
      match skipBlanks rest with
      | 125 :: rest => some (.inline [], rest)
      | rest => (takeMembers fuel rest).map fun (members, rest) => (.inline members, rest)
    | t => takeScalar t

/-- The items of an array up to its closing bracket; a comma may follow the last. -/
def takeItems : Nat → Text → Option (List Expr × Text)
  | 0, _ => none
  | fuel + 1, t =>
    match skipGaps false t with
    | 93 :: rest => some ([], rest)
    | t => do
      let (item, rest) ← takeExpr fuel t
      match skipGaps false rest with
      | 44 :: rest =>
        let (items, rest) ← takeItems fuel rest
        return (item :: items, rest)
      | 93 :: rest => return ([item], rest)
      | _ => none

/-- The members of an inline table up to its closing brace, all on one line. -/
def takeMembers : Nat → Text → Option (List (Key × Expr) × Text)
  | 0, _ => none
  | fuel + 1, t => do
    let (key, rest) ← takeKey (t.length + 1) t
    let rest ← takeByte 61 rest
    let (value, rest) ← takeExpr fuel rest
    match skipBlanks rest with
    | 44 :: rest =>
      let (members, rest) ← takeMembers fuel rest
      return ((key, value) :: members, rest)
    | 125 :: rest => return ([(key, value)], rest)
    | _ => none

end

def takeLineEnd (t : Text) : Option Text :=
  match skipBlanks t with
  | [] => some []
  | b :: rest =>
    if b == 35 then some (rest.dropWhile fun b => !isNewline b)
    else if isNewline b then some rest
    else none

def takeHeader (t : Text) : Option (Key × Text) := do
  let (key, rest) ← takeKey (t.length + 1) t
  let rest ← takeByte 93 rest
  return (key, rest)

def takeLine (t : Text) : Option (Line × Text) :=
  match t with
  | 91 :: 91 :: rest => do
    let (key, rest) ← takeHeader rest
    let rest ← takeByte 93 rest
    return (.row key, rest)
  | 91 :: rest => do
    let (key, rest) ← takeHeader rest
    return (.table key, rest)
  | t => do
    let (key, rest) ← takeKey (t.length + 1) t
    let rest ← takeByte 61 rest
    let (value, rest) ← takeExpr (2 * rest.length + 2) rest
    return (.pair key value, rest)

def takeLines : Nat → Text → Option (List Line)
  | 0, _ => none
  | fuel + 1, t =>
    match skipGaps false t with
    | [] => some []
    | t => do
      let (line, rest) ← takeLine t
      let rest ← takeLineEnd rest
      let lines ← takeLines fuel rest
      return line :: lines

/-- The text after a mark of its encoding. -/
def cutMark : Text → Text
  | 0xff :: 0xfe :: rest => rest
  | 0xfe :: 0xff :: rest => rest
  | 0xef :: 0xbb :: 0xbf :: rest => rest
  | t => t

def lines? (t : Text) : Option (List Line) :=
  let t := cutMark t
  if isAdmissible t then takeLines (t.length + 1) t else none

end Toml

end BorrowChecker
