import BorrowChecker.Yaml.Token

/-!
The nodes that the tokens of a YAML text stand for. Only the first document is read. An alias is
replaced by the node that it names. Recursion is bounded by fuel; every step takes a token or goes
one level deeper on the same token, and it can do so at most twice in a row.
-/

namespace BorrowChecker

namespace Yaml

inductive Node
  /-- A scalar with its tag, empty if none is written, and whether it is plain. -/
  | scalar (tag : Text) (isPlain : Bool) (text : Text)
  | sequence (tag : Text) (items : List Node)
  | mapping (tag : Text) (members : List (Node × Node))
deriving Repr, Inhabited

namespace Node

def empty : Node := .scalar [] true []

end Node

/-- The state of reading nodes: the tokens to come, the anchors and the handles of tags. -/
structure Reading where
  tokens : List Token
  anchors : List (List Nat × Node) := []
  handles : List (List Nat × List Nat) := []
deriving Repr

def standardTag : Text := "tag:yaml.org,2002:"

def shortTag (tag : Text) : Text :=
  match Text.cutStart standardTag tag with
  | some rest => 33 :: 33 :: rest
  | none => tag

abbrev Read := StateT Reading Option

namespace Read

/-- The token to come. Two more must be readable behind it, as long as the text does not end. -/
def peek : Read Token := do
  let window := (← get).tokens.take 3
  match window with
  | t :: _ => if window.length = 3 || window.contains .streamEnd then return t else failure
  | [] => failure

def skip : Read Unit := modify fun s => { s with tokens := s.tokens.drop 1 }

def nextIs (kinds : List Token) : Read Bool := return kinds.contains (← peek)

def accept (t : Token) : Read Bool := do
  if (← peek) = t then
    skip
    return true
  else return false

def expect (t : Token) : Read Unit := do
  if ← accept t then return else failure

def resolveTag (handle rest : List Nat) : Read Text := do
  if handle.isEmpty then return shortTag (encode rest)
  let standard := [([33], [33]), ([33, 33], standardTag.map UInt8.toNat)]
  match ((← get).handles ++ standard).lookup handle with
  | some start => return shortTag (encode (start ++ rest))
  | none => failure

/-- The anchor and the tag before a node, in either order. -/
def properties : Read (Option (List Nat) × Text) := do
  match ← peek with
  | .anchor name =>
    skip
    match ← peek with
    | .tag handle rest =>
      skip
      return (some name, ← resolveTag handle rest)
    | _ => return (some name, [])
  | .tag handle rest =>
    skip
    let tag ← resolveTag handle rest
    match ← peek with
    | .anchor name =>
      skip
      return (some name, tag)
    | _ => return (none, tag)
  | _ => return (none, [])

mutual

/-- A node. Blocks are only found outside of brackets, and a list without indentation only as the
value of a key. -/
def node : Nat → (inBlock canHang : Bool) → Read Node
  | 0, _, _ => failure
  | fuel + 1, inBlock, canHang => do
    match ← peek with
    | .alias name =>
      skip
      match (← get).anchors.lookup name with
      | some n => return n
      | none => failure
    | _ =>
      let (anchor, tag) ← properties
      let n ← content fuel inBlock canHang (anchor.isSome || !tag.isEmpty) tag
      match anchor with
      | some name => modify fun s => { s with anchors := (name, n) :: s.anchors }
      | none => pure ()
      return n

def content : Nat → (inBlock canHang hasProperties : Bool) → Text → Read Node
  | 0, _, _, _, _ => failure
  | fuel + 1, inBlock, canHang, hasProperties, tag => do
    match ← peek with
    | .scalar style text =>
      skip
      return .scalar tag (style == .plain) (encode text)
    | .flowSequenceStart =>
      skip
      return .sequence tag (← flowItems fuel true)
    | .flowMappingStart =>
      skip
      return .mapping tag (← flowMembers fuel true)
    | .sequenceStart =>
      if inBlock then
        skip
        return .sequence tag (← blockItems fuel)
      else if hasProperties then return .scalar tag true []
      else failure
    | .mappingStart =>
      if inBlock then
        skip
        return .mapping tag (← blockMembers fuel)
      else if hasProperties then return .scalar tag true []
      else failure
    | .blockEntry =>
      if canHang then return .sequence tag (← hangingItems fuel)
      else if hasProperties then return .scalar tag true []
      else failure
    | _ => if hasProperties then return .scalar tag true [] else failure

def nodeUnless : Nat → List Token → (inBlock canHang : Bool) → Read Node
  | 0, _, _, _ => failure
  | fuel + 1, ends, inBlock, canHang => do
    if ← nextIs ends then return .empty else node fuel inBlock canHang

def blockItems : Nat → Read (List Node)
  | 0 => failure
  | fuel + 1 => do
    if ← accept .blockEntry then
      let n ← nodeUnless fuel [.blockEntry, .blockEnd] true false
      return n :: (← blockItems fuel)
    else
      expect .blockEnd
      return []

def hangingItems : Nat → Read (List Node)
  | 0 => failure
  | fuel + 1 => do
    if ← accept .blockEntry then
      let n ← nodeUnless fuel [.blockEntry, .key, .value, .blockEnd] true false
      return n :: (← hangingItems fuel)
    else return []

def blockMembers : Nat → Read (List (Node × Node))
  | 0 => failure
  | fuel + 1 => do
    if ← accept .key then
      let k ← nodeUnless fuel [.key, .value, .blockEnd] true true
      let v ← if ← accept .value then nodeUnless fuel [.key, .value, .blockEnd] true true
        else pure .empty
      return (k, v) :: (← blockMembers fuel)
    else
      expect .blockEnd
      return []

def flowItems : Nat → (isFirst : Bool) → Read (List Node)
  | 0, _ => failure
  | fuel + 1, isFirst => do
    if ← accept .flowSequenceEnd then return []
    if !isFirst then expect .flowEntry
    if ← accept .flowSequenceEnd then return []
    let n ← if ← accept .key then do
        let k ← nodeUnless fuel [.value, .flowEntry, .flowSequenceEnd] false false
        let v ← if ← accept .value then
            nodeUnless fuel [.flowEntry, .flowSequenceEnd] false false
          else pure .empty
        pure (Node.mapping [] [(k, v)])
      else node fuel false false
    return n :: (← flowItems fuel false)

def flowMembers : Nat → (isFirst : Bool) → Read (List (Node × Node))
  | 0, _ => failure
  | fuel + 1, isFirst => do
    if ← accept .flowMappingEnd then return []
    if !isFirst then expect .flowEntry
    if ← accept .flowMappingEnd then return []
    let member ← if ← accept .key then do
        let k ← nodeUnless fuel [.value, .flowEntry, .flowMappingEnd] false false
        let v ← if ← accept .value then
            nodeUnless fuel [.flowEntry, .flowMappingEnd] false false
          else pure .empty
        pure (k, v)
      else do
        let k ← node fuel false false
        pure (k, Node.empty)
    return member :: (← flowMembers fuel false)

end

def directives : Nat → (hasVersion : Bool) → Read Unit
  | 0, _ => failure
  | fuel + 1, hasVersion => do
    match ← peek with
    | .version major minor =>
      if hasVersion || major != 1 || minor != 1 then failure
      skip
      directives fuel true
    | .handle name start =>
      if ((← get).handles.lookup name).isSome then failure
      skip
      modify fun s => { s with handles := (name, start) :: s.handles }
      directives fuel hasVersion
    | _ => return

/-- The first document; none when there is no document at all. -/
def document (fuel : Nat) : Read (Option Node) := do
  match ← peek with
  | .streamEnd => return none
  | .version _ _ | .handle _ _ | .documentStart =>
    directives fuel false
    expect .documentStart
    let n ← match ← peek with
      | .version _ _ | .handle _ _ | .documentStart | .documentEnd | .streamEnd => pure .empty
      | _ => node fuel true false
    let _ ← peek
    return some n
  | _ =>
    let n ← node fuel true false
    let _ ← peek
    return some n

end Read

/-- The first document of a text: none when the text is malformed, and otherwise none inside when
there is no document. -/
def document? (text : Text) : Option (Option Node) :=
  let tokens := tokens text
  ((Read.document (3 * tokens.length + 3)).run { tokens }).map Prod.fst

end Yaml

end BorrowChecker
