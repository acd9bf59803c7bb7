import BorrowChecker.Number.Double
import BorrowChecker.Yaml.Node

/-!
Reading nodes as typed data. Every reader answers with none where a node has the wrong kind, and
with nothing inside where the node is null, which leaves a field as it is and an item out.
-/

namespace BorrowChecker

namespace Yaml

def isNullText (t : Text) : Bool :=
  t.isEmpty || t == "~" || t == "null" || t == "Null" || t == "NULL"

def boolOfText? (t : Text) : Option Bool :=
  if t == "true" || t == "True" || t == "TRUE" then some true
  else if t == "false" || t == "False" || t == "FALSE" then some false
  else none

def boolOfWord? (t : Text) : Option Bool :=
  if t == "y" || t == "Y" || t == "yes" || t == "on" then some true
  else if t == "n" || t == "N" || t == "no" || t == "off" then some false
  else none

def isNumberText (t : Text) : Bool := (Double.read (t.filter (· != 95))).toOption.isSome

/-- Whether a scalar is of the type that its tag claims. Tags that are not of the standard types
claim nothing. -/
def fitsTag (tag text : Text) : Bool :=
  if tag == "!!null" then isNullText text
  else if tag == "!!bool" then (boolOfText? text).isSome
  else if tag == "!!int" then (Text.toInt? (text.filter (· != 95))).isSome
  else if tag == "!!float" then isNumberText text
  else if tag == "!!timestamp" then (text.head?.map Text.isDigitByte).getD false
  else true

def isText (tag : Text) (isPlain : Bool) : Bool :=
  tag == "!!str" || ((tag.isEmpty || tag == "!") && !isPlain)

def isUntyped (tag : Text) : Bool := tag.isEmpty || tag == "!" || tag == "!!null"

def sextet? (b : UInt8) : Option Nat :=
  if 65 ≤ b && b ≤ 90 then some (b.toNat - 65)
  else if 97 ≤ b && b ≤ 122 then some (b.toNat - 71)
  else if 48 ≤ b && b ≤ 57 then some (b.toNat + 4)
  else if b = 43 then some 62
  else if b = 47 then some 63
  else none

def ofBase64? : Text → Option Text
  | [] => some []
  | [a, b, 61, 61] => do
    let x ← sextet? a
    let y ← sextet? b
    return [(x * 4 + y / 16).toUInt8]
  | [a, b, c, 61] => do
    let x ← sextet? a
    let y ← sextet? b
    let z ← sextet? c
    return [(x * 4 + y / 16).toUInt8, (y * 16 + z / 4).toUInt8]
  | a :: b :: c :: d :: rest => do
    let x ← sextet? a
    let y ← sextet? b
    let z ← sextet? c
    let w ← sextet? d
    let tail ← ofBase64? rest
    return (x * 4 + y / 16).toUInt8 :: (y * 16 + z / 4).toUInt8 :: (z * 64 + w).toUInt8 :: tail
  | _ => none

namespace Node

def text? : Node → Option (Option Text)
  | .scalar tag isPlain t =>
    if isText tag isPlain then some (some t)
    else if tag == "!!binary" then (ofBase64? (t.filter fun b => b != 10 && b != 13)).map some
    else if !fitsTag tag t then none
    else if isUntyped tag && isNullText t then some none
    else some (some t)
  | _ => none

def bool? : Node → Option (Option Bool)
  | .scalar tag isPlain t =>
    if isText tag isPlain then (boolOfWord? t).map some
    else if !fitsTag tag t then none
    else if isUntyped tag && isNullText t then some none
    else ((boolOfText? t).or (boolOfWord? t)).map some
  | _ => none

def isNull : Node → Bool
  | .scalar tag isPlain t => !isText tag isPlain && isUntyped tag && isNullText t
  | _ => false

/-- A list; items that are null are left out. -/
def list? {α : Type} (item : Node → Option (Option α)) : Node → Option (Option (List α))
  | .sequence _ items => (items.mapM item).map fun l => some (l.filterMap id)
  | n => if n.isNull then some none else none

def isMerge : Node → Bool
  | .scalar tag isPlain t => t == "<<" && isPlain && (tag.isEmpty || tag == "!" || tag == "!!merge")
  | _ => false

def keyText : Node → Nat × Text
  | .scalar _ _ t => (0, t)
  | .sequence _ _ => (1, [])
  | .mapping _ _ => (2, [])

def hasRepeats : List (Nat × Text) → Bool
  | [] => false
  | k :: rest => rest.contains k || hasRepeats rest

def ownMembers (known seen : List Text) : List (Node × Node) → Option (List (Text × Node))
  | [] => some []
  | (k, v) :: rest =>
    if k.isMerge then ownMembers known seen rest
    else
      match k.text? with
      | none => none
      | some none => ownMembers known seen rest
      | some (some name) =>
        if seen.contains name then ownMembers known seen rest
        else if !known.contains name then none
        else (ownMembers known seen rest).map ((name, v) :: ·)

mutual

/-- The named members of a mapping, those of the mappings merged into it last. Members whose name is
in the given list are passed over. -/
def members? (known seen : List Text) : Node → Option (List (Text × Node))
  | .mapping _ members =>
    if hasRepeats (members.map fun m => m.1.keyText) then none
    else do
      let own ← ownMembers known seen members
      let merged ← mergedMembers known (seen ++ own.map Prod.fst) members
      return own ++ merged
  | _ => none
termination_by n => sizeOf n

def mergedMembers (known seen : List Text) : List (Node × Node) → Option (List (Text × Node))
  | [] => some []
  | (k, v) :: rest =>
    if k.isMerge then
      match v with
      | .mapping tag inner => members? known seen (.mapping tag inner)
      | .sequence _ items => mergedAll known seen items
      | _ => none
    else mergedMembers known seen rest
termination_by members => sizeOf members

def mergedAll (known seen : List Text) : List Node → Option (List (Text × Node))
  | [] => some []
  | n :: rest => do
    let first ← members? known seen n
    let others ← mergedAll known (seen ++ first.map Prod.fst) rest
    return first ++ others
termination_by items => sizeOf items

end

def record? {α : Type} (known : List Text) (make : List (Text × Node) → Option α) :
    Node → Option (Option α)
  | .mapping tag members => ((members? known [] (.mapping tag members)).bind make).map some
  | n => if n.isNull then some none else none

/-- A field of a record, or a default when it is missing or null. -/
def field {α : Type} (read : Node → Option (Option α)) (default : α) (named : List (Text × Node))
    (name : String) : Option α :=
  match named.lookup (Text.ofString name) with
  | none => some default
  | some n => (read n).map fun a => a.getD default

end Node

end Yaml

end BorrowChecker
