import BorrowChecker.Toml.Lines

/-!
The tables that the lines of a TOML text define. A key is defined once, but a table that so far was
only implied by longer keys may still be opened, and an array may be given anew.
-/

namespace BorrowChecker

namespace Toml

inductive Value
  | string (t : Text)
  | integer (v : Int)
  | float (written : Text)
  | bool (b : Bool)
  | moment (written : Text)
  | array (items : List Value)
  | table (members : List (Text × Value))
  /-- The tables opened one by one under the same key. -/
  | rows (tables : List Value)
deriving Repr, Inhabited

abbrev Members := List (Text × Value)

namespace Members

def find? (name : Text) (members : Members) : Option Value := List.lookup name members

/-- Sets a member, at its old place or at the end. -/
def put (name : Text) (v : Value) : Members → Members
  | [] => [(name, v)]
  | (k, old) :: rest => if k = name then (k, v) :: rest else (k, old) :: put name v rest

/-- The table at a path, where a list of tables stands for its last. -/
def at? (members : Members) : Key → Option Members
  | [] => some members
  | name :: path =>
    match members.find? name with
    | some (.table inner) => at? inner path
    | some (.rows tables) =>
      match tables.getLast? with
      | some (.table inner) => at? inner path
      | _ => none
    | _ => none

/-- Changes the table at a path; nothing changes where there is none. -/
def change (f : Members → Members) (members : Members) : Key → Members
  | [] => f members
  | name :: path =>
    match members.find? name with
    | some (.table inner) => members.put name (.table (change f inner path))
    | some (.rows tables) =>
      match tables.getLast? with
      | some (.table inner) =>
        members.put name (.rows (tables.dropLast ++ [.table (change f inner path)]))
      | _ => members
    | _ => members

end Members

structure Draft where
  members : Members := []
  implied : List Key := []
  arrays : List Key := []
  /-- The keys that were written, in reverse. -/
  written : List Key := []
deriving Repr

namespace Draft

def imply (key : Key) (d : Draft) : Draft :=
  { d with implied := if d.implied.contains key then d.implied else key :: d.implied }

def settle (key : Key) (d : Draft) : Draft := { d with implied := d.implied.filter (· != key) }

/-- Notes whether a key holds an array. An empty name stands for the table that it is in. -/
def note (isArray : Bool) (context : Key) (name : Text) (d : Draft) : Draft :=
  let key := if !name.isEmpty then context ++ [name] else if context.isEmpty then [[]] else context
  let others := d.arrays.filter (· != key)
  { d with arrays := if isArray then key :: others else others }

def wrote (key : Key) (d : Draft) : Draft := { d with written := key :: d.written }

def set (context : Key) (name : Text) (v : Value) (d : Draft) : Draft :=
  { d with members := d.members.change (Members.put name v) context }

/-- Defines a name in the table of a context. A table that was only implied stays as it is. -/
def define (context : Key) (name : Text) (v : Value) (d : Draft) : Option Draft := do
  let key := context ++ [name]
  let members ← d.members.at? context
  if (members.find? name).isNone then some (d.set context name v)
  else if d.arrays.contains key then some ((d.set context name v).settle key)
  else if d.implied.contains key then some (d.settle key)
  else none

def implyParents (context : Key) : Key → Draft → Option Draft
  | [], d => some d
  | [_], d => some d
  | name :: path, d => do
    let key := context ++ [name]
    let members ← d.members.at? context
    let isThere := (members.find? name).isSome
    implyParents key path (if isThere then d else (d.set context name (.table [])).imply key)

def openTable (key : Key) (d : Draft) : Option Draft := do
  let d ← d.implyParents [] key
  d.define key.dropLast (key.getLastD []) (.table [])

def openRow (key : Key) (d : Draft) : Option Draft := do
  let d ← d.implyParents [] key
  let name := key.getLastD []
  let members ← d.members.at? key.dropLast
  match members.find? name with
  | none => some (d.set key.dropLast name (.rows [.table []]))
  | some (.rows tables) => some (d.set key.dropLast name (.rows (tables ++ [.table []])))
  | some _ => none

/-- Opens the tables that the names before the last of a key stand for, one in the other. -/
def openImplied (context : Key) : Key → Draft → Option (Key × Draft)
  | [], d => some (context, d)
  | name :: path, d => do
    let key := context ++ [name]
    let d ← (d.imply key).openTable key
    openImplied key path d

end Draft

def Value.isArray : Value → Bool
  | .array _ => true
  | _ => false

mutual

/-- The value of an expression for a name in a context. An inline table is built in the document
itself, as a table or as one of the tables of an array. -/
def Draft.evaluate (context : Key) (name : Text) (inArray : Bool) (d : Draft) :
    Expr → Option (Value × Draft)
  | .string t => some (.string t, d)
  | .integer v => some (.integer v, d)
  | .float t => some (.float t, d)
  | .bool b => some (.bool b, d)
  | .moment t => some (.moment t, d)
  | .array items => do
    let (values, d) ← Draft.evaluateAll context name (d.note true context name) items
    return (.array values, d)
  | .inline members => do
    let key := context ++ [name]
    let d := d.imply key
    let d ← if inArray then d.openRow key else d.openTable key
    let (members, d) ← Draft.evaluateMembers key [] d members
    return (.table members, d)

def Draft.evaluateAll (context : Key) (name : Text) (d : Draft) :
    List Expr → Option (List Value × Draft)
  | [] => some ([], d)
  | e :: rest => do
    let (v, d) ← Draft.evaluate context name true d e
    let (values, d) ← Draft.evaluateAll context name d rest
    return (v :: values, d)

def Draft.evaluateMembers (context : Key) (done : Members) (d : Draft) :
    List (Key × Expr) → Option (Members × Draft)
  | [] => some (done, d)
  | (key, e) :: rest => do
    let name := key.getLastD []
    let (inner, d) ← d.openImplied context key.dropLast
    let (v, d) ← Draft.evaluate inner name false (d.wrote (inner ++ [name])) e
    let d ← d.define inner name v
    Draft.evaluateMembers context (done.put name v) (d.note v.isArray inner name) rest

end

/-- Adds a line to a document; the context is the table last opened. -/
def Draft.addLine (context : Key) (d : Draft) : Line → Option (Key × Draft)
  | .table key => do
    let d ← d.openTable key
    return (key, (d.note false key []).wrote key)
  | .row key => do
    let d ← d.openRow key
    return (key, (d.note false key []).wrote key)
  | .pair key e => do
    let name := key.getLastD []
    let (inner, d) ← d.openImplied context key.dropLast
    let (v, d) ← Draft.evaluate inner name false (d.wrote (inner ++ [name])) e
    let d ← d.define inner name v
    return (context, d.note v.isArray inner name)

/-- What a TOML text says: its top table, and all keys that were written, in order. -/
structure Document where
  members : Members
  keys : List Key
deriving Repr

def Document.ofText? (t : Text) : Option Document := do
  let lines ← lines? t
  let (_, d) ← lines.foldlM (fun (context, d) line => Draft.addLine context d line) (([] : Key), {})
  return ⟨d.members, d.written.reverse⟩

def Document.isDefined (doc : Document) (path : Key) : Bool := reaches doc.members path
where
  reaches (members : Members) : Key → Bool
    | [] => false
    | [name] => (members.find? name).isSome
    | name :: path =>
      match members.find? name with
      | some (.table inner) => reaches inner path
      | _ => false

end Toml

end BorrowChecker
