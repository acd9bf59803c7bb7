import BorrowChecker.File.Path
import BorrowChecker.Text.Json
import BorrowChecker.Trace.Level

/-!
Events of a trace and their two written forms: a line of text, and a JSON object on a line.
-/

namespace BorrowChecker

namespace Trace

structure EventKind where
  rank : UInt8
deriving DecidableEq, Repr

namespace EventKind

def opening : EventKind := ⟨1⟩
def closing : EventKind := ⟨2⟩
def point : EventKind := ⟨3⟩

def print (k : EventKind) : Text :=
  if k = opening then "begin"
  else if k = closing then "end"
  else if k = point then "point"
  else "unknown"

def marker (k : EventKind) : Text :=
  if k = opening then ">" else if k = closing then "<" else "."

end EventKind

structure Attr where
  key : Text
  value : Text
deriving DecidableEq, Repr

namespace Attr

/-- Sets an attribute; a key that is set again keeps its place. -/
def set (key value : Text) : List Attr → List Attr
  | [] => [⟨key, value⟩]
  | a :: rest => if a.key = key then ⟨key, value⟩ :: rest else a :: set key value rest

/-- An attribute put where it belongs by its key, after those of the same key. -/
def place (a : Attr) : List Attr → List Attr
  | [] => [a]
  | b :: rest => if Text.before a.key b.key then a :: b :: rest else b :: place a rest

def sort (attrs : List Attr) : List Attr := attrs.foldl (fun acc a => place a acc) []

end Attr

/-- One event. Its number in the trace and the time since the start are filled in when it is
written. -/
structure Event where
  kind : EventKind
  scope : Scope
  span : Nat := 0
  parent : Nat := 0
  name : Text := []
  detail : Text := []
  attrs : List Attr := []
deriving DecidableEq, Repr

namespace Event

def milliseconds (nanos : Nat) : Text := (Double.ofQuotient nanos 1000000).fixed 3

def printAttr (a : Attr) : Text := " " ++ a.key ++ "=" ++ a.value

def line (e : Event) (number nanos : Nat) : Text :=
  Text.padLeft 5 32 (Text.ofNat number) ++ " " ++ Text.padLeft 10 32 (milliseconds nanos) ++ "ms " ++
    Text.repeated (e.scope.rank.toNat - 1) "  " ++ e.kind.marker ++ " " ++ e.scope.print ++ ":" ++
    e.name ++ Text.guarded (!e.detail.isEmpty) (" (" ++ e.detail ++ ")") ++
    e.attrs.flatMap printAttr ++ "\n"

/-- The attributes as members of an object: by key, the last value of each. -/
def attrMembers (attrs : List Attr) : List (Text × Json) :=
  (Attr.sort (attrs.foldl (fun acc a => Attr.set a.key a.value acc) [])).map fun a =>
    (a.key, .string a.value)

def json (e : Event) (number nanos : Nat) : Json :=
  .object ([Json.member "seq" (.int number), Json.member "elapsed_us" (.int (nanos / 1000 : Nat)),
    Json.member "kind" (.string e.kind.print), Json.member "scope" (.string e.scope.print),
    Json.member "span" (.int e.span)] ++
    (if e.parent = 0 then [] else [Json.member "parent" (.int e.parent)]) ++
    [Json.member "name" (.string e.name)] ++ Json.textMember "detail" e.detail ++
    (if e.attrs.isEmpty then [] else [Json.member "attrs" (.object (attrMembers e.attrs))]))

end Event

inductive Format where
  | text
  | ndjson
deriving DecidableEq, Repr

namespace Format

def ofPath (path : Text) : Format :=
  if Path.extension path = ".ndjson" ∨ Path.extension path = ".jsonl" then .ndjson else .text

def render (f : Format) (e : Event) (number nanos : Nat) : Text :=
  match f with
  | .text => e.line number nanos
  | .ndjson => (e.json number nanos).compact ++ "\n"

end Format

end Trace

end BorrowChecker
