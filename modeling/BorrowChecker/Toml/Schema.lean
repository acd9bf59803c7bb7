import BorrowChecker.Text.CodePoint
import BorrowChecker.Toml.Document

/-!
What a TOML document is expected to hold. A document fits a schema when every value at a known place
has the right kind; keys at unknown places are told apart, so that the first of them can be named.
-/

namespace BorrowChecker

namespace Toml

inductive Schema
  | string
  | bool
  | integer
  | list (item : Schema)
  | record (fields : List (Text × Schema))
deriving Repr

def foldPoint (c : CodePoint) : Nat :=
  if 65 ≤ c.value ∧ c.value ≤ 90 then c.value + 32
  else if c.value = 0x17F then 115
  else if c.value = 0x212A then 107
  else c.value

/-- Whether two names, of which one is ASCII, are the same without regard to case. -/
def sameName (a b : Text) : Bool := a.codePoints.map foldPoint == b.codePoints.map foldPoint

/-- The field that a name stands for: the one with just this name, or else the first that has it
without regard to case. -/
def fieldFor? {α : Type} (fields : List (Text × α)) (name : Text) : Option (Text × α) :=
  (fields.find? fun f => f.1 == name).or (fields.find? fun f => sameName f.1 name)

theorem fieldFor?_mem {α : Type} {fields : List (Text × α)} {name : Text} {f : Text × α}
    (h : fieldFor? fields name = some f) : f ∈ fields := by
  unfold fieldFor? at h
  rcases hf : fields.find? fun f => f.1 == name with _ | g
  · simp only [hf, Option.none_or] at h
    exact List.mem_of_find?_eq_some h
  · simp only [hf, Option.some_or, Option.some.injEq] at h
    exact h ▸ List.mem_of_find?_eq_some hf

namespace Value

def items? : Value → Option (List Value)
  | array items => some items
  | rows tables => some tables
  | _ => none

def members? : Value → Option Members
  | table members => some members
  | _ => none

def text (v : Value) : Text :=
  match v with
  | string t => t
  | _ => []

def flag (v : Value) : Bool :=
  match v with
  | bool b => b
  | _ => false

def number (v : Value) : Int :=
  match v with
  | integer n => n
  | _ => 0

/-- The member that is read as the given field of a schema with these fields; of several, the
last. -/
def field? (names : List Text) (name : Text) (v : Value) : Option Value :=
  ((v.members?.getD []).filter fun m =>
    (fieldFor? (names.map fun n => (n, ())) m.1).map Prod.fst == some name).getLast?.map Prod.snd

end Value

namespace Schema

def fits (s : Schema) (v : Value) : Bool :=
  match s with
  | string => match v with
    | .string _ => true
    | _ => false
  | bool => match v with
    | .bool _ => true
    | _ => false
  | integer => match v with
    | .integer _ => true
    | _ => false
  | list item =>
    match v.items? with
    | some items => items.all fun v => item.fits v
    | none => false
  | record fields =>
    match v.members? with
    | some members => members.all fun m =>
      match h : fieldFor? fields m.1 with
      | some f =>
        have := List.sizeOf_lt_of_mem (fieldFor?_mem h)
        f.2.fits m.2
      | none => true
    | none => false
termination_by sizeOf s
decreasing_by
  · simp_wf
  · obtain ⟨a, b⟩ := f
    simp_wf
    simp at this
    omega

def known (s : Schema) (path : Key) (v : Value) : List Key :=
  match s with
  | string | bool | integer => []
  | list item => (v.items?.getD []).flatMap fun v => item.known path v
  | record fields =>
    (v.members?.getD []).flatMap fun m =>
      match h : fieldFor? fields m.1 with
      | some f =>
        have := List.sizeOf_lt_of_mem (fieldFor?_mem h)
        (path ++ [m.1]) :: f.2.known (path ++ [m.1]) m.2
      | none => []
termination_by sizeOf s
decreasing_by
  · simp_wf
  · obtain ⟨a, b⟩ := f
    simp_wf
    simp at this
    omega

end Schema

def Document.unknownKey? (doc : Document) (s : Schema) : Option Key :=
  let known := s.known [] (.table doc.members)
  doc.keys.find? fun key => !known.contains key

end Toml

end BorrowChecker
