import BorrowChecker.Toml.Schema

/-!
Reading the fields of a table that has a schema.
-/

namespace BorrowChecker

namespace Toml

def Schema.names : Schema → List Text
  | .record fields => fields.map Prod.fst
  | _ => []

structure View where
  schema : Schema
  value : Value

namespace View

def get? (v : View) (name : String) : Option Value :=
  v.value.field? (Schema.names v.schema) name

def text (v : View) (name : String) (blank : Text := []) : Text :=
  ((v.get? name).map Value.text).getD blank

def flag (v : View) (name : String) : Bool := ((v.get? name).map Value.flag).getD false

def number (v : View) (name : String) (blank : Int) : Int :=
  ((v.get? name).map Value.number).getD blank

def list (v : View) (name : String) : List Value := ((v.get? name).bind Value.items?).getD []

def texts (v : View) (name : String) : List Text := (v.list name).map Value.text

end View

end Toml

end BorrowChecker
