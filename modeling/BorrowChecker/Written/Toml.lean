import BorrowChecker.Toml.View
import BorrowChecker.Written.Module

/-!
The written form of a module in TOML.
-/

namespace BorrowChecker

namespace Written

open Toml (Schema Value View)

def localSchema : Schema :=
  .record [("name", .string), ("type", .string), ("mut", .bool), ("lifetime", .string)]

def blockSchema : Schema := .record [("name", .string), ("stmts", .list .string), ("term", .string)]

def bodySchema : Schema :=
  .record [("name", .string), ("params", .list .string), ("return", .string),
    ("lifetimes", .list .string), ("bounds", .list .string), ("local", .list localSchema),
    ("block", .list blockSchema)]

def moduleSchema : Schema := .record [("name", .string), ("body", .list bodySchema)]

def LocalDecl.ofToml (value : Value) : LocalDecl :=
  let v : View := ⟨localSchema, value⟩
  { name := v.text "name", type := v.text "type", isMut := v.flag "mut"
    lifetime := v.text "lifetime" }

def Block.ofToml (value : Value) : Block :=
  let v : View := ⟨blockSchema, value⟩
  { name := v.text "name", statements := v.texts "stmts", term := v.text "term" }

def Body.ofToml (value : Value) : Body :=
  let v : View := ⟨bodySchema, value⟩
  { name := v.text "name", params := v.texts "params", result := v.text "return"
    lifetimes := v.texts "lifetimes", bounds := v.texts "bounds"
    locals := (v.list "local").map LocalDecl.ofToml
    blocks := (v.list "block").map Block.ofToml }

def Module.ofToml (value : Value) : Module :=
  let v : View := ⟨moduleSchema, value⟩
  { name := v.text "name", bodies := (v.list "body").map Body.ofToml }

end Written

end BorrowChecker
