import BorrowChecker.Written.Module
import BorrowChecker.Yaml.Record

/-!
The written form of a module in YAML.
-/

namespace BorrowChecker

namespace Written

open Yaml (Node)

def textIn (named : List (Text × Node)) (name : String) : Option Text :=
  Node.field Node.text? [] named name

def textsIn (named : List (Text × Node)) (name : String) : Option (List Text) :=
  Node.field (Node.list? Node.text?) [] named name

def LocalDecl.ofYaml : Node → Option (Option LocalDecl) :=
  Node.record? ["name", "type", "mut", "lifetime"] fun named => do
    return { name := ← textIn named "name", type := ← textIn named "type"
             isMut := ← Node.field Node.bool? false named "mut"
             lifetime := ← textIn named "lifetime" }

def Block.ofYaml : Node → Option (Option Block) :=
  Node.record? ["name", "stmts", "term"] fun named => do
    return { name := ← textIn named "name", statements := ← textsIn named "stmts"
             term := ← textIn named "term" }

def Body.ofYaml : Node → Option (Option Body) :=
  Node.record? ["name", "params", "return", "lifetimes", "bounds", "locals", "blocks"]
    fun named => do
      return { name := ← textIn named "name", params := ← textsIn named "params"
               result := ← textIn named "return", lifetimes := ← textsIn named "lifetimes"
               bounds := ← textsIn named "bounds"
               locals := ← Node.field (Node.list? LocalDecl.ofYaml) [] named "locals"
               blocks := ← Node.field (Node.list? Block.ofYaml) [] named "blocks" }

def Module.ofYaml : Node → Option (Option Module) :=
  Node.record? ["name", "bodies"] fun named => do
    return { name := ← textIn named "name"
             bodies := ← Node.field (Node.list? Body.ofYaml) [] named "bodies" }

end Written

end BorrowChecker
