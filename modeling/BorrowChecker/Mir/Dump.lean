import BorrowChecker.Mir.Body

/-!
The text of bodies and modules. Statements, terminators and types stand in it as they are read.
-/

namespace BorrowChecker

namespace Mir

namespace Body

def dumpLifetimeParam (name : Text) : Text := "'" ++ name

def dumpLifetimeParams (names : List Text) : Text :=
  Text.guarded (!names.isEmpty) ("<" ++ Text.joined ", " (names.map dumpLifetimeParam) ++ ">")

def dumpParam (index : Nat) (type : Ty) : Text :=
  LocalId.print (index + 1) ++ ": " ++ type.print

def dumpBounds (bounds : List Bound) : Text :=
  Text.guarded (!bounds.isEmpty) (" where " ++ Text.joined ", " (bounds.map Bound.print))

def dumpComment (name : Text) : Text := Text.guarded (!name.isEmpty) (" // " ++ name)

def dumpLocal (index : Nat) (l : LocalDecl) : Text :=
  "    let " ++ Text.guarded l.isMut "mut " ++ LocalId.print index ++
    Text.guarded (!l.lifetime.isEmpty) (" '" ++ l.lifetime) ++ ": " ++ l.type.print ++ ";" ++
    dumpComment l.name ++ "\n"

def dumpStatement (s : Statement) : Text := "        " ++ s.print ++ ";\n"

def dumpBlock (index : Nat) (b : Block) : Text :=
  "    " ++ BlockId.print index ++ ": \x7b" ++ dumpComment b.name ++ "\n" ++
    b.statements.flatMap dumpStatement ++ "        " ++ b.term.print ++ ";\n" ++ "    \x7d\n"

def dump (b : Body) : Text :=
  "fn " ++ b.name ++ dumpLifetimeParams b.lifetimeParams ++ "(" ++
    Text.joined ", " (b.params.mapIdx dumpParam) ++ ") -> " ++ b.result.print ++
    dumpBounds b.lifetimeBounds ++ " \x7b\n" ++ (b.locals.mapIdx dumpLocal).flatten ++
    (b.blocks.mapIdx dumpBlock).flatten ++ "\x7d\n"

end Body

namespace Module

def dumpBody : Option Body → Text
  | some b => b.dump
  | none => []

/-- The bodies with a blank line between them, also around one that prints nothing. -/
def dump (m : Module) : Text :=
  Text.guarded (!m.name.isEmpty) ("// module " ++ m.name ++ "\n") ++
    Text.joined "\n" (m.bodies.map dumpBody)

end Module

end Mir

end BorrowChecker
