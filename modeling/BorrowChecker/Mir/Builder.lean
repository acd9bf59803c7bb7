import BorrowChecker.Mir.Body

/-!
Assembling a body piece by piece. Parameters come before the other locals, and statements go to the
block that is current.
-/

namespace BorrowChecker

namespace Mir

structure Builder where
  body : Body
  current : BlockId := BlockId.missing
deriving Repr

inductive BuilderFault where
  | lateParam (name : Text)
  | noBlock
  | negativeCount
deriving DecidableEq, Repr

namespace BuilderFault

def message : BuilderFault → Text
  | lateParam name => "param " ++ name ++ " declared after locals"
  | noBlock => "testkit: no current block"
  | negativeCount => "runtime error: makeslice: len out of range"

end BuilderFault

namespace Builder

def start (name : Text) : Builder := { body := { name, locals := [{ type := .unit }] } }

def returns (t : Ty) (b : Builder) : Builder :=
  { b with body :=
    { b.body with
      result := t, locals := b.body.locals.modify 0 fun slot => { slot with type := t } } }

def lifetimes (names : List Text) (b : Builder) : Builder :=
  { b with body := { b.body with lifetimeParams := b.body.lifetimeParams ++ names } }

def bound (name outlives : Text) (b : Builder) : Builder :=
  { b with body := { b.body with lifetimeBounds := b.body.lifetimeBounds ++ [⟨name, outlives⟩] } }

def declare (decl : LocalDecl) (b : Builder) : LocalId × Builder :=
  (b.body.locals.length, { b with body := { b.body with locals := b.body.locals ++ [decl] } })

/-- Declares the next parameter, which only the return slot and parameters may precede. -/
def param (name : Text) (t : Ty) (b : Builder) : Except BuilderFault (LocalId × Builder) :=
  if b.body.locals.length = b.body.params.length + 1 then
    .ok (declare { name, type := t }
      { b with body := { b.body with params := b.body.params ++ [t] } })
  else .error (.lateParam name)

def block (b : Builder) : BlockId × Builder :=
  (b.body.blocks.length,
    { body := { b.body with blocks := b.body.blocks ++ [{}] }, current := b.body.blocks.length })

def blocks (count : Int) (b : Builder) : Except BuilderFault (List BlockId × Builder) :=
  if count < 0 then .error .negativeCount
  else
    let first := b.body.blocks.length
    .ok ((List.range count.toNat).map fun (i : Nat) => ((first + i : Nat) : Int),
      { body := { b.body with blocks := b.body.blocks ++ List.replicate count.toNat {} }
        current := if count = 0 then b.current else first })

def enter (id : BlockId) (b : Builder) : Builder := { b with current := id }

def change (f : Block → Block) (b : Builder) : Except BuilderFault Builder :=
  match b.body.block? b.current with
  | none => .error .noBlock
  | some _ =>
    .ok { b with body := { b.body with blocks := b.body.blocks.modify b.current.toNat f } }

def statement (s : Statement) (b : Builder) : Except BuilderFault Builder :=
  b.change fun block => { block with statements := block.statements ++ [s] }

def terminator (t : Terminator) (b : Builder) : Except BuilderFault Builder :=
  b.change fun block => { block with term := t }

/-- A switch whose cases are numbered from zero. -/
def switchOn (discr : Operand) (otherwise : BlockId) (targets : List BlockId) : Terminator :=
  .switchInt discr (targets.mapIdx fun i target => ⟨Int64.ofNat i, target⟩) otherwise

/-- A call without a destination when the local is the missing one. -/
def callTo (func : Text) (dst : LocalId) (target : BlockId) (args : List Operand) : Terminator :=
  .call func args (if dst = LocalId.missing then none else some dst) target

end Builder

end Mir

end BorrowChecker
