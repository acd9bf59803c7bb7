import BorrowChecker.Mir.Body

/-!
What can be wrong with the structure of a body or a module. A body without a flaw has a block to
start in, room for its parameters, and no target or local that it does not declare.
-/

namespace BorrowChecker

namespace Mir

inductive Spot where
  | statement (block index : Nat)
  | terminator (block : Nat)
deriving DecidableEq, Repr

namespace Spot

def print : Spot → Text
  | statement block index => BlockId.print block ++ " stmt " ++ Text.ofNat index
  | terminator block => BlockId.print block ++ " terminator"

end Spot

inductive Flaw where
  | noBlocks
  | tooFewLocals (locals params : Nat)
  | unterminated (block : Nat)
  | missingTarget (block : Nat) (target : BlockId)
  | duplicateCase (block : Nat) (value : Int64)
  | namelessPlace (spot : Spot)
  | missingLocal (spot : Spot) (id : LocalId)
deriving DecidableEq, Repr

namespace Flaw

def message : Flaw → Text
  | noBlocks => "no basic blocks"
  | tooFewLocals locals params =>
    Text.ofNat locals ++ " locals cannot hold the return slot and " ++ Text.ofNat params ++
      " params"
  | unterminated block => BlockId.print block ++ ": unterminated block"
  | missingTarget block target =>
    BlockId.print block ++ ": target " ++ target.print ++ " does not exist"
  | duplicateCase block value =>
    BlockId.print block ++ ": switchInt has duplicate case " ++ Text.ofInt value.toInt
  | namelessPlace spot => spot.print ++ ": place names no local"
  | missingLocal spot id => spot.print ++ ": local " ++ id.print ++ " does not exist"

def messages (flaws : List Flaw) : Text := Text.joined "\n" (flaws.map message)

end Flaw

namespace Terminator

def caseValues : Terminator → List Int64
  | switchInt _ cases _ => cases.map SwitchCase.value
  | _ => []

def isMissing : Terminator → Bool
  | missing => true
  | _ => false

end Terminator

/-- The members that stand in a list before, each as often as it is repeated. -/
def repeats {α : Type} [DecidableEq α] (seen : List α) : List α → List α
  | [] => []
  | x :: rest => if x ∈ seen then x :: repeats seen rest else repeats (x :: seen) rest

namespace Body

def hasBlock (b : Body) (id : BlockId) : Bool := 0 ≤ id && id < b.blocks.length

def hasLocal (b : Body) (id : LocalId) : Bool := 0 ≤ id && id < b.locals.length

def localFlaw? (b : Body) (spot : Spot) (id : LocalId) : Option Flaw :=
  if id = LocalId.missing then some (.namelessPlace spot)
  else if b.hasLocal id then none
  else some (.missingLocal spot id)

def unterminatedFlaws (b : Body) : List Flaw :=
  (b.blocks.mapIdx fun i block => if block.term.isMissing then [Flaw.unterminated i] else []).flatten

/-- The targets of one terminator that do not exist, then its repeated cases. -/
def targetFlaws (b : Body) (index : Nat) (block : Block) : List Flaw :=
  (block.term.successors.filter fun t => !b.hasBlock t).map (Flaw.missingTarget index) ++
    (repeats [] block.term.caseValues).map (Flaw.duplicateCase index)

def statementFlaws (b : Body) (block index : Nat) (s : Statement) : List Flaw :=
  (s.reads ++ s.writes).filterMap (b.localFlaw? (.statement block index))

def terminatorFlaws (b : Body) (block : Nat) (t : Terminator) : List Flaw :=
  (t.reads ++ t.writes).filterMap (b.localFlaw? (.terminator block))

def localFlaws (b : Body) (index : Nat) (block : Block) : List Flaw :=
  (block.statements.mapIdx (b.statementFlaws index)).flatten ++ b.terminatorFlaws index block.term

def flaws (b : Body) : List Flaw :=
  (if b.blocks.isEmpty then [Flaw.noBlocks] else []) ++
    (if b.locals.length < b.params.length + 1 then
      [Flaw.tooFewLocals b.locals.length b.params.length] else []) ++
    b.unterminatedFlaws ++
    (b.blocks.mapIdx b.targetFlaws).flatten ++
    (b.blocks.mapIdx b.localFlaws).flatten

def isValid (b : Body) : Bool := b.flaws.isEmpty

end Body

inductive ModuleFlaw where
  | absentBody
  | definedTwice (name : Text)
  | malformed (name : Text) (flaws : List Flaw)
deriving DecidableEq, Repr

namespace ModuleFlaw

def message : ModuleFlaw → Text
  | absentBody => "nil body"
  | definedTwice name => "body " ++ name ++ ": defined twice"
  | malformed name flaws => "body " ++ name ++ ": " ++ Flaw.messages flaws

def messages (flaws : List ModuleFlaw) : Text := Text.joined "\n" (flaws.map message)

end ModuleFlaw

namespace Module

def flawsAfter (names : List Text) : List (Option Body) → List ModuleFlaw
  | [] => []
  | none :: rest => .absentBody :: flawsAfter names rest
  | some b :: rest =>
    (if b.name ∈ names then [.definedTwice b.name] else []) ++
      (if b.flaws.isEmpty then [] else [.malformed b.name b.flaws]) ++
      flawsAfter (b.name :: names) rest

def flaws (m : Module) : List ModuleFlaw := flawsAfter [] m.bodies

end Module

end Mir

end BorrowChecker
