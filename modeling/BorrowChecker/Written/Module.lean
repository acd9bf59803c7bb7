import BorrowChecker.Source.Parser

/-!
The written form of a module, in which types, bounds, statements and terminators are lines of
source. Names are put in composed form when they are read, so that names that look the same are the
same.
-/

namespace BorrowChecker

namespace Written

structure LocalDecl where
  name : Text := []
  type : Text := []
  isMut : Bool := false
  lifetime : Text := []
deriving DecidableEq, Repr

structure Block where
  name : Text := []
  statements : List Text := []
  term : Text := []
deriving DecidableEq, Repr

structure Body where
  name : Text := []
  params : List Text := []
  result : Text := []
  lifetimes : List Text := []
  bounds : List Text := []
  locals : List LocalDecl := []
  blocks : List Block := []
deriving DecidableEq, Repr

structure Module where
  name : Text := []
  bodies : List Body := []
deriving DecidableEq, Repr

inductive Fault where
  | param (number : Nat) (line : Text) (fault : Source.Fault)
  | result (line : Text) (fault : Source.Fault)
  | bound (line : Text) (fault : Source.Fault)
  | localType (index : Nat) (line : Text) (fault : Source.Fault)
  | labelTwice (label : Text)
  | statement (block index : Nat) (line : Text) (fault : Source.Fault)
  | noTerminator (block : Nat)
  | terminator (block : Nat) (line : Text) (fault : Source.Fault)
deriving DecidableEq, Repr

namespace Fault

def message : Fault → Text
  | param number line fault =>
    "param " ++ Text.ofNat number ++ " " ++ Quoted.encode line ++ ": " ++ fault.message
  | result line fault => "return type " ++ Quoted.encode line ++ ": " ++ fault.message
  | bound line fault => "bound " ++ Quoted.encode line ++ ": " ++ fault.message
  | localType index line fault =>
    "local " ++ Mir.LocalId.print index ++ " type " ++ Quoted.encode line ++ ": " ++ fault.message
  | labelTwice label => "block label " ++ Quoted.encode label ++ " used twice"
  | statement block index line fault =>
    Mir.BlockId.print block ++ " stmt " ++ Text.ofNat index ++ " " ++ Quoted.encode line ++ ": " ++
      fault.message
  | noTerminator block => Mir.BlockId.print block ++ ": missing terminator"
  | terminator block line fault =>
    Mir.BlockId.print block ++ " terminator " ++ Quoted.encode line ++ ": " ++ fault.message

def messages (faults : List Fault) : Text := Text.joined "\n" (faults.map message)

end Fault

/-- The faults of one body. A body without a name goes by its number. -/
structure BodyFaults where
  name : Text
  index : Nat
  faults : List Fault
deriving DecidableEq, Repr

namespace BodyFaults

def label (f : BodyFaults) : Text := if f.name.isEmpty then 35 :: Text.ofNat f.index else f.name

def message (f : BodyFaults) : Text := "body " ++ f.label ++ ": " ++ Fault.messages f.faults

def messages (faults : List BodyFaults) : Text := Text.joined "\n" (faults.map message)

end BodyFaults

def lifetimeName (text : Text) : Text :=
  let trimmed := text.trim
  ((Text.cutStart "'" trimmed).getD trimmed).normalize

def sorted {ε α : Type} : List (Except ε α) → List ε × List α
  | [] => ([], [])
  | .error e :: rest => (e :: (sorted rest).1, (sorted rest).2)
  | .ok a :: rest => ((sorted rest).1, a :: (sorted rest).2)

def faultsOf {ε α : Type} (results : List (Except ε α)) : List ε := (sorted results).1

def valuesOf {ε α : Type} (results : List (Except ε α)) : List α := (sorted results).2

def withContext {ε δ α : Type} (context : ε → δ) : Except ε α → Except δ α
  | .error e => .error (context e)
  | .ok a => .ok a

namespace Body

def readParams (b : Body) : List (Except Fault Mir.Ty) :=
  b.params.mapIdx fun i line => withContext (Fault.param (i + 1) line) (Source.parseType line)

def readResult (b : Body) : Except Fault Mir.Ty :=
  if b.result.trim.isEmpty then .ok .unit
  else withContext (Fault.result b.result) (Source.parseType b.result)

def normalBound (bound : Mir.Bound) : Mir.Bound := ⟨bound.name.normalize, bound.outlives.normalize⟩

def readBounds (b : Body) : List (Except Fault Mir.Bound) :=
  b.bounds.map fun line => (withContext (Fault.bound line) (Source.parseBound line)).map normalBound

def readLocal (index : Nat) (l : LocalDecl) : Except Fault Mir.LocalDecl :=
  (withContext (Fault.localType index l.type) (Source.parseType l.type)).map fun type =>
    { name := l.name.normalize, type, isMut := l.isMut, lifetime := lifetimeName l.lifetime }

def readLocals (b : Body) : List (Except Fault Mir.LocalDecl) := b.locals.mapIdx readLocal

def labels (b : Body) : List (Text × Nat) :=
  (b.blocks.mapIdx fun i block => (block.name, i)).filterMap fun (name, i) =>
    if name.isEmpty then none else some (name.normalize, i)

def repeatedLabels (seen : List Text) : List (Text × Nat) → List Text
  | [] => []
  | (name, _) :: rest =>
    if name ∈ seen then name :: repeatedLabels seen rest else repeatedLabels (name :: seen) rest

def resolve (b : Body) : Source.Labels := fun label =>
  (b.labels.find? fun entry => entry.1 == label.normalize).map fun entry => (entry.2 : Int)

def readStatements (index : Nat) (block : Block) : List (Except Fault Mir.Statement) :=
  block.statements.mapIdx fun j line =>
    withContext (Fault.statement index j line) (Source.parseStatement line)

def readTerminator (b : Body) (index : Nat) (block : Block) : Except Fault Mir.Terminator :=
  if block.term.trim.isEmpty then .error (.noTerminator index)
  else
    withContext (Fault.terminator index block.term) (Source.parseTerminator b.resolve block.term)

def blockFaults (b : Body) (index : Nat) (block : Block) : List Fault :=
  faultsOf (readStatements index block) ++ faultsOf [b.readTerminator index block]

def readBlock (b : Body) (index : Nat) (block : Block) : Mir.Block :=
  { name := block.name.normalize
    statements := valuesOf (readStatements index block)
    term := ((valuesOf [b.readTerminator index block]).head?).getD .missing }

def faults (b : Body) : List Fault :=
  faultsOf b.readParams ++ faultsOf [b.readResult] ++ faultsOf b.readBounds ++
    faultsOf b.readLocals ++ (repeatedLabels [] b.labels).map Fault.labelTwice ++
    (b.blocks.mapIdx b.blockFaults).flatten

/-- The body that is left when every line that cannot be read is passed over. -/
def readable (b : Body) : Mir.Body :=
  { name := b.name.normalize
    params := valuesOf b.readParams
    result := ((valuesOf [b.readResult]).head?).getD .unit
    locals := valuesOf b.readLocals
    blocks := b.blocks.mapIdx b.readBlock
    lifetimeParams := b.lifetimes.map lifetimeName
    lifetimeBounds := valuesOf b.readBounds }

def read (b : Body) : Except (List Fault) Mir.Body :=
  if b.faults.isEmpty then .ok b.readable else .error b.faults

end Body

namespace Module

def readBodies (m : Module) : List (Except BodyFaults Mir.Body) :=
  m.bodies.mapIdx fun i b => withContext (BodyFaults.mk b.name i) b.read

def read (m : Module) : Except (List BodyFaults) Mir.Module :=
  let results := m.readBodies
  if (faultsOf results).isEmpty then
    .ok { name := m.name.normalize, bodies := (valuesOf results).map some }
  else .error (faultsOf results)

end Module

end Written

end BorrowChecker
