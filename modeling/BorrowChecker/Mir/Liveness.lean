import BorrowChecker.Mir.Flow
import BorrowChecker.Mir.LocalSet

/-!
Which locals are live: read on some path before they are overwritten. For one local, the blocks
that it is live at the start of are those from which a block that reads it first can be reached
through blocks that do not overwrite it.
-/

namespace BorrowChecker

namespace Mir

structure Access where
  reads : List LocalId
  writes : List LocalId
deriving DecidableEq, Repr

namespace Statement

def access (s : Statement) : Access := ⟨s.reads, s.writes⟩

end Statement

namespace Terminator

def access (t : Terminator) : Access := ⟨t.reads, t.writes⟩

end Terminator

namespace Block

def accesses (b : Block) : List Access := b.statements.map Statement.access ++ [b.term.access]

end Block

namespace Access

def readsFirst (id : LocalId) : List Access → Bool
  | [] => false
  | a :: rest => a.reads.contains id || (!a.writes.contains id && readsFirst id rest)

def leaves (id : LocalId) (run : List Access) : Bool := run.all fun a => !a.writes.contains id

def liveBefore (a : Access) (after : LocalSet) : LocalSet :=
  (after.eraseAll a.writes).insertAll a.reads

def liveBeforeAll (after : LocalSet) : List Access → List LocalSet
  | [] => []
  | a :: rest =>
    match liveBeforeAll after rest with
    | [] => [a.liveBefore after]
    | next :: more => a.liveBefore next :: next :: more

end Access

namespace Body

def accesses (b : Body) (index : Nat) : List Access :=
  match b.blocks[index]? with
  | none => []
  | some block => block.accesses

def liveBlocks (b : Body) (id : LocalId) : List Nat :=
  let domain := List.range b.blocks.length
  let clear := fun i => Access.leaves id (b.accesses i)
  gather (fun i => (b.preds i).filter clear) domain
    (domain.filter fun i => Access.readsFirst id (b.accesses i))

def readLocals (b : Body) : LocalSet :=
  .ofList (b.blocks.flatMap fun block => block.accesses.flatMap Access.reads)

end Body

structure Liveness where
  atStart : List LocalSet
  /-- Before every statement and terminator of every block. -/
  before : List (List LocalSet)
  read : LocalSet
deriving Repr

namespace Liveness

/-- The locals live at the start of a block, a place that names no local left out. -/
def startOf (spans : List (LocalId × List Nat)) (index : Nat) : LocalSet :=
  .ofList ((spans.filter fun span => span.2.contains index).map Prod.fst)

def ofBody (b : Body) : Liveness :=
  let read := b.readLocals
  let named := read.members.filter (· != LocalId.missing)
  let spans := named.map fun id => (id, b.liveBlocks id)
  let atStart := (List.range b.blocks.length).map (startOf spans)
  let before := (List.range b.blocks.length).map fun i =>
    let after := (b.succs i).foldl (fun acc s => acc.union (atStart.getD s .empty)) .empty
    Access.liveBeforeAll after (b.accesses i)
  { atStart, before, read }

def liveBefore (l : Liveness) (loc : Location) (id : LocalId) : Bool :=
  if loc.block < 0 ∨ loc.statement < 0 then false
  else
    match l.before[loc.block.toNat]? with
    | none => false
    | some sets =>
      match sets[loc.statement.toNat]? with
      | none => false
      | some set => set.has id

end Liveness

end Mir

end BorrowChecker
