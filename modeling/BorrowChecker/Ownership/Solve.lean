import BorrowChecker.Ownership.Transfer

/-!
The fixpoint of the transfer over the blocks of a body. A queue holds the blocks whose
predecessors have changed; the state at the start of a block only ever grows.
-/

namespace BorrowChecker

namespace Ownership

open Mir

structure Solution where
  entries : List (Option State)
  exits : List (Option State)
  transfers : Nat := 0
deriving DecidableEq, Repr

namespace Solution

def entry? (sol : Solution) (index : Nat) : Option State := sol.entries.getD index none

def exit? (sol : Solution) (index : Nat) : Option State := sol.exits.getD index none

def start (b : Body) : Solution :=
  { entries := b.blocks.map fun _ => none, exits := b.blocks.map fun _ => none }

end Solution

def joinOnto (known : Option State) (s : State) : State :=
  match known with
  | none => s
  | some k => k.join s

/-- The join of the states that flow into a block: for the first block the initial state, and the
ends of the predecessors that were run. -/
def inflow (b : Body) (sol : Solution) (index : Nat) : Option State :=
  ((b.preds index).filterMap sol.exit?).foldl (fun acc s => some (joinOnto acc s))
    (if index = 0 then some (State.initial b) else none)

/-- The new state at the start of a block, when it differs from the one known. -/
def newEntry? (b : Body) (sol : Solution) (index : Nat) : Option State :=
  match inflow b sol index with
  | none => none
  | some s =>
    match sol.entry? index with
    | none => some s
    | some old => if old.join s = old then none else some (old.join s)

def enqueue (queue : List Nat) (blocks : List Nat) : List Nat :=
  blocks.foldl (fun q i => if q.contains i then q else q ++ [i]) queue

def Solution.run (b : Body) (live : Liveness) (sol : Solution) (index : Nat) (entry : State) :
    Solution :=
  { entries := sol.entries.set index (some entry)
    exits := sol.exits.set index (some (transfer b live index entry).state)
    transfers := sol.transfers + 1 }

/-- The queue after a block was run: its successors wait when its end has changed. -/
def queueAfter (b : Body) (live : Liveness) (sol : Solution) (index : Nat) (entry : State)
    (queue : List Nat) : List Nat :=
  if sol.exit? index = some (transfer b live index entry).state then queue
  else enqueue queue (b.succs index)

/-- No run of a body takes more blocks than this. -/
def transferLimit (b : Body) : Nat :=
  b.blocks.length * (3 * b.locals.length + borrowSites + 2)
where
  isBorrow : Statement → Bool
    | .assign _ (.ref _) => true
    | _ => false
  borrowSites : Nat := (b.blocks.flatMap Block.statements).countP isBorrow

def solveFrom (b : Body) (live : Liveness) (limit : Nat) (sol : Solution) (queue : List Nat) :
    Solution :=
  match queue with
  | [] => sol
  | index :: rest =>
    if sol.transfers < limit then
      match newEntry? b sol index with
      | none => solveFrom b live limit sol rest
      | some entry =>
        solveFrom b live limit (sol.run b live index entry)
          (queueAfter b live sol index entry rest)
    else sol
termination_by (limit - sol.transfers, queue.length)
decreasing_by
  · exact Prod.Lex.right _ (by simp)
  · exact Prod.Lex.left _ _ (by simp only [Solution.run]; omega)

def solve (b : Body) (live : Liveness) : Solution :=
  solveFrom b live (transferLimit b) (.start b) [0]

end Ownership

end BorrowChecker
