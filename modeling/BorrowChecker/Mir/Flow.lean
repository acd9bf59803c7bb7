import BorrowChecker.Mir.Body

/-!
Control flow between the blocks of a body. Targets that the body does not have are left out, so
the flow is defined for malformed bodies too.
-/

namespace BorrowChecker

namespace Mir

namespace Body

def blockIndex? (b : Body) (id : BlockId) : Option Nat :=
  if 0 ≤ id ∧ id.toNat < b.blocks.length then some id.toNat else none

/-- The blocks that follow a block, in the order of its terminator and with repeats. -/
def succs (b : Body) (index : Nat) : List Nat :=
  match b.blocks[index]? with
  | none => []
  | some block => block.term.successors.filterMap b.blockIndex?

/-- Puts the source of an edge into the row of its target, unless it is there already. -/
def addPred (source : Nat) (rows : List (List Nat)) (target : Nat) : List (List Nat) :=
  rows.modify target fun row => if row.contains source then row else row ++ [source]

def addPreds (b : Body) (rows : List (List Nat)) (source : Nat) : List (List Nat) :=
  (b.succs source).foldl (addPred source) rows

/-- For every block those that it follows, from the edges of one block after the other. -/
def predRows (b : Body) : List (List Nat) :=
  (List.range b.blocks.length).foldl b.addPreds (List.replicate b.blocks.length [])

def preds (b : Body) (index : Nat) : List Nat := b.predRows.getD index []

end Body

/-- The nodes of a finite domain that are reached from pending ones, in the order in which they are
found. Each step takes a found node out of the domain. -/
def gather (next : Nat → List Nat) (domain pending : List Nat) : List Nat :=
  match _found : pending.find? domain.contains with
  | none => []
  | some node => node :: gather next (domain.erase node) (next node ++ pending)
termination_by domain.length
decreasing_by
  have member : node ∈ domain := List.contains_iff_mem.mp (List.find?_some _found)
  have shorter := List.length_erase_of_mem member
  have positive := List.length_pos_of_mem member
  omega

/-- A breadth-first search among so many blocks: those it has marked, and its queue, which has one
place for every block. A place is not given back when its block has been worked off. -/
structure Search (blocks : Nat) where
  seen : Vector Bool blocks
  queue : List Nat
  fits : queue.length ≤ blocks

namespace Search

variable {blocks : Nat}

def empty : Search blocks := ⟨.replicate blocks false, [], Nat.zero_le blocks⟩

/-- Marks a block and puts it on the queue. This fails where there is no such block, or no place. -/
def put (s : Search blocks) (index : Nat) : Option (Search blocks) :=
  if room : index < blocks ∧ s.queue.length < blocks then
    some
      { seen := s.seen.set index true room.1
        queue := s.queue ++ [index]
        fits := by
          rw [List.length_append]
          exact room.2 }
  else none

def visit (s : Search blocks) (index : Nat) : Option (Search blocks) :=
  if s.seen[index]? = some true then some s else s.put index

def run (next : Nat → List Nat) (position : Nat) (s : Search blocks) : Option (Search blocks) :=
  match _taken : s.queue[position]? with
  | none => some s
  | some index => ((next index).foldlM visit s).bind fun later => run next (position + 1) later
termination_by blocks - position
decreasing_by
  have inside := (List.getElem?_eq_some_iff.mp _taken).1
  have fits := s.fits
  omega

end Search

namespace Body

def reached (b : Body) : List Nat := gather b.succs (List.range b.blocks.length) [0]

def search? (b : Body) : Option (Search b.blocks.length) :=
  if b.blocks.isEmpty then some .empty else (Search.empty.put 0).bind (Search.run b.succs 0)

end Body

end Mir

end BorrowChecker
