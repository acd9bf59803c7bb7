import BorrowChecker.Diagnostic.Code
import BorrowChecker.Mir.Body

/-!
Diagnostics and bags that collect them. A bag may have a limit; what it turns away is counted, and
it remembers whether an error was among it.
-/

namespace BorrowChecker

/-- A statement of a body. Only a valid position has a block and a statement to show. -/
structure Pos where
  body : Text := []
  block : Int := 0
  statement : Int := 0
  isValid : Bool := false
deriving DecidableEq, Repr

namespace Pos

def ofLocation (body : Text) (loc : Mir.Location) : Pos :=
  { body, block := loc.block, statement := loc.statement, isValid := true }

def location (p : Pos) : Mir.Location := ⟨p.block, p.statement⟩

def print (p : Pos) : Text := if p.isValid then p.location.print else "-"

def before (p o : Pos) : Bool :=
  if p.body ≠ o.body then Text.before p.body o.body else p.location.before o.location

end Pos

structure Note where
  pos : Pos := {}
  label : Text := []
deriving DecidableEq, Repr

structure Diagnostic where
  severity : Severity := .note
  code : Code := .unknown
  message : Text := []
  primary : Pos := {}
  notes : List Note := []
deriving DecidableEq, Repr

namespace Diagnostic

def isError (d : Diagnostic) : Bool := d.severity.isError

end Diagnostic

/-- Diagnostics up to a limit; a limit of zero or less is none. -/
structure Bag where
  limit : Int := 0
  items : List Diagnostic := []
  dropped : Nat := 0
  droppedError : Bool := false
deriving DecidableEq, Repr

namespace Bag

def size (b : Bag) : Nat := b.items.length

def isFull (b : Bag) : Bool := 0 < b.limit && b.limit ≤ b.items.length

def add (b : Bag) (d : Diagnostic) : Bag :=
  if b.isFull then
    { b with dropped := b.dropped + 1, droppedError := b.droppedError || d.isError }
  else { b with items := b.items ++ [d] }

def addAll (b : Bag) (ds : List Diagnostic) : Bag := ds.foldl add b

/-- Whether an error was added, kept or not. -/
def hasErrors (b : Bag) : Bool := b.items.any Diagnostic.isError || b.droppedError

def merge (b other : Bag) : Bag :=
  let merged := b.addAll other.items
  { merged with
    dropped := merged.dropped + other.dropped
    droppedError := merged.droppedError || other.droppedError }

end Bag

structure Draft where
  diagnostic : Diagnostic
  isEmitted : Bool := false
deriving DecidableEq, Repr

namespace Draft

/-- Hands the diagnostic to a bag, if there is one; later calls do nothing. -/
def emit (d : Draft) (bag : Option Bag) : Draft × Option Bag :=
  if d.isEmitted then (d, bag)
  else ({ d with isEmitted := true }, bag.map fun b => b.add d.diagnostic)

def emitTimes : Nat → Draft → Option Bag → Draft × Option Bag
  | 0, d, bag => (d, bag)
  | n + 1, d, bag => emitTimes n (d.emit bag).1 (d.emit bag).2

end Draft

end BorrowChecker
