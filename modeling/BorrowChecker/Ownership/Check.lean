import BorrowChecker.Ownership.Lifetime
import BorrowChecker.Ownership.Solve

/-!
Checking a body: the violations of its blocks from their final start states, in block order, and
then those of its lifetime bounds.
-/

namespace BorrowChecker

namespace Ownership

open Mir

structure BlockReport where
  block : Nat
  found : List Violation
deriving DecidableEq, Repr

structure BodyReport where
  transfers : Nat
  blocks : List BlockReport
  lifetimes : List Violation
deriving DecidableEq, Repr

namespace BodyReport

def violations (r : BodyReport) : List Violation :=
  r.blocks.flatMap BlockReport.found ++ r.lifetimes

end BodyReport

def examine (b : Body) : BodyReport :=
  let live := Liveness.ofBody b
  let sol := solve b live
  { transfers := sol.transfers
    blocks := (List.range b.blocks.length).filterMap fun i =>
      (sol.entry? i).map fun entry => ⟨i, (transfer b live i entry).found⟩
    lifetimes := lifetimeViolations b }

/-- The violations in a body. A body without blocks has none. -/
def check (b : Body) : List Violation :=
  if b.blocks.isEmpty then [] else (examine b).violations

end Ownership

end BorrowChecker
