import BorrowChecker.Ownership.Module
import BorrowChecker.Trace.Tracer

/-!
Checking bodies under a trace: a span for the module and one for every body, with an instant for
every block that control reaches.
-/

namespace BorrowChecker

namespace Trace

abbrev Traced (m : Type → Type) := StateT Tracer m

namespace Traced

variable {m : Type → Type} [Monad m]

def enter (clock : m Nat) (scope : Scope) (name : Text) (parent : Nat) : Traced m (Option Span) := do
  let nanos ← clock
  modifyGet fun t => t.enter nanos scope name parent

def leave (clock : m Nat) (span : Option Span) (detail : Text) : Traced m Unit := do
  let nanos ← clock
  modify fun t => t.leave nanos span detail

def point (clock : m Nat) (span : Option Span) (scope : Scope) (name detail : Text) :
    Traced m Unit := do
  let nanos ← clock
  modify fun t => t.point nanos span scope name detail

end Traced

inductive BodyStatus where
  | queued
  | working
  | done (found : Nat)
deriving DecidableEq, Repr

def bodySpan (r : Ownership.BodyReport) (s : Span) : Span :=
  (s.attr "iterations" (Text.ofNat r.transfers)).attr "errors" (Text.ofNat r.violations.length)

variable {m : Type → Type} [Monad m]

/-- Checks one body. A body without blocks is passed over. -/
def checkBody (clock : m Nat) (parent : Nat) (b : Mir.Body) : Traced m (List Ownership.Violation) := do
  if b.blocks.isEmpty then return []
  let span ← Traced.enter clock .body b.name parent
  let report := Ownership.examine b
  for block in report.blocks do
    Traced.point clock span .block (Mir.BlockId.print block.block)
      ("errors=" ++ Text.ofNat block.found.length)
  Traced.leave clock (span.map (bodySpan report)) []
  return report.violations

/-- Checks bodies in order and tells how far each is. Without bodies nothing happens. -/
def checkModule (clock : m Nat) (tell : Text → BodyStatus → Traced m Unit) (parent : Nat)
    (name : Text) (bodies : List Mir.Body) : Traced m (List Ownership.BodyFindings) := do
  if bodies.isEmpty then return []
  let span ← Traced.enter clock .module name parent
  let inner := if span.isSome then Span.idOf span else parent
  for b in bodies do
    tell b.name .queued
  let findings ← bodies.mapM fun b => do
    tell b.name .working
    let found ← checkBody clock inner b
    tell b.name (.done found.length)
    return (⟨b.name, found⟩ : Ownership.BodyFindings)
  Traced.leave clock (span.map (Span.attr "bodies" (Text.ofNat bodies.length))) []
  return findings.filter fun f => !f.found.isEmpty

end Trace

end BorrowChecker
