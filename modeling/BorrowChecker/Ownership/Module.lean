import BorrowChecker.Diagnostic.Bag
import BorrowChecker.Ownership.Check

/-!
Checking the bodies of a module one by one, and the diagnostics of what is found.
-/

namespace BorrowChecker

namespace Ownership

open Mir

structure BodyFindings where
  body : Text
  found : List Violation
deriving DecidableEq, Repr

def checkAll (bodies : List Body) : List BodyFindings :=
  (bodies.map fun b => ⟨b.name, check b⟩).filter fun f => !f.found.isEmpty

namespace Violation

/-- The diagnostic of a violation. It stands at the later of the two locations, which are both
noted; a lifetime has no location. -/
def diagnostic (b : Body) (v : Violation) : Diagnostic :=
  if v.kind = .undeclaredLifetime then
    { severity := .error, code := v.kind.code, message := v.message [], primary := { body := b.name } }
  else
    { severity := .error, code := v.kind.code, message := v.message (b.localName v.place)
      primary := .ofLocation b.name v.second
      notes := [⟨.ofLocation b.name v.first, v.kind.labels.1⟩,
        ⟨.ofLocation b.name v.second, v.kind.labels.2⟩] }

end Violation

def diagnostics (m : Module) (findings : List BodyFindings) : List Diagnostic :=
  findings.flatMap fun f =>
    match m.body? f.body with
    | none => []
    | some b => f.found.map (Violation.diagnostic b)

end Ownership

end BorrowChecker
