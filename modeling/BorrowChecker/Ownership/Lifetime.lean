import BorrowChecker.Ownership.Violation

/-!
Lifetime bounds. Every lifetime in a bound has to be declared by the body, also in the bounds that
are understood where none are written.
-/

namespace BorrowChecker

namespace Ownership

open Mir

def staticLifetime : Text := "static"

def inputLifetimes (b : Body) : List Text := b.params.filterMap Ty.inputLifetime?

def distinct (seen : List Text) : List Text → List Text
  | [] => []
  | x :: rest => if x ∈ seen then distinct seen rest else x :: distinct (x :: seen) rest

/-- The bounds understood for a body that writes none and has one input lifetime: every other
lifetime of the result outlives it. -/
def elidedBounds (b : Body) : List Bound :=
  if b.lifetimeBounds.isEmpty then
    match inputLifetimes b with
    | [input] => (distinct [input] b.result.lifetimes).map fun name => ⟨name, input⟩
    | _ => []
  else []

def boundNames (bound : Bound) : List Text :=
  if bound.outlives = bound.name then [bound.name] else [bound.name, bound.outlives]

def isDeclared (b : Body) (name : Text) : Bool :=
  name == staticLifetime || b.lifetimeParams.contains name

def lifetimeViolations (b : Body) : List Violation :=
  (b.lifetimeBounds ++ elidedBounds b).flatMap fun bound =>
    ((boundNames bound).filter fun name => !isDeclared b name).map fun name => .undeclared name bound

end Ownership

end BorrowChecker
