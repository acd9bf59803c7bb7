import BorrowChecker.Text.Basic

/-!
Codes and severities of diagnostics. A code is a number that stays the same between versions; it is
shown as `E` and at least three digits.
-/

namespace BorrowChecker

structure Code where
  number : UInt16
deriving DecidableEq, Repr

namespace Code

def unknown : Code := ⟨0⟩
def useAfterMove : Code := ⟨100⟩
def doubleFree : Code := ⟨101⟩
def useAfterFree : Code := ⟨102⟩
def mutableConflict : Code := ⟨103⟩
def moveWhileBorrowed : Code := ⟨105⟩
def undeclaredLifetime : Code := ⟨106⟩
def invalidBody : Code := ⟨200⟩
def loadFailed : Code := ⟨201⟩

def id (c : Code) : Text := "E" ++ Text.padLeft 3 48 (Text.ofNat c.number.toNat)

def title (c : Code) : Text :=
  if c = useAfterMove then "use of moved value"
  else if c = doubleFree then "value dropped twice"
  else if c = useAfterFree then "use of freed value"
  else if c = mutableConflict then "conflicting borrows"
  else if c = moveWhileBorrowed then "move out of borrowed value"
  else if c = undeclaredLifetime then "undeclared lifetime in bound"
  else if c = invalidBody then "malformed MIR body"
  else if c = loadFailed then "cannot load MIR module"
  else "Unknown error"

end Code

/-- How grave a diagnostic is. A rank above that of an error counts as an error. -/
structure Severity where
  rank : UInt8
deriving DecidableEq, Repr

namespace Severity

def note : Severity := ⟨0⟩
def warning : Severity := ⟨1⟩
def error : Severity := ⟨2⟩

def isError (s : Severity) : Bool := error.rank ≤ s.rank

def word (s : Severity) : Text :=
  if s = note then "note"
  else if s = warning then "warning"
  else if s = error then "error"
  else "unknown"

end Severity

end BorrowChecker
