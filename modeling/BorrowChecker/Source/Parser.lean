import BorrowChecker.Source.Take.Terminator

/-!
Whole lines: a type, a statement, a terminator or a lifetime bound, and nothing after it.
-/

namespace BorrowChecker

namespace Source

open Mir

def parseLine {α : Type} (take : (tokens : List Token) → Take α tokens) (src : Text) :
    Except Fault α := do
  let tokens ← lex src
  let taken ← take tokens
  expectEnd taken.rest
  return taken.value

def parseType (src : Text) : Except Fault Ty := parseLine takeType src

def parseStatement (src : Text) : Except Fault Statement := parseLine takeStatement src

def parseTerminator (labels : Labels) (src : Text) : Except Fault Terminator :=
  parseLine (takeTerminator labels) src

def takeBound (tokens : List Token) : Take Bound tokens := do
  let name ← expectKind .lifetime tokens
  let colon ← expect ":" name.rest
  let outlives ← expectKind .lifetime colon.rest
  return name.andThen (colon.andThen
    (outlives.map fun t => ⟨name.value.text, t.text⟩))

def parseBound (src : Text) : Except Fault Bound := parseLine takeBound src

end Source

end BorrowChecker
