import BorrowChecker.Text.Case
import BorrowChecker.Text.Quoted

/-!
How deep a trace goes: what happens is grouped in scopes, and a level names the deepest scope that
is still written.
-/

namespace BorrowChecker

namespace Trace

/-- The granularity of an event, the coarsest first. -/
structure Scope where
  rank : UInt8
deriving DecidableEq, Repr

namespace Scope

def driver : Scope := ⟨1⟩
def pass : Scope := ⟨2⟩
def module : Scope := ⟨3⟩
def body : Scope := ⟨4⟩
def block : Scope := ⟨5⟩

def print (s : Scope) : Text :=
  if s = driver then "driver"
  else if s = pass then "pass"
  else if s = module then "module"
  else if s = body then "body"
  else if s = block then "block"
  else "unknown"

end Scope

structure Level where
  rank : UInt8
deriving DecidableEq, Repr

namespace Level

def off : Level := ⟨0⟩
def phase : Level := ⟨1⟩
def detail : Level := ⟨2⟩
def debug : Level := ⟨3⟩

def named : List (Level × Text) :=
  [(off, "off"), (phase, "phase"), (detail, "detail"), (debug, "debug")]

def print (l : Level) : Text := (named.lookup l).getD "unknown"

def deepest? (l : Level) : Option UInt8 :=
  if l = off then some 0
  else if l = phase then some Scope.pass.rank
  else if l = detail then some Scope.body.rank
  else if l = debug then some Scope.block.rank
  else none

/-- Whether events of a scope are written. A level beyond the named ones writes everything. -/
def shows (l : Level) (s : Scope) : Bool :=
  match l.deepest? with
  | none => true
  | some deepest => s.rank != 0 && s.rank ≤ deepest

/-- The level of a name, without regard to case and to blanks around it; no name is off. -/
def ofName? (name : Text) : Except Text Level :=
  let word := name.trim.lower
  if word.isEmpty then .ok off
  else
    match named.find? fun entry => entry.2 == word with
    | some (l, _) => .ok l
    | none =>
      .error ("unknown trace level " ++ Quoted.encode word ++ " (want " ++
        Text.joined "|" (named.map Prod.snd) ++ ")")

end Level

end Trace

end BorrowChecker
