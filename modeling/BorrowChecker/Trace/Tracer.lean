import BorrowChecker.Trace.Event

/-!
A trace in the making. Spans are opened and closed; a span whose scope the level leaves out is no
span at all, takes no number and accepts every call.
-/

namespace BorrowChecker

namespace Trace

/-- A trace: what has been written so far, how many events that are, and the number of the last
span. -/
structure Tracer where
  level : Level := .off
  format : Format := .text
  spans : Nat := 0
  written : Nat := 0
  out : Text := []
deriving DecidableEq, Repr

structure Span where
  id : Nat
  parent : Nat
  scope : Scope
  name : Text
  attrs : List Attr := []
deriving DecidableEq, Repr

namespace Span

def idOf (s : Option Span) : Nat :=
  match s with
  | none => 0
  | some s => s.id

def attr (key value : Text) (s : Span) : Span := { s with attrs := Attr.set key value s.attrs }

end Span

namespace Tracer

def emit (t : Tracer) (nanos : Nat) (e : Event) : Tracer :=
  if t.level.shows e.scope then
    { t with written := t.written + 1, out := t.out ++ t.format.render e (t.written + 1) nanos }
  else t

def enter (t : Tracer) (nanos : Nat) (scope : Scope) (name : Text) (parent : Nat) :
    Option Span × Tracer :=
  if t.level.shows scope then
    let id := t.spans + 1
    (some { id, parent, scope, name },
      { t with spans := id }.emit nanos { kind := .opening, scope, span := id, parent, name })
  else (none, t)

def leave (t : Tracer) (nanos : Nat) (span : Option Span) (detail : Text) : Tracer :=
  match span with
  | none => t
  | some s =>
    t.emit nanos
      { kind := .closing, scope := s.scope, span := s.id, parent := s.parent, name := s.name, detail,
        attrs := Attr.sort s.attrs }

def point (t : Tracer) (nanos : Nat) (span : Option Span) (scope : Scope) (name detail : Text) :
    Tracer :=
  match span with
  | none => t
  | some s =>
    if t.level.shows scope then
      let id := t.spans + 1
      { t with spans := id }.emit nanos
        { kind := .point, scope, span := id, parent := s.id, name, detail }
    else t

end Tracer

end Trace

end BorrowChecker
