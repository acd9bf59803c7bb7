import BorrowChecker.Ownership.Module
import BorrowChecker.Pack.Record

/-!
What is remembered of a checked module, and its packed form.
-/

namespace BorrowChecker

namespace Cache

open Mir Ownership Pack

/-- What was found in the bodies of a module, with the version of the program that found it and the
number of bodies it checked. -/
structure Entry where
  layout : UInt16 := 0
  module : Text := []
  version : Text := []
  bodies : Int := 0
  findings : Option (List BodyFindings) := none
deriving Repr

def currentLayout : UInt16 := 1

def location (fit : Fit) : Codec Location := .record ⟨0, 0⟩ [
  field "Block" (.id32 fit) Location.block fun l x => { l with block := x },
  field "Statement" (.count fit) Location.statement fun l x => { l with statement := x }]

def bound : Codec Bound := .record ⟨[], []⟩ [
  field "Name" .text Bound.name fun b x => { b with name := x },
  field "Outlives" .text Bound.outlives fun b x => { b with outlives := x }]

def blankViolation : Violation := { kind := .ofCode 0 }

def violation (fit : Fit) : Codec Violation := .record blankViolation [
  field "Kind" (.uint8 fit) (fun v => v.kind.toCode) fun v x => { v with kind := .ofCode x },
  field "Local" (.id32 fit) Violation.place fun v x => { v with place := x },
  field "First" (location fit) Violation.first fun v x => { v with first := x },
  field "Second" (location fit) Violation.second fun v x => { v with second := x },
  field "Lifetime" .text Violation.lifetime fun v x => { v with lifetime := x },
  field "Bound" bound Violation.bound fun v x => { v with bound := x }]

/-- Findings whose list may be missing, which counts as empty. -/
def findings (fit : Fit) : Codec BodyFindings := .record ⟨[], []⟩ [
  field "Body" .text BodyFindings.body fun f x => { f with body := x },
  field "Errors" (.items blankViolation (violation fit)) (fun f => some f.found)
    fun f x => { f with found := x.getD [] }]

def entry (fit : Fit) : Codec Entry := .record {} [
  field "Schema" (.uint16 fit) Entry.layout fun e x => { e with layout := x },
  field "Module" .text Entry.module fun e x => { e with module := x },
  field "Version" .text Entry.version fun e x => { e with version := x },
  field "Bodies" (.count fit) Entry.bodies fun e x => { e with bodies := x },
  field "Errors" (.items ⟨[], []⟩ (findings fit)) Entry.findings fun e x => { e with findings := x }]

def Entry.encode (e : Entry) : Text := ((entry .wrap).write { e with layout := currentLayout }).encode

def Entry.decode? (t : Text) : Option Entry :=
  (Value.take? t).bind fun (v, _) => (entry .wrap).read {} v

end Cache

end BorrowChecker
