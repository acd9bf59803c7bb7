import BorrowChecker.Text.Basic

/-!
The stages that a file passes through and how far it is in each.
-/

namespace BorrowChecker

inductive Stage where
  | load
  | validate
  | check
  | report
  | other (name : Text)
deriving DecidableEq, Repr

namespace Stage

def print : Stage → Text
  | load => "load"
  | validate => "validate"
  | check => "check"
  | report => "report"
  | other name => name

def ofName (name : Text) : Stage :=
  if name = load.print then load
  else if name = validate.print then validate
  else if name = check.print then check
  else if name = report.print then report
  else other name

end Stage

inductive Status where
  | queued
  | working
  | done
  | error
  | other (name : Text)
deriving DecidableEq, Repr

namespace Status

def print : Status → Text
  | queued => "queued"
  | working => "working"
  | done => "done"
  | error => "error"
  | other name => name

def ofName (name : Text) : Status :=
  if name = queued.print then queued
  else if name = working.print then working
  else if name = done.print then done
  else if name = error.print then error
  else other name

end Status

/-- News about a body of a file, or about the file when the body has no name. -/
structure ProgressEvent where
  file : Text
  body : Text := []
  stage : Stage
  status : Status
  errors : Int := 0
deriving DecidableEq, Repr

namespace ProgressEvent

def print (e : ProgressEvent) : Text :=
  e.file ++ "|" ++ e.body ++ "|" ++ e.stage.print ++ "|" ++ e.status.print ++ "|" ++
    Text.ofInt e.errors

end ProgressEvent

end BorrowChecker
