import BorrowChecker.Digest.Sha256
import BorrowChecker.File.Host
import BorrowChecker.File.Load
import BorrowChecker.Ownership.Module
import BorrowChecker.Session.Screen
import BorrowChecker.Timing.Timer

/-!
What a run says about a file, and the steps that lead there: reading the file, telling its bodies
apart, and collecting diagnostics.
-/

namespace BorrowChecker

namespace Session

open Ownership

inductive Unloadable where
  | file (fault : FileFault)
  | content (fault : LoadFault)
deriving DecidableEq, Repr

def Unloadable.message : Unloadable → Text
  | file fault => fault.message
  | content fault => fault.message

/-- A file as it was read: the digest of its contents, which is zero without contents, and its
module. -/
structure Loaded where
  digest : Digest
  module : Except Unloadable Mir.Module

def Loaded.ofData (path : Text) : Except FileFault Text → Loaded
  | .error fault => ⟨.zero, .error (.file fault)⟩
  | .ok data =>
    ⟨.ofText data,
      match File.read path data with
      | .ok m => .ok m.meaning
      | .error fault => .error (.content fault)⟩

def Unloadable.diagnostic (u : Unloadable) : Diagnostic :=
  { severity := .error, code := .loadFailed, message := u.message, primary := {} }

structure FileReport where
  path : Text
  digest : Digest := .zero
  module : Except Unloadable Mir.Module
  bag : Bag
  findings : List BodyFindings := []
  rejected : List Rejected := []
  isCached : Bool := false
  timing : Timing.Report := {}

namespace FileReport

def hasErrors (r : FileReport) : Bool := r.bag.hasErrors

def timings (r : FileReport) : Timing.FileTiming :=
  { path := r.path, isCached := r.isCached, report := r.timing }

/-- How many violations findings hold, as far as they are about bodies of a module. -/
def violationCount (m : Mir.Module) (findings : List BodyFindings) : Nat :=
  ((findings.filter fun f => (m.body? f.body).isSome).flatMap fun f => f.found).length

end FileReport

end Session

end BorrowChecker
