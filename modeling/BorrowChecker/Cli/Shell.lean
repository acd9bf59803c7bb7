import BorrowChecker.Cache.Store
import BorrowChecker.Cli.Command
import BorrowChecker.Cli.Version
import BorrowChecker.Config.Load
import BorrowChecker.File.Load
import BorrowChecker.Mir.Flaw
import BorrowChecker.Session.Run

/-!
What commands work with: a machine with two streams, a trace that may share the second of them, and
ways to fail.
-/

namespace BorrowChecker

namespace Cli

open Trace

inductive Failure where
  | usage (fault : UsageFault)
  | config (fault : ConfigFault)
  | settings (flaws : List ConfigFlaw)
  | trace (fault : FileFault)
  | profile (fault : FileFault)
  | file (fault : FileFault)
  | content (fault : LoadFault)
  | invalid (path : Text) (flaws : List Mir.ModuleFlaw)
  | nothingFound (args : List Text)
  | cancelled
  /-- Errors were found, and have been printed. -/
  | diagnostics
deriving DecidableEq, Repr

def Failure.message? : Failure → Option Text
  | usage fault => some fault.message
  | config fault => some fault.message
  | settings flaws => some (ConfigFlaw.messages flaws)
  | trace fault => some ("open trace output: " ++ fault.message)
  | profile fault => some ("failed to start profiling: " ++ fault.message)
  | file fault => some fault.message
  | content fault => some fault.message
  | invalid path flaws => some (path ++ ": " ++ Mir.ModuleFlaw.messages flaws)
  | nothingFound args => some ("no MIR files found in [" ++ Text.joined " " args ++ "]")
  | cancelled => some "context canceled"
  | diagnostics => none

structure Surroundings (m : Type → Type) where
  host : Host m
  build : Build := {}
  isOutTerminal : Bool := false
  isErrTerminal : Bool := false
  openView : List Text → m (ProgressEvent → m Unit)

structure Console where
  out : Text := []
  err : Text := []
  tracer : Tracer := {}
  /-- The file that the trace goes to; without one it goes to the second stream. -/
  traceFile : Option Text := none
  traced : Text := []
deriving Repr

abbrev Shell (m : Type → Type) := ExceptT Failure (StateT Console m)

namespace Shell

variable {m : Type → Type} [Monad m]

def print (text : Text) : Shell m Unit := modify fun c => { c with out := c.out ++ text }

def warn (text : Text) : Shell m Unit := modify fun c => { c with err := c.err ++ text }

def ask {α : Type} (request : m α) : Shell m α := liftM (m := StateT Console m) (liftM request)

def demand {α ε : Type} (fail : ε → Failure) (request : m (Except ε α)) : Shell m α := do
  match ← ask request with
  | .ok a => return a
  | .error e => throw (fail e)

def traced {α : Type} (work : Traced m α) : Shell m α := do
  let (a, tracer) ← ask (work.run (← get).tracer)
  modify fun c =>
    let c := { c with tracer := { tracer with out := [] } }
    if c.traceFile.isSome then { c with traced := c.traced ++ tracer.out }
    else { c with err := c.err ++ tracer.out }
  return a

def andFinally {α : Type} (work : Shell m α) (cleanup : Shell m Unit) : Shell m α := do
  let result ← (ExceptT.lift (ExceptT.run work) : Shell m (Except Failure α))
  cleanup
  liftM (m := Except Failure) result

end Shell

end Cli

end BorrowChecker
