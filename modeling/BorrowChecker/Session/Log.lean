import BorrowChecker.Session.Run

/-!
A watcher that writes down what it is told. It may also cancel the run, from the start or at the
boundary of a stage.
-/

namespace BorrowChecker

namespace Session

namespace PhaseEvent

def boundary (e : PhaseEvent) : Text :=
  e.stage.print ++ "." ++ Text.guarded e.isEnd "end" ++ Text.guarded (!e.isEnd) "start"

def print (e : PhaseEvent) : Text :=
  e.file ++ "|" ++ e.stage.print ++ "|" ++ Text.guarded e.isEnd "end" ++
    Text.guarded (!e.isEnd) "start"

end PhaseEvent

structure Log where
  progress : List ProgressEvent := []
  phases : List PhaseEvent := []
  cancelAt : Text := []
  isCancelled : Bool := false
deriving Repr

namespace Log

/-- A log of a run that is cancelled when the text says: `before` it starts, or at a boundary. -/
def start (cancelAt : Text) : Log := { cancelAt, isCancelled := cancelAt == "before" }

def addPhase (log : Log) (e : PhaseEvent) : Log :=
  { log with phases := log.phases ++ [e]
             isCancelled := log.isCancelled || e.boundary == log.cancelAt }

def watcher {m : Type → Type} [Monad m] [MonadStateOf Log m] : Watcher m where
  progress e := modifyThe Log fun log => { log with progress := log.progress ++ [e] }
  phase e := modifyThe Log fun log => log.addPhase e
  isCancelled := return (← getThe Log).isCancelled

end Log

end Session

end BorrowChecker
