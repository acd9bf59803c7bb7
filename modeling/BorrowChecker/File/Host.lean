import BorrowChecker.File.Path

/-!
What a program asks of the machine it runs on: files, the clock and the environment. The questions
are a record over any monad, so that the same program runs on the real machine and on one that is a
plain value.
-/

namespace BorrowChecker

inductive FileCause where
  | missing
  | notDirectory
  | isDirectory
  | alreadyThere
  | nameTooLong
  | invalid
  | other (reason : Text)
deriving DecidableEq, Repr

inductive FileAction where
  | opening
  | reading
  | stat
  | makeDirectory
  | rename (source : Text)
  | remove
deriving DecidableEq, Repr

structure FileFault where
  action : FileAction
  path : Text
  cause : FileCause
deriving DecidableEq, Repr

def FileCause.message : FileCause → Text
  | missing => "no such file or directory"
  | notDirectory => "not a directory"
  | isDirectory => "is a directory"
  | alreadyThere => "file exists"
  | nameTooLong => "file name too long"
  | invalid => "invalid argument"
  | other reason => reason

def FileAction.message : FileAction → Text
  | opening => "open"
  | reading => "read"
  | stat => "stat"
  | makeDirectory => "mkdir"
  | rename source => "rename " ++ source
  | remove => "unlinkat"

def FileFault.message (f : FileFault) : Text :=
  f.action.message ++ " " ++ f.path ++ ": " ++ f.cause.message

inductive FileKind where
  | file
  | directory
deriving DecidableEq, Repr

structure Host (m : Type → Type) where
  workingDirectory : m Text
  /-- The value of an environment variable, empty when it is not set. -/
  environment : Text → m Text
  /-- Nanoseconds since some moment. -/
  clock : m Nat
  kind : Text → m (Except FileFault FileKind)
  read : Text → m (Except FileFault Text)
  write : Text → Text → m (Except FileFault Unit)
  makeDirectory : Text → m (Except FileFault Unit)
  rename : Text → Text → m (Except FileFault Unit)
  /-- Removes a file or a directory with all it holds; nothing happens when there is none. -/
  remove : Text → m (Except FileFault Unit)
  /-- The files anywhere below a directory, as paths from it. -/
  filesBelow : Text → m (Except FileFault (List Text))

namespace Path

def lead (path : Text) : Text :=
  let trimmed := (path.reverse.dropWhile (· == slash)).reverse
  (trimmed.take (trimmed.length - (lastElement trimmed).length)).dropLast

theorem lead_length (path : Text) (h : lead path ≠ []) : (lead path).length < path.length := by
  have trimmed : ((path.reverse.dropWhile (· == slash)).reverse).length ≤ path.length := by
    rw [List.length_reverse]
    exact Nat.le_trans (List.dropWhile_sublist _).length_le (by simp)
  have positive : 0 < (lead path).length := List.length_pos_iff.mpr h
  unfold lead at positive ⊢
  simp only [List.length_dropLast, List.length_take] at positive ⊢
  omega

end Path

namespace Host

variable {m : Type → Type} [Monad m]

def absolute (host : Host m) (path : Text) : m Text := do
  if Path.isRooted path then return Path.clean path
  return Path.join [← host.workingDirectory, path]

def makeDirectories (host : Host m) (path : Text) : m (Except FileFault Unit) := do
  match ← host.kind path with
  | .ok .directory => return .ok ()
  | .ok .file => return .error ⟨.makeDirectory, path, .notDirectory⟩
  | .error _ =>
    if h : Path.lead path = [] then host.makeDirectory path
    else
      have := Path.lead_length path h
      match ← makeDirectories host (Path.lead path) with
      | .error fault => return .error fault
      | .ok () => host.makeDirectory path
termination_by path.length

/-- Writes a file whole or not at all: another file beside it takes its place once it is written. -/
def replace (host : Host m) (path stem data : Text) : m (Except FileFault Unit) := do
  let scratch := Path.join [Path.parent path, stem ++ Text.ofNat (← host.clock)]
  match ← host.write scratch data with
  | .error fault => return .error fault
  | .ok () =>
    match ← host.rename scratch path with
    | .ok () => return .ok ()
    | .error fault =>
      discard (host.remove scratch)
      return .error fault

end Host

end BorrowChecker
