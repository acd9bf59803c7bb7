import BorrowChecker.Cache.Entry
import BorrowChecker.Digest.Sha256
import BorrowChecker.File.Host

/-!
Entries kept by key. A store in a directory has one file for every entry; a missing one, or one of
another layout, is as if it had never been put there.
-/

namespace BorrowChecker

namespace Cache

inductive Lookup where
  | miss
  /-- Something stands there that is no entry. -/
  | unreadable
  | hit (e : Entry)
deriving Repr

def Lookup.ofBytes (data : Text) : Lookup :=
  match Entry.decode? data with
  | none => .unreadable
  | some e => if e.layout = currentLayout then .hit e else .miss

structure Store (m : Type → Type) where
  get : Digest → m Lookup
  put : Digest → Entry → m (Except FileFault Unit)

inductive RootFault where
  | noHome
  | file (fault : FileFault)
deriving DecidableEq, Repr

def RootFault.message : RootFault → Text
  | noHome => "$HOME is not defined"
  | file fault => fault.message

namespace Store

variable {m : Type → Type} [Monad m]

def pathFor (root : Text) (key : Digest) : Text := Path.join [root, "results", key.print ++ ".mp"]

/-- The directory to use when none is named: one for the program among the caches of the user. -/
def usualRoot (host : Host m) (program : Text) : m (Except RootFault Text) := do
  let base ← host.environment "XDG_CACHE_HOME"
  if !base.isEmpty then return .ok (Path.join [base, program])
  let home ← host.environment "HOME"
  if home.isEmpty then return .error .noHome
  return .ok (Path.join [Path.join [home, ".cache"], program])

def makeRoot (host : Host m) (root program : Text) : m (Except RootFault Text) := do
  match ← if root.isEmpty then usualRoot host program else pure (.ok root) with
  | .error fault => return .error fault
  | .ok root =>
    match ← host.makeDirectories root with
    | .error fault => return .error (.file fault)
    | .ok () => return .ok root

def inDirectory (host : Host m) (root : Text) : Store m where
  get key := do
    match ← host.read (pathFor root key) with
    | .ok data => return .ofBytes data
    | .error fault => return if fault.cause = .missing then .miss else .unreadable
  put key e := do
    let path := pathFor root key
    match ← host.makeDirectories (Path.parent path) with
    | .error fault => return .error fault
    | .ok () => host.replace path "tmp-" e.encode

/-- Empties the directory of a store: it is moved away, removed, and made anew. -/
def clear (host : Host m) (root : Text) : m (Except FileFault Unit) := do
  let old := root ++ ".old-" ++ Text.ofNat (← host.clock)
  match ← host.rename root old with
  | .error fault => return if fault.cause = .missing then .ok () else .error fault
  | .ok () =>
    match ← host.remove old with
    | .error fault => return .error fault
    | .ok () => host.makeDirectories root

def files (host : Host m) (root : Text) : m (List Text) := do
  match ← host.filesBelow root with
  | .error _ => return []
  | .ok files => return files.mergeSort fun a b => !b.before a

end Store

end Cache

end BorrowChecker
