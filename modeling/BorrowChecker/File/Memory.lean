import BorrowChecker.File.Tree

/-!
A machine that is a value: a tree of files, a working directory in it and an environment. Its
clock stands still.
-/

namespace BorrowChecker

structure Memory where
  tree : Tree := .directory []
  place : List Text := []
  environment : List (Text × Text) := []
deriving Repr

namespace Memory

def resolve (s : Memory) (path : Text) : Except FileCause (List Text) := s.tree.resolve s.place path

def workingDirectory (s : Memory) : Text := Path.slash :: Text.joined [Path.slash] s.place

def find (s : Memory) (path : Text) : Except FileCause Tree := do
  match s.tree.find? (← s.resolve path) with
  | none => throw .missing
  | some t => return t

def set (s : Memory) (place : List Text) (t : Option Tree) : Memory :=
  { s with tree := s.tree.set t place }

def kind (s : Memory) (path : Text) : Except FileFault FileKind :=
  match s.find path with
  | .error cause => .error ⟨.stat, path, cause⟩
  | .ok (.file _) => .ok .file
  | .ok (.directory _) => .ok .directory

def read (s : Memory) (path : Text) : Except FileFault Text :=
  match s.find path with
  | .error cause => .error ⟨.opening, path, cause⟩
  | .ok (.file data) => .ok data
  | .ok (.directory _) => .error ⟨.reading, path, .isDirectory⟩

def filesBelow (s : Memory) (path : Text) : Except FileFault (List Text) :=
  match s.find path with
  | .error cause => .error ⟨.opening, path, cause⟩
  | .ok t => .ok t.files

def write (s : Memory) (path data : Text) : Except FileFault Memory :=
  match s.resolve path with
  | .error cause => .error ⟨.opening, path, cause⟩
  | .ok place =>
    match s.tree.find? place with
    | some (.directory _) => .error ⟨.opening, path, .isDirectory⟩
    | _ => .ok (s.set place (some (.file data)))

def makeDirectory (s : Memory) (path : Text) : Except FileFault Memory :=
  let trimmed := (path.reverse.dropWhile (· == Path.slash)).reverse
  match s.resolve (if trimmed.isEmpty then path else trimmed) with
  | .error cause => .error ⟨.makeDirectory, path, cause⟩
  | .ok place =>
    match s.tree.find? place with
    | some _ => .error ⟨.makeDirectory, path, .alreadyThere⟩
    | none => .ok (s.set place (some (.directory [])))

def rename (s : Memory) (source target : Text) : Except FileFault Memory :=
  match s.resolve source, s.resolve target with
  | .error cause, _ | .ok _, .error cause => .error ⟨.rename source, target, cause⟩
  | .ok start, .ok stop =>
    match s.tree.find? start, s.tree.find? stop with
    | none, _ => .error ⟨.rename source, target, .missing⟩
    | some _, some (.directory _) => .error ⟨.rename source, target, .alreadyThere⟩
    | some t, _ =>
      if start.isPrefixOf stop ∧ start ≠ stop then .error ⟨.rename source, target, .invalid⟩
      else .ok ((s.set start none).set stop (some t))

/-- Removes what a path leads to; a path that leads nowhere is no fault. -/
def remove (s : Memory) (path : Text) : Except FileFault Memory :=
  match s.resolve path with
  | .error .missing => .ok s
  | .error cause => .error ⟨.remove, path, cause⟩
  | .ok [] => .error ⟨.remove, path, .invalid⟩
  | .ok place => .ok (s.set place none)

variable {m : Type → Type} [Monad m] [MonadStateOf Memory m]

def change (f : Memory → Except FileFault Memory) : m (Except FileFault Unit) :=
  modifyGet fun s =>
    match f s with
    | .ok after => (.ok (), after)
    | .error fault => (.error fault, s)

def host : Host m where
  workingDirectory := return (← getThe Memory).workingDirectory
  environment name := return ((← getThe Memory).environment.lookup name).getD []
  clock := return 0
  kind path := return (← getThe Memory).kind path
  read path := return (← getThe Memory).read path
  write path data := change fun s => s.write path data
  makeDirectory path := change fun s => s.makeDirectory path
  rename source target := change fun s => s.rename source target
  remove path := change fun s => s.remove path
  filesBelow path := return (← getThe Memory).filesBelow path

/-- Makes a file and the directories that lead to it. A path that ends in a slash is a directory. -/
def makeFile (path data : Text) : StateM Memory (Except FileFault Unit) := do
  let isDirectory := path.getLast? == some Path.slash
  match ← host.makeDirectories (if isDirectory then path else Path.parent path) with
  | .error fault => return .error fault
  | .ok () => if isDirectory then return .ok () else host.write path data

def ofFiles (place : List Text) (environment files : List (Text × Text)) : Memory :=
  let start : Memory := { environment }
  let prepare : StateM Memory Unit := do
    discard (host.makeDirectories (workingDirectory { start with place }))
    modify fun s => { s with place }
    for (path, data) in files do
      discard (makeFile path data)
  (prepare.run start).2

end Memory

end BorrowChecker
