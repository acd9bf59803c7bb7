import BorrowChecker.Cli.Program
import BorrowChecker.View.Progress

/-!
The command line: the machine that the program runs on, its streams and its arguments.
-/

namespace BorrowChecker

namespace Machine

/-- The bytes of a text as a string of the machine; a text that is none is passed over. -/
def toString (t : Text) : String := (String.fromUTF8? (ByteArray.mk t.toArray)).getD ""

def causeOf : IO.Error → FileCause
  | .noFileOrDirectory .. => .missing
  | .alreadyExists .. => .alreadyThere
  | .inappropriateType _ code details =>
    if code = 20 then .notDirectory else if code = 21 then .isDirectory else .other details
  | .invalidArgument _ code details => if code = 36 then .nameTooLong else .other details
  | e => .other e.toString

def request {α : Type} (action : FileAction) (path : Text) (ask : IO α) : IO (Except FileFault α) := do
  try return .ok (← ask) catch e => return .error ⟨action, path, causeOf e⟩

def entry (path : Text) : IO.FS.DirEntry := ⟨".", toString path⟩

def kind (path : Text) : IO FileKind := do
  let metadata ← (entry path).path.metadata
  return if metadata.type == .dir then .directory else .file

def read (path : Text) : IO (Except FileFault Text) := do
  let answer ← request .opening path do
    return (← IO.FS.readBinFile (entry path).path).toList
  return answer.mapError fun fault =>
    if fault.cause = .isDirectory then { fault with action := .reading } else fault

def remove (path : Text) : IO Unit := do
  if ← (entry path).path.pathExists then
    if (← kind path) = .directory then IO.FS.removeDirAll (entry path).path
    else IO.FS.removeFile (entry path).path

partial def filesBelow (path lead : Text) : IO (List Text) := do
  let entries ← (entry path).path.readDir
  let found ← entries.toList.mapM fun e => do
    let name := Text.ofString e.fileName
    let inner := Path.join [path, name]
    if (← kind inner) = .directory then filesBelow inner (lead ++ name ++ [Path.slash])
    else return [lead ++ name]
  return found.flatten

def host : Host IO where
  workingDirectory := return Text.ofString (← IO.currentDir).toString
  environment name := return Text.ofString ((← IO.getEnv (toString name)).getD "")
  clock := IO.monoNanosNow
  kind path := request .stat path (kind path)
  read := read
  write path data := request .opening path
    (IO.FS.writeBinFile (entry path).path (ByteArray.mk data.toArray))
  makeDirectory path := request .makeDirectory path (IO.FS.createDir (entry path).path)
  rename source target := request (.rename source) target
    (IO.FS.rename (entry source).path (entry target).path)
  remove path := request .remove path (remove path)
  filesBelow path := request .opening path (filesBelow path [])

def send (stream : IO.FS.Stream) (t : Text) : IO Unit := do
  stream.write (ByteArray.mk t.toArray)
  stream.flush

def clearDrawn (drawn : Text) : Text :=
  match drawn.count 10 with
  | 0 => []
  | lines => "\x1b[" ++ Text.ofNat lines ++ "A\x1b[J"

def openView (stream : IO.FS.Stream) (files : List Text) : IO (ProgressEvent → IO Unit) := do
  let first := View.Progress.start (Cli.Command.path .check) files
  let progress ← IO.mkRef first
  send stream first.view
  return fun e => do
    let before ← progress.get
    let after := before.receive e
    progress.set after
    send stream (clearDrawn before.view ++ after.view)

end Machine

end BorrowChecker

open BorrowChecker in
def main (args : List String) : IO UInt32 := do
  let stdout ← IO.getStdout
  let stderr ← IO.getStderr
  let around : Cli.Surroundings IO :=
    { host := Machine.host, openView := Machine.openView stderr
      isOutTerminal := ← stdout.isTty, isErrTerminal := ← stderr.isTty }
  let finished ← Cli.run around (args.map Text.ofString)
  Machine.send stdout finished.out
  Machine.send stderr finished.err
  return finished.status.toUInt32
