import BorrowChecker.Config.Basic
import BorrowChecker.File.Host
import BorrowChecker.Toml.View

/-!
Settings from a file. The file is the one that is named, or else the nearest one above a directory;
what it leaves out keeps its usual value.
-/

namespace BorrowChecker

inductive ConfigFault where
  | unknowable (candidate : Text) (fault : FileFault)
  | unreadable (path : Text) (fault : FileFault)
  /-- The text is no TOML, or holds a value of the wrong kind. -/
  | malformed (path : Text)
  | unknownKey (path : Text) (key : Toml.Key)
  | invalid (path : Text) (flaws : List ConfigFlaw)
deriving DecidableEq, Repr

def ConfigFault.message : ConfigFault → Text
  | unknowable candidate fault => "failed to stat " ++ Quoted.encode candidate ++ ": " ++ fault.message
  | unreadable path fault => path ++ ": failed to parse TOML: " ++ fault.message
  | malformed path => path ++ ": failed to parse TOML: toml: malformed text"
  | unknownKey path key => path ++ ": unknown key " ++ Quoted.encode key.print
  | invalid path flaws => path ++ ": " ++ ConfigFlaw.messages flaws

namespace Config

def fileName : Text := "borrowck.toml"

def checkSchema : Toml.Schema := .record [("jobs", .integer), ("max_diagnostics", .integer)]

def outputSchema : Toml.Schema := .record [("format", .string), ("color", .string), ("ui", .string)]

def traceSchema : Toml.Schema := .record [("level", .string), ("output", .string)]

def cacheSchema : Toml.Schema := .record [("enabled", .bool), ("dir", .string)]

def schema : Toml.Schema :=
  .record [("check", checkSchema), ("output", outputSchema), ("trace", traceSchema),
    ("cache", cacheSchema)]

/-- The settings of a document. A cache that is mentioned is used, unless the document says no. -/
def ofToml (doc : Toml.Document) : Config :=
  let top : Toml.View := ⟨schema, .table doc.members⟩
  let part (name : String) (s : Toml.Schema) : Toml.View := ⟨s, (top.get? name).getD (.table [])⟩
  let check := part "check" checkSchema
  let output := part "output" outputSchema
  let trace := part "trace" traceSchema
  let cache := part "cache" cacheSchema
  { jobs := check.number "jobs" 0
    maxDiagnostics := check.number "max_diagnostics" 100
    format := output.text "format" "pretty"
    color := output.text "color" "auto"
    ui := output.text "ui" "off"
    level := trace.text "level" "off"
    output := trace.text "output" "-"
    isCaching := (doc.isDefined ["cache"] && !doc.isDefined ["cache", "enabled"]) ||
      cache.flag "enabled"
    cacheDir := cache.text "dir" }

def ofText (path data : Text) : Except ConfigFault Config :=
  match Toml.Document.ofText? data with
  | none => .error (.malformed path)
  | some doc =>
    if !schema.fits (.table doc.members) then .error (.malformed path)
    else
      match doc.unknownKey? schema with
      | some key => .error (.unknownKey path key)
      | none =>
        let c := ofToml doc
        if c.flaws.isEmpty then .ok c else .error (.invalid path c.flaws)

variable {m : Type → Type} [Monad m]

def load (host : Host m) (path : Text) : m (Except ConfigFault Config) := do
  match ← host.read path with
  | .error fault => return .error (.unreadable path fault)
  | .ok data => return ofText path data

def upwards (dir : Text) : List Text :=
  dir :: (if (Path.parent dir).length < dir.length then upwards (Path.parent dir) else [])
termination_by dir.length

def findAmong (host : Host m) : List Text → m (Except ConfigFault (Option Text))
  | [] => return .ok none
  | dir :: rest => do
    let candidate := Path.join [dir, fileName]
    match ← host.kind candidate with
    | .ok _ => return .ok (some candidate)
    | .error fault =>
      if fault.cause = .missing then findAmong host rest
      else return .error (.unknowable candidate fault)

def find (host : Host m) (start : Text) : m (Except ConfigFault (Option Text)) := do
  findAmong host (upwards (← host.absolute (if start.isEmpty then "." else start)))

/-- The settings to use and the path of their file, which is empty for the usual ones. -/
def resolve (host : Host m) (explicit start : Text) : m (Except ConfigFault (Config × Text)) := do
  if !explicit.isEmpty then return (← load host explicit).map (·, explicit)
  match ← find host start with
  | .error fault => return .error fault
  | .ok none => return .ok ({}, [])
  | .ok (some path) => return (← load host path).map (·, path)

end Config

end BorrowChecker
