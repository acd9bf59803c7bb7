import BorrowChecker.File.Format
import BorrowChecker.File.Path
import BorrowChecker.Handoff.Meaning
import BorrowChecker.Pack.Envelope
import BorrowChecker.Written.Toml
import BorrowChecker.Written.Yaml

/-!
Reading a module from the contents of a file, in the format that the name of the file tells.
-/

namespace BorrowChecker

inductive ContentFault
  | malformed (format : FileFormat)
  | noBodies
  | unknownKey (key : Toml.Key)
  | emptyDocument
  | unreadable (bodies : List Written.BodyFaults)
  | otherLayout (found : UInt16)
  | noModule
deriving DecidableEq, Repr

inductive LoadFault
  | unknownFormat (path : Text)
  | content (path : Text) (fault : ContentFault)
deriving DecidableEq, Repr

def ContentFault.message : ContentFault → Text
  | malformed format => format.print ++ ": malformed text"
  | noBodies => "no [[body]] tables"
  | unknownKey key => "unknown key " ++ Quoted.encode key.print
  | emptyDocument => "empty document"
  | unreadable bodies => Written.BodyFaults.messages bodies
  | otherLayout found => ((Pack.Fault.otherLayout found).message?).getD []
  | noModule => (Pack.Fault.noModule.message?).getD []

def LoadFault.message : LoadFault → Text
  | unknownFormat path => FileFormat.unknownMessage path
  | content path fault => path ++ ": " ++ fault.message

namespace FileFormat

def readWritten (m : Written.Module) : Except ContentFault Handoff.Module :=
  match m.read with
  | .ok m => .ok (.ofMir m)
  | .error faults => .error (.unreadable faults)

def readToml (data : Text) : Except ContentFault Handoff.Module :=
  match Toml.Document.ofText? data with
  | none => .error (.malformed .toml)
  | some doc =>
    let value := Toml.Value.table doc.members
    if !Written.moduleSchema.fits value then .error (.malformed .toml)
    else if !doc.isDefined ["body"] then .error .noBodies
    else
      match doc.unknownKey? Written.moduleSchema with
      | some key => .error (.unknownKey key)
      | none => readWritten (.ofToml value)

def readYaml (data : Text) : Except ContentFault Handoff.Module :=
  match Yaml.document? data with
  | none => .error (.malformed .yaml)
  | some none => .error .emptyDocument
  | some (some n) =>
    match Written.Module.ofYaml n with
    | none => .error (.malformed .yaml)
    | some m => readWritten (m.getD {})

def readPacked (data : Text) : Except ContentFault Handoff.Module :=
  match Pack.decodeModule data with
  | .ok m => .ok m
  | .error .garbled => .error (.malformed .msgpack)
  | .error (.otherLayout found) => .error (.otherLayout found)
  | .error .noModule => .error .noModule

def read (format : FileFormat) (data : Text) : Except ContentFault Handoff.Module :=
  match format with
  | toml => readToml data
  | yaml => readYaml data
  | msgpack => readPacked data

end FileFormat

namespace File

/-- A module without a name is named for its file. -/
def named (path : Text) (m : Handoff.Module) : Handoff.Module :=
  if m.name.isEmpty then { m with name := Path.stem path } else m

def read (path data : Text) : Except LoadFault Handoff.Module :=
  match FileFormat.ofPath? path with
  | none => .error (.unknownFormat path)
  | some format =>
    match format.read data with
    | .ok m => .ok (named path m)
    | .error fault => .error (.content path fault)

end File

end BorrowChecker
