import BorrowChecker.File.Path
import BorrowChecker.Text.Case

/-!
The formats that modules are stored in. The format of a file is told by the extension of its path.
-/

namespace BorrowChecker

inductive FileFormat where
  | toml
  | yaml
  | msgpack
deriving DecidableEq, Repr

namespace FileFormat

def print : FileFormat → Text
  | toml => "toml"
  | yaml => "yaml"
  | msgpack => "msgpack"

def printCode (code : UInt8) : Text :=
  match code with
  | 0 => toml.print
  | 1 => yaml.print
  | 2 => msgpack.print
  | _ => "unknown"

/-- The format of a path, without regard to case. -/
def ofPath? (path : Text) : Option FileFormat :=
  let ending := (Path.extension path).lower
  if ending = ".toml" then some toml
  else if ending = ".yaml" ∨ ending = ".yml" then some yaml
  else if ending = ".mirpack" ∨ ending = ".msgpack" ∨ ending = ".mp" then some msgpack
  else none

def unknownMessage (path : Text) : Text := path ++ ": unknown MIR file format"

end FileFormat

end BorrowChecker
