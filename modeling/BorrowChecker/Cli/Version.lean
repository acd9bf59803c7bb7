import BorrowChecker.Diagnostic.Render

/-!
What is known about the build of the program.
-/

namespace BorrowChecker

structure Build where
  /-- The version also salts the keys of cached results. -/
  version : Text := "0.1.0-dev"
  commit : Text := []
  date : Text := []
deriving DecidableEq, Repr

namespace Build

def cut (sep : UInt8) (text : Text) : Text × Option Text :=
  let front := text.takeWhile (· != sep)
  if front.length < text.length then (front, some (text.drop (front.length + 1))) else (front, none)

def parts? (version : Text) : Option (Text × Text × Text × Text) :=
  let (core, suffix) := cut 45 version
  match cut 46 core with
  | (_, none) => none
  | (major, some rest) =>
    match cut 46 rest with
    | (_, none) => none
    | (minor, some patch) => some (major, minor, patch, suffix.getD [])

def colored (b : Build) (useColor : Bool) : Text :=
  match parts? b.version with
  | none => b.version
  | some (major, minor, patch, suffix) =>
    Style.yellow.apply useColor major ++ "." ++ Style.green.apply useColor minor ++ "." ++
      Style.blue.apply useColor patch ++ Text.guarded (!suffix.isEmpty) ("-" ++ suffix)

def describe (b : Build) (version : Text) : Text :=
  "borrowck " ++ version ++ "\n" ++
    Text.guarded (!b.commit.isEmpty) ("commit: " ++ b.commit ++ "\n") ++
    Text.guarded (!b.date.isEmpty) ("built:  " ++ b.date ++ "\n")

def json (b : Build) : Json :=
  .object ([Json.member "tool" (.string "borrowck"), Json.member "version" (.string b.version)] ++
    Json.textMember "git_commit" b.commit ++ Json.textMember "build_date" b.date)

end Build

end BorrowChecker
