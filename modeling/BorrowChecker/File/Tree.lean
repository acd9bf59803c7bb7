import BorrowChecker.File.Host

/-!
A tree of files as a value. A place in a tree is the list of the names that lead to it from the root.
-/

namespace BorrowChecker

inductive Tree where
  | file (data : Text)
  | directory (entries : List (Text × Tree))
deriving Repr

namespace Tree

def find? : Tree → List Text → Option Tree
  | t, [] => some t
  | file _, _ :: _ => none
  | directory entries, name :: rest => (entries.lookup name).bind fun t => t.find? rest

def setEntry (name : Text) (t : Option Tree) (entries : List (Text × Tree)) : List (Text × Tree) :=
  match t with
  | none => entries.filter fun e => e.1 != name
  | some t =>
    if (entries.lookup name).isSome then entries.map fun e => if e.1 == name then (name, t) else e
    else entries ++ [(name, t)]

/-- Puts a tree, or none, at a place. Nothing changes when no directory leads there. -/
def set (new : Option Tree) : Tree → List Text → Tree
  | t, [] => new.getD t
  | file data, _ :: _ => file data
  | directory entries, [name] => directory (setEntry name new entries)
  | directory entries, name :: next :: rest =>
    match entries.lookup name with
    | none => directory entries
    | some t => directory (setEntry name (some (t.set new (next :: rest))) entries)

mutual

def files : Tree → List Text
  | file _ => []
  | directory entries => filesOf entries

def filesOf : List (Text × Tree) → List Text
  | [] => []
  | (name, file _) :: rest => name :: filesOf rest
  | (name, directory entries) :: rest =>
    (files (directory entries)).map (fun path => name ++ "/" ++ path) ++ filesOf rest

end

def longestName : Nat := 255

/-- Follows the elements of a path from a place. Whatever is left behind has to be a directory; what
the last element leads to need not be there. -/
def follow (t : Tree) (place : List Text) : List Text → Except FileCause (List Text)
  | [] => .ok place
  | element :: rest =>
    match t.find? place with
    | none => .error .missing
    | some (file _) => .error .notDirectory
    | some (directory _) =>
      if longestName < element.length then .error .nameTooLong
      else if element.isEmpty ∨ element = "." then t.follow place rest
      else if element = ".." then t.follow place.dropLast rest
      else t.follow (place ++ [element]) rest

def resolve (t : Tree) (start : List Text) (path : Text) : Except FileCause (List Text) :=
  if path.isEmpty then .error .missing
  else if path.contains 0 then .error .invalid
  else t.follow (if Path.isRooted path then [] else start) (path.splitOnByte Path.slash)

end Tree

end BorrowChecker
