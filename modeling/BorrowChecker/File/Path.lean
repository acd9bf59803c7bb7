import BorrowChecker.Text.Basic

/-!
Slash-separated paths.
-/

namespace BorrowChecker

namespace Path

def slash : UInt8 := 47

def lastElement (path : Text) : Text := (path.reverse.takeWhile (· != slash)).reverse

def extension (path : Text) : Text :=
  let name := lastElement path
  let ending := (name.reverse.takeWhile (· != 46)).reverse
  if ending.length < name.length then 46 :: ending else []

def base (path : Text) : Text :=
  if path.isEmpty then "."
  else
    let name := lastElement (path.reverse.dropWhile (· == slash)).reverse
    if name.isEmpty then "/" else name

def stem (path : Text) : Text := (Text.cutEnd (extension path) (base path)).getD (base path)

/-- Works off elements one by one: a point changes nothing and two points undo the last element,
which stay in front of a path that is not rooted. The elements so far stand reversed. -/
def reduce (rooted : Bool) : List Text → List Text → List Text
  | done, [] => done.reverse
  | done, element :: rest =>
    if element.isEmpty ∨ element = "." then reduce rooted done rest
    else if element = ".." then
      match done with
      | [] => reduce rooted (if rooted then [] else [".."]) rest
      | last :: before =>
        if last = ".." then reduce rooted (".." :: last :: before) rest else reduce rooted before rest
    else reduce rooted (element :: done) rest

def isRooted (path : Text) : Bool := path.head? == some slash

def clean (path : Text) : Text :=
  let elements := reduce (isRooted path) [] (path.splitOnByte slash)
  if isRooted path then slash :: Text.joined [slash] elements
  else if elements.isEmpty then "."
  else Text.joined [slash] elements

def parent (path : Text) : Text :=
  clean (path.take (path.length - (lastElement path).length))

def join (paths : List Text) : Text :=
  match paths.filter fun p => !p.isEmpty with
  | [] => []
  | present => clean (Text.joined [slash] present)

end Path

end BorrowChecker
