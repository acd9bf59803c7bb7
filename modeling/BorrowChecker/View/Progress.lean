import BorrowChecker.Number.Double
import BorrowChecker.Text.Width
import BorrowChecker.View.Stage

/-!
A live view of a run: a row for every file, followed by rows for its bodies, and a bar.
-/

namespace BorrowChecker

namespace View

/-- What a row is about: a file, or a body of it when that has a name. -/
structure RowKey where
  file : Text
  body : Text := []
deriving DecidableEq, Repr

structure Row where
  file : Text
  body : Text := []
  status : Text := "queued"
  stage : Stage := .other []
  errors : Int := 0
deriving DecidableEq, Repr

namespace Row

def key (r : Row) : RowKey := ⟨r.file, r.body⟩

def fresh (key : RowKey) : Row := { file := key.file, body := key.body }

end Row

abbrev RowIndex := List (RowKey × Nat)

namespace RowIndex

def position? (index : RowIndex) (key : RowKey) : Option Nat := index.lookup key

/-- Enters where a row stands, in place of what was entered for it before. -/
def enter (index : RowIndex) (key : RowKey) (position : Nat) : RowIndex :=
  (key, position) :: index.filter fun entry => entry.1 != key

def enterAll (index : RowIndex) (position : Nat) : List Row → RowIndex
  | [] => index
  | r :: rest => enterAll (index.enter r.key position) (position + 1) rest

end RowIndex

structure Progress where
  title : Text
  rows : List Row := []
  index : RowIndex := []
  ticks : Nat := 0
  width : Int := 80
  barWidth : Int := 76
  isDone : Bool := false
deriving DecidableEq, Repr

def stageLabel : Stage → Text
  | .load => "loading"
  | .validate => "validating"
  | .check => "checking"
  | .report => "reporting"
  | .other _ => []

/-- What a row says after an event; nothing leaves it as it is. -/
def statusLabel (stage : Stage) : Status → Text
  | .queued => "queued"
  | .done => "done"
  | .error => "error"
  | .working => stageLabel stage
  | .other _ => []

namespace Progress

/-- How many rows come before the end of those of a file; all of them when it has none. -/
def endOfFile (file : Text) (rows : List Row) : Nat :=
  let after := rows.reverse.takeWhile fun r => r.file != file
  if after.length = rows.length then rows.length else rows.length - after.length

/-- A new row for a body goes after those of its file, one for a file to the end. -/
def place (rows : List Row) (key : RowKey) : Nat :=
  if key.body.isEmpty then rows.length else endOfFile key.file rows

/-- Puts in a new row. The rows from there on are entered anew, those before it stand as they did. -/
def insert (p : Progress) (key : RowKey) : Progress :=
  let position := place p.rows key
  let moved := Row.fresh key :: p.rows.drop position
  { p with
    rows := p.rows.take position ++ moved
    index := p.index.enterAll position moved }

def ensure (p : Progress) (key : RowKey) : Progress × Nat :=
  match p.index.position? key with
  | some position => (p, position)
  | none => (p.insert key, place p.rows key)

def start (title : Text) (files : List Text) : Progress :=
  files.foldl (fun p file => (p.ensure { file }).1) { title }

def applyTo (e : ProgressEvent) (r : Row) : Row :=
  let label := statusLabel e.stage e.status
  if label.isEmpty then { r with errors := e.errors }
  else { r with status := label, stage := e.stage, errors := e.errors }

def keyOf (e : ProgressEvent) : RowKey := ⟨e.file, e.body⟩

def receive (p : Progress) (e : ProgressEvent) : Progress :=
  let found := p.ensure (keyOf e)
  { found.1 with rows := found.1.rows.modify found.2 (applyTo e) }

/-- A width that is not positive is passed over. -/
def resize (p : Progress) (width : Int) : Progress :=
  if 0 < width then { p with width, barWidth := width - 4 } else p

def tick (p : Progress) : Progress := if p.isDone then p else { p with ticks := p.ticks + 1 }

def finish (p : Progress) : Progress := { p with isDone := true }

def share : Stage → Double
  | .load => .ofQuotient 1 10
  | .validate => .ofQuotient 1 5
  | .check => .ofQuotient 1 2
  | .report => .ofQuotient 9 10
  | .other _ => .ofQuotient 0 1

def rowShare (r : Row) : Double :=
  if r.status = "done" ∨ r.status = "error" then .ofQuotient 1 1 else share r.stage

/-- The mean of the rows, summed up from the first. -/
def percent (p : Progress) : Double :=
  if p.rows.isEmpty then .ofQuotient 0 1
  else (p.rows.foldl (fun (sum : Double) r => sum.add (rowShare r)) (Double.ofQuotient 0 1)).dividedBy
    p.rows.length

/-- A text shortened to so many columns, with dots where there is room for them. -/
def truncate (columns : Int) (text : Text) : Text :=
  if columns ≤ 0 ∨ text.width ≤ columns then text
  else if columns ≤ 3 then Text.shorten columns [] text
  else Text.shorten (columns - 3) "..." text

def frames : List Text :=
  ["⣾ ", "⣽ ", "⣻ ", "⢿ ", "⡿ ", "⣟ ", "⣯ ", "⣷ "]

def widen (b : UInt8) : Text := if b = 9 then "    " else [b]

/-- Lines filled up to the width of the widest; a tab is four blanks and a carriage return before
a line feed is left out. -/
def squared (text : Text) : Text :=
  match (text.splitOnByte 10).map fun line => line.flatMap widen with
  | [] => []
  | [line] => line
  | lines =>
    let ends := lines.take (lines.length - 1)
    let last := lines.drop (lines.length - 1)
    let cut := ends.map (fun line => (Text.cutEnd [13] line).getD line) ++ last
    let columns := (cut.map Text.width).foldl max 0
    Text.joined [10] (cut.map (Text.fillRight columns))

def header (p : Progress) : Text :=
  squared (Text.guarded p.isDone ("done: " ++ p.title) ++
    Text.guarded (!p.isDone) (frames.getD (p.ticks % frames.length) [] ++ " " ++ p.title))

def rowName (p : Progress) (r : Row) : Text :=
  truncate (max 20 (p.width - 18)) (Text.guarded (!r.body.isEmpty) ("  " ++ r.body) ++
    Text.guarded r.body.isEmpty r.file)

def printRow (p : Progress) (r : Row) : Text :=
  "  " ++ Text.padLeft 12 32 r.status ++ " " ++ rowName p r ++
    Text.guarded (0 < r.errors) (" (" ++ Text.ofInt r.errors ++ ")") ++ "\n"

def bar (p : Progress) : Text :=
  Text.repeated (p.barWidth - 5).toNat (if p.isDone then "█" else "░") ++
    if p.isDone then " 100%" else "   0%"

def view (p : Progress) : Text :=
  Text.guarded (!p.rows.isEmpty)
    (p.header ++ "\n\n" ++ p.rows.flatMap (printRow p) ++ "\n" ++ p.bar ++ "\n")

end Progress

end View

end BorrowChecker
