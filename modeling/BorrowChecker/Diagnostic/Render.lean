import BorrowChecker.Diagnostic.Bag
import BorrowChecker.Text.Json
import BorrowChecker.Text.Width

/-!
The three written forms of a bag: a paragraph for every diagnostic, one line for each, or one JSON
document.
-/

namespace BorrowChecker

structure Style where
  on : Text
  off : Text
deriving DecidableEq, Repr

namespace Style

def escape (codes : Text) : Text := 27 :: 91 :: (codes ++ "m")

def boldColor (code : Text) : Style := ⟨escape (code ++ ";1"), escape "0;22"⟩

def bold : Style := ⟨escape "1", escape "22"⟩

def faint : Style := ⟨escape "2", escape "22"⟩

def red : Style := boldColor "31"
def green : Style := boldColor "32"
def yellow : Style := boldColor "33"
def blue : Style := boldColor "34"
def cyan : Style := boldColor "36"

def apply (s : Style) (wanted : Bool) (text : Text) : Text :=
  if wanted then s.on ++ text ++ s.off else text

def ofSeverity (s : Severity) : Style :=
  if s = .error then red else if s = .warning then yellow else cyan

end Style

inductive Layout where
  | pretty
  | short
  | json
deriving DecidableEq, Repr

namespace Layout

def print : Layout → Text
  | pretty => "pretty"
  | short => "short"
  | json => "json"

def ofName? (name : Text) : Option Layout :=
  [pretty, short, json].find? fun l => l.print == name

end Layout

structure RenderOptions where
  layout : Layout := .pretty
  color : Bool := false
  notes : Bool := false
  body : Bool := false
  source : Text := []
  /-- How many diagnostics a document shows; zero or less is all. -/
  shown : Int := 0
deriving DecidableEq, Repr

namespace Bag

def prettyNote (o : RenderOptions) (n : Note) : Text :=
  "  " ++ Style.blue.apply o.color "-->" ++ " " ++ n.label ++ " " ++ n.pos.print ++ "\n"

def whereabouts (o : RenderOptions) (body : Text) : Text :=
  Text.guarded (o.source.isEmpty) ("in body `" ++ body ++ "`") ++
    Text.guarded (!o.source.isEmpty) ("in " ++ o.source ++ ", body `" ++ body ++ "`")

def prettyItem (o : RenderOptions) (d : Diagnostic) : Text :=
  (Style.ofSeverity d.severity).apply o.color (d.severity.word ++ "[" ++ d.code.id ++ "]") ++ ": " ++
    Style.bold.apply o.color d.message ++ "\n" ++
    Text.guarded o.notes (d.notes.flatMap (prettyNote o)) ++
    Text.guarded (o.body && !d.primary.body.isEmpty)
      ("  " ++ Style.blue.apply o.color "=" ++ " " ++
        Style.faint.apply o.color (whereabouts o d.primary.body) ++ "\n")

def pretty (b : Bag) (o : RenderOptions) : Text :=
  Text.joined "\n" (b.items.map (prettyItem o)) ++
    Text.guarded (b.dropped != 0)
      (Style.faint.apply o.color
        ("... " ++ Text.ofNat b.dropped ++ " more diagnostics not shown") ++ "\n")

structure Row where
  severity : Severity
  code : Code
  place : Text
  message : Text
deriving DecidableEq, Repr

def placeOf (p : Pos) : Text := p.body ++ "@" ++ p.print

def rows (o : RenderOptions) (d : Diagnostic) : List Row :=
  ⟨d.severity, d.code, placeOf d.primary, d.message⟩ ::
    if o.notes then d.notes.map fun n => ⟨.note, d.code, placeOf n.pos, n.label⟩ else []

def printRow (o : RenderOptions) (columns : Nat) (r : Row) : Text :=
  (Style.ofSeverity r.severity).apply o.color r.severity.word ++ " " ++ r.code.id ++ " " ++
    Text.fillRight columns r.place ++ "  " ++ r.message ++ "\n"

def short (b : Bag) (o : RenderOptions) : Text :=
  let lines := b.items.flatMap (rows o)
  let columns := (lines.map fun r => r.place.width).foldl max 0
  lines.flatMap (printRow o columns)

def jsonPos (p : Pos) : Json :=
  .object [Json.member "body" (.string p.body), Json.member "block" (.int p.block),
    Json.member "statement" (.int p.statement)]

def jsonNote (n : Note) : Json :=
  .object [Json.member "message" (.string n.label), Json.member "location" (jsonPos n.pos)]

def jsonItem (o : RenderOptions) (d : Diagnostic) : Json :=
  .object ([Json.member "severity" (.string d.severity.word), Json.member "code" (.string d.code.id),
    Json.member "title" (.string d.code.title), Json.member "message" (.string d.message)] ++
    (if d.primary.isValid then [Json.member "location" (jsonPos d.primary)] else []) ++
    (if o.notes && !d.notes.isEmpty then
      [Json.member "notes" (.array (d.notes.map jsonNote))] else []))

def shownItems (b : Bag) (o : RenderOptions) : List Diagnostic :=
  if 0 < o.shown then b.items.take o.shown.toNat else b.items

/-- How many diagnostics a document leaves out, those the bag turned away included. -/
def hiddenCount (b : Bag) (o : RenderOptions) : Nat :=
  b.dropped + (b.items.length - (b.shownItems o).length)

def json (b : Bag) (o : RenderOptions) : Json :=
  .object (Json.textMember "source" o.source ++
    [Json.member "diagnostics" (.array ((b.shownItems o).map (jsonItem o))),
      Json.member "count" (.int (b.shownItems o).length)] ++
    (if b.hiddenCount o = 0 then [] else [Json.member "dropped" (.int (b.hiddenCount o))]))

def render (b : Bag) (o : RenderOptions) : Text :=
  match o.layout with
  | .pretty => b.pretty o
  | .short => b.short o
  | .json => (b.json o).indented 0 ++ "\n"

end Bag

end BorrowChecker
