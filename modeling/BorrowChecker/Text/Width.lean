import BorrowChecker.Text.Width.Table

/-!
The columns a text takes on a terminal. A text is cut into clusters, which a reader sees as one
character each; a cluster is as wide as its first code point that has a width.
-/

namespace BorrowChecker

inductive Joining where
  | plain
  | carriageReturn
  | lineFeed
  | control
  | prepend
  | extend
  | joiner
  | spacing
  | regional
  | pictograph
  | leading
  | vowel
  | trailing
  | syllable
  | closedSyllable
deriving DecidableEq, Repr

namespace CodePoint

def joining (c : Nat) : Joining :=
  if c < 0x20 then if c = 13 then .carriageReturn else if c = 10 then .lineFeed else .control
  else if c < 0x7F then .plain
  else if c = 0x200D then .joiner
  else if 0xAC00 ≤ c ∧ c ≤ 0xD7A3 then
    if (c - 0xAC00) % 28 = 0 then .syllable else .closedSyllable
  else if (0x1100 ≤ c ∧ c ≤ 0x115F) ∨ (0xA960 ≤ c ∧ c ≤ 0xA97C) then .leading
  else if (0x1160 ≤ c ∧ c ≤ 0x11A7) ∨ (0xD7B0 ≤ c ∧ c ≤ 0xD7C6) then .vowel
  else if (0x11A8 ≤ c ∧ c ≤ 0x11FF) ∨ (0xD7CB ≤ c ∧ c ≤ 0xD7FB) then .trailing
  else if 0x1F1E6 ≤ c ∧ c ≤ 0x1F1FF then .regional
  else if within controlTable c then .control
  else if within extendTable c then .extend
  else if within spacingTable c then .spacing
  else if within prependTable c then .prepend
  else if within pictographTable c then .pictograph
  else .plain

def width (c : Nat) : Nat :=
  if c < 0x20 then 0
  else if (0x7F ≤ c ∧ c ≤ 0x9F) ∨ c = 0xAD then 0
  else if c < 0x300 then 1
  else if within hiddenTable c || within combiningTable c then 0
  else if within wideTable c then 2
  else 1

end CodePoint

structure ClusterState where
  last : Joining
  /-- It ends with a pictograph and marks after it. -/
  pictograph : Bool := false
  /-- It ends with such a pictograph and a joiner. -/
  joined : Bool := false
  /-- It ends with a regional indicator that has no partner yet. -/
  single : Bool := false
deriving DecidableEq, Repr

namespace ClusterState

def start (j : Joining) : ClusterState :=
  { last := j, pictograph := j = .pictograph, single := j = .regional }

def goesOn (s : ClusterState) (next : Joining) : Bool :=
  match s.last, next with
  | .carriageReturn, .lineFeed => true
  | .carriageReturn, _ | .lineFeed, _ | .control, _ => false
  | _, .carriageReturn | _, .lineFeed | _, .control => false
  | _, .extend | _, .joiner | _, .spacing => true
  | .prepend, _ => true
  | .leading, .leading | .leading, .vowel | .leading, .syllable | .leading, .closedSyllable => true
  | .syllable, .vowel | .syllable, .trailing | .vowel, .vowel | .vowel, .trailing => true
  | .closedSyllable, .trailing | .trailing, .trailing => true
  | _, .pictograph => s.joined
  | _, .regional => s.single
  | _, _ => false

def advance (s : ClusterState) (next : Joining) : ClusterState :=
  { last := next
    pictograph := next = .pictograph || (next = .extend && s.pictograph)
    joined := next = .joiner && s.pictograph
    single := next = .regional && !s.single }

end ClusterState

namespace Text

/-- The clusters of code points after a cluster that has begun, whose code points stand reversed. -/
def clustersAfter (state : ClusterState) (cluster : List CodePoint) :
    List CodePoint → List (List CodePoint)
  | [] => [cluster.reverse]
  | c :: rest =>
    let next := CodePoint.joining c.value
    if state.goesOn next then clustersAfter (state.advance next) (c :: cluster) rest
    else cluster.reverse :: clustersAfter (.start next) [c] rest

def clusters (text : Text) : List (List CodePoint) :=
  match text.codePoints with
  | [] => []
  | c :: rest => clustersAfter (.start (CodePoint.joining c.value)) [c] rest

/-- The width of the first code point that has one. -/
def clusterWidth (cluster : List CodePoint) : Nat :=
  ((cluster.map fun c => CodePoint.width c.value).find? fun w => w != 0).getD 0

def width (text : Text) : Nat := text.clusters.foldl (fun n c => n + clusterWidth c) 0

def fillRight (columns : Nat) (text : Text) : Text :=
  text ++ List.replicate (columns - text.width) 32

def fitting (columns : Int) : List (List CodePoint) → List (List CodePoint)
  | [] => []
  | cluster :: rest =>
    if columns < clusterWidth cluster then []
    else cluster :: fitting (columns - clusterWidth cluster) rest

def shorten (columns : Int) (tail text : Text) : Text :=
  if text.width ≤ columns then text
  else (fitting (columns - tail.width) text.clusters).flatMap ofCodePoints ++ tail

end Text

end BorrowChecker
