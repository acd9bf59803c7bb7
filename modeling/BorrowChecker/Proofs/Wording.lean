import BorrowChecker.Diagnostic.Render
import BorrowChecker.Ownership.Module
import BorrowChecker.Proofs.Numerals
import BorrowChecker.Proofs.Reports

/-!
What diagnostics say. The words for every kind of violation are listed here, apart from the functions
that write them. Main statements: what is found in a body without flaws is told in these words, under
the name of the body and those of its locals (`tells_diagnostic`), and an object of a document holds
what its diagnostic says (`depicts_jsonItem`).
-/

namespace BorrowChecker

namespace Text

/-- Digits that stand for a number, with zeros before it only to fill up a width. -/
structure Counts (width n : Nat) (digits : Text) : Prop where
  shape : digits.IsDigits
  value : digitsValue digits = n
  wide : width ≤ digits.length
  tight : width < digits.length → digits.head? ≠ some 48

theorem counts_padLeft {width : Nat} (positive : 0 < width) (n : Nat) :
    Counts width n (padLeft width 48 (ofNat n)) where
  shape := (isDigits_ofNat n).padLeft width
  value := by rw [digitsValue_padLeft, digitsValue_ofNat]
  wide := by
    rw [padLeft, List.length_append, List.length_replicate]
    omega
  tight longer := by
    rw [padLeft, List.length_append, List.length_replicate] at longer
    have unfilled : width - (ofNat n).length = 0 := by omega
    rw [padLeft, unfilled, List.replicate_zero, List.nil_append]
    refine head?_ofNat ?_
    rintro rfl
    have single : (ofNat 0).length = 1 := by rw [ofNat]; rfl
    omega

theorem counts_ofNat (n : Nat) : Counts 1 n (ofNat n) := by
  have present : 0 < (ofNat n).length := List.length_pos_iff.mpr (isDigits_ofNat n).present
  have counts := counts_padLeft Nat.one_pos n
  rwa [padLeft, Nat.sub_eq_zero_of_le present, List.replicate_zero, List.nil_append] at counts

end Text

namespace Mir

/-- How a local is called: by the name it is declared with, or by an underscore and its number. -/
inductive Body.Calls (b : Body) : LocalId → Text → Prop where
  | byName {i : Nat} {decl : LocalDecl} (declared : b.locals[i]? = some decl)
      (named : decl.name ≠ []) : Calls b i decl.name
  | byNumber {i : Nat} {decl : LocalDecl} {digits : Text} (declared : b.locals[i]? = some decl)
      (nameless : decl.name = []) (counts : Text.Counts 1 i digits) : Calls b i ("_" ++ digits)

theorem Body.calls_localName {b : Body} {x : Int} (declared : (b.local? x).isSome) :
    b.Calls x (b.localName x) := by
  obtain ⟨decl, found⟩ := Option.isSome_iff_exists.mp declared
  rw [localName, found]
  unfold local? at found
  split at found
  · contradiction
  · rename_i nonneg
    obtain ⟨i, rfl⟩ := Int.eq_ofNat_of_zero_le (Int.not_lt.mp nonneg)
    rw [Int.toNat_natCast] at found
    dsimp only
    split
    · rename_i nameless
      exact .byNumber found (List.isEmpty_iff.mp nameless) (Text.counts_ofNat i)
    · rename_i named
      exact .byName found fun empty => named (List.isEmpty_iff.mpr empty)

end Mir

namespace Ownership

open Mir

/-- The words for violations of a kind: the number of the code, what stands before and after the name
of the local, and what is said of the two locations. -/
structure Wording where
  code : UInt16
  before : Text
  after : Text
  first : Text
  second : Text

def wordings : List (ViolationKind × Wording) :=
  [(.useAfterMove, ⟨100, "use of moved value `", "`", "moved at", "used at"⟩),
    (.doubleFree, ⟨101, "value `", "` dropped twice", "first drop at", "second drop at"⟩),
    (.useAfterFree, ⟨102, "use of freed value `", "`", "freed at", "used at"⟩),
    (.mutableBorrowConflict, ⟨103, "cannot borrow `", "` as mutable more than once",
      "first mutable borrow at", "second mutable borrow at"⟩),
    (.moveWhileBorrowed, ⟨105, "cannot move `", "` while borrowed", "borrowed at", "moved at"⟩)]

inductive Tells (b : Body) (v : Violation) : Diagnostic → Prop where
  | located {w : Wording} {name : Text} (worded : (v.kind, w) ∈ wordings)
      (called : b.Calls v.place name) :
      Tells b v
        { severity := ⟨2⟩
          code := ⟨w.code⟩
          message := w.before ++ name ++ w.after
          primary := ⟨b.name, v.second.block, v.second.statement, true⟩
          notes := [⟨⟨b.name, v.first.block, v.first.statement, true⟩, w.first⟩,
            ⟨⟨b.name, v.second.block, v.second.statement, true⟩, w.second⟩] }
  | lifetime (undeclared : v.kind = .undeclaredLifetime) :
      Tells b v
        { severity := ⟨2⟩
          code := ⟨106⟩
          message := "undeclared lifetime `'" ++ v.lifetime ++ "` in bound `" ++
            ("'" ++ v.bound.name ++ ": '" ++ v.bound.outlives) ++ "`"
          primary := ⟨b.name, 0, 0, false⟩
          notes := [] }

theorem Violation.Explained.known {b : Body} {v : Violation} {first second : Point}
    (explained : v.Explained b first second) (code : UInt8) : v.kind ≠ .unknown code := by
  intro unknown
  rw [Violation.Explained, unknown] at explained
  exact explained

/-- A kind at two locations is worded as listed. -/
theorem tells_located {b : Body} {v : Violation} (located : v.kind ≠ .undeclaredLifetime)
    (known : ∀ code, v.kind ≠ .unknown code) (declared : (b.local? v.place).isSome) :
    Tells b v (v.diagnostic b) := by
  have called := Body.calls_localName declared
  rw [Violation.diagnostic, if_neg located]
  obtain ⟨kind, place, first, second, _, _⟩ := v
  cases kind with
  | useAfterMove => exact .located (List.mem_cons_self ..) called
  | doubleFree => exact .located (.tail _ (.head _)) called
  | useAfterFree => exact .located (.tail _ (.tail _ (.head _))) called
  | mutableBorrowConflict => exact .located (.tail _ (.tail _ (.tail _ (.head _)))) called
  | moveWhileBorrowed => exact .located (.tail _ (.tail _ (.tail _ (.tail _ (.head _))))) called
  | undeclaredLifetime => exact absurd rfl located
  | unknown code => exact absurd rfl (known code)

/-- The diagnostics of a body without flaws tell what was found in it. -/
theorem tells_diagnostic {b : Body} (valid : b.isValid) {v : Violation} (found : v ∈ check b) :
    Tells b v (v.diagnostic b) := by
  by_cases lifetime : v.kind = .undeclaredLifetime
  · rw [Violation.diagnostic, if_pos lifetime, Violation.message, lifetime]
    exact .lifetime lifetime
  · obtain ⟨p, earlier, e, s, occurs, reported⟩ := (mem_check_iff_occurs valid lifetime).mp found
    obtain ⟨first, _, _, explained⟩ := occurs.explained valid (fault_of_found reported)
    exact tells_located lifetime explained.known explained.inBody.1

end Ownership

/-! ## Objects of a document -/

theorem getD_lookup_cons {α : Type} [BEq α] [LawfulBEq α] [DecidableEq α] (key other : α)
    (text default : Text) (rest : List (α × Text)) :
    (((other, text) :: rest).lookup key).getD default =
      if key = other then text else (rest.lookup key).getD default := by
  rw [List.lookup_cons]
  by_cases same : key = other
  · simp [same]
  · rw [if_neg same, beq_false_of_ne same]

def Severity.words : List (UInt8 × Text) := [(0, "note"), (1, "warning"), (2, "error")]

theorem Severity.word_eq (s : Severity) : s.word = (words.lookup s.rank).getD "unknown" := by
  obtain ⟨rank⟩ := s
  simp only [words, getD_lookup_cons, List.lookup_nil, Option.getD_none, word, note, warning, error,
    Severity.mk.injEq]

def Code.titles : List (UInt16 × Text) :=
  [(100, "use of moved value"), (101, "value dropped twice"), (102, "use of freed value"),
    (103, "conflicting borrows"), (105, "move out of borrowed value"),
    (106, "undeclared lifetime in bound"), (200, "malformed MIR body"),
    (201, "cannot load MIR module")]

theorem Code.title_eq (c : Code) : c.title = (titles.lookup c.number).getD "Unknown error" := by
  obtain ⟨number⟩ := c
  simp only [titles, getD_lookup_cons, List.lookup_nil, Option.getD_none, title, useAfterMove,
    doubleFree, useAfterFree, mutableConflict, moveWhileBorrowed, undeclaredLifetime, invalidBody,
    loadFailed, Code.mk.injEq]

namespace Json

def member? (name : Text) : Json → Option Json
  | .object members => members.lookup name
  | _ => none

def names : Json → List Text
  | .object members => members.map Prod.fst
  | _ => []

structure Locates (p : Pos) (object : Json) : Prop where
  body : object.member? "body" = some (.string p.body)
  block : object.member? "block" = some (.int p.block)
  statement : object.member? "statement" = some (.int p.statement)
  only : object.names ⊆ ["body", "block", "statement"]

structure Annotates (n : Note) (object : Json) : Prop where
  message : object.member? "message" = some (.string n.label)
  location : ∃ place, object.member? "location" = some place ∧ Locates n.pos place
  only : object.names ⊆ ["message", "location"]

/-- An object holds a diagnostic: its severity, its code and the title of that, and its message in
words, its position if that is valid, and its notes if they are wanted. -/
structure Depicts (o : RenderOptions) (d : Diagnostic) (object : Json) : Prop where
  severity : object.member? "severity" =
    some (.string ((Severity.words.lookup d.severity.rank).getD "unknown"))
  code : ∃ digits, Text.Counts 3 d.code.number.toNat digits ∧
    object.member? "code" = some (.string ("E" ++ digits))
  title : object.member? "title" =
    some (.string ((Code.titles.lookup d.code.number).getD "Unknown error"))
  message : object.member? "message" = some (.string d.message)
  location : d.primary.isValid → ∃ place, object.member? "location" = some place ∧
    Locates d.primary place
  nowhere : ¬ d.primary.isValid → object.member? "location" = none
  notes : o.notes → d.notes ≠ [] → ∃ objects, object.member? "notes" = some (.array objects) ∧
    List.Forall₂ Annotates d.notes objects
  silent : ¬ (o.notes ∧ d.notes ≠ []) → object.member? "notes" = none
  only : object.names ⊆ ["severity", "code", "title", "message", "location", "notes"]

theorem locates_jsonPos (p : Pos) : Locates p (Bag.jsonPos p) :=
  ⟨rfl, rfl, rfl, List.Subset.refl _⟩

theorem annotates_jsonNote (n : Note) : Annotates n (Bag.jsonNote n) :=
  ⟨rfl, ⟨_, rfl, locates_jsonPos n.pos⟩, List.Subset.refl _⟩

theorem depicts_jsonItem (o : RenderOptions) (d : Diagnostic) :
    Depicts o d (Bag.jsonItem o d) where
  severity := by
    rw [← Severity.word_eq]
    rfl
  code := ⟨_, Text.counts_padLeft (by decide) _, rfl⟩
  title := by
    rw [← Code.title_eq]
    rfl
  message := rfl
  location valid := by
    refine ⟨_, ?_, locates_jsonPos d.primary⟩
    rw [Bag.jsonItem, if_pos valid]
    rfl
  nowhere invalid := by
    rw [Bag.jsonItem, if_neg invalid]
    split <;> rfl
  notes wanted present := by
    refine ⟨d.notes.map Bag.jsonNote, ?_, ?_⟩
    · have shown : (o.notes && !d.notes.isEmpty) = true := by simp [wanted, present]
      rw [Bag.jsonItem, if_pos shown]
      split <;> rfl
    · rw [List.forall₂_map_right_iff, List.forall₂_same]
      exact fun n _ => annotates_jsonNote n
  silent unwanted := by
    have hidden : ¬ (o.notes && !d.notes.isEmpty) = true := by simpa using unwanted
    rw [Bag.jsonItem, if_neg hidden]
    split <;> rfl
  only := by
    rw [Bag.jsonItem]
    split <;> split <;> simp [names, member]

end Json

end BorrowChecker
