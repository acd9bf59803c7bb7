import BorrowChecker.Proofs.ReadingLines

/-!
Printing a tree and reading the text gives the tree back. For a tree that is written in full this is
so exactly when every name in it is an identifier in composed form and no type in it is ambiguous.
-/

namespace BorrowChecker

namespace Source

open Mir Text

/-- A name that reads as itself: one identifier, in composed form. -/
def isName (name : Text) : Bool := isIdentifier name && name.normalize == name

theorem isName_iff {name : Text} : isName name ↔ isIdentifier name ∧ name.normalize = name := by
  simp [isName]

section Lines

variable {α : Type} {names : List Text} {text : Text} {words : List Word}

/-- The tokens of a printed text. -/
theorem lex_of_lexes (lexes : Lexes names true text words)
    (idents : ∀ name ∈ names, isIdentifier name) :
    ∃ tokens pos, lex text = .ok tokens ∧ Spells words tokens [⟨.eof, [], pos⟩] := by
  have apart : Apart [] := by simp [Apart]
  obtain ⟨front, next, spelled, lexed⟩ := lexes.splits idents 0 [] fun _ => apart
  have ended : lexFrom next [] = .ok [⟨.eof, [], next⟩] := by rw [lexFrom]
  rw [List.append_nil, ended] at lexed
  exact ⟨_, next, lexed, front, spelled, rfl⟩

theorem lex_refused (lexes : Lexes names true text words)
    (coarse : ¬ ∀ name ∈ names, isIdentifier name) : ∃ fault, lex text = .error fault := by
  have apart : Apart [] := by simp [Apart]
  obtain ⟨fault, failed⟩ := lexes.refuses coarse 0 [] fun _ => apart
  rw [List.append_nil] at failed
  exact ⟨fault, failed⟩

/-- What is needed for one reader: that it takes the words of a clear tree, and when composing the
names of the tree changes nothing. -/
theorem parseLine_print_iff {take : (tokens : List Token) → Take α tokens} {value composed : α}
    {clear : Bool} (lexes : Lexes names true text words)
    (reads : (∀ name ∈ names, isIdentifier name) → ∀ tokens pos,
      Spells words tokens [⟨.eof, [], pos⟩] →
      taken? (take tokens) = if clear then some (composed, [⟨.eof, [], pos⟩]) else none)
    (same : composed = value ↔ ∀ name ∈ names, name.normalize = name) :
    parseLine take text = .ok value ↔ (∀ name ∈ names, isName name) ∧ clear := by
  rw [parseLine_ok_iff]
  by_cases idents : ∀ name ∈ names, isIdentifier name
  · obtain ⟨tokens, pos, lexed, spells⟩ := lex_of_lexes lexes idents
    have read := reads idents tokens pos spells
    have named : (∀ name ∈ names, isName name) ↔ composed = value := by
      rw [same]
      exact forall₂_congr fun name member => by simp [isName_iff, idents name member]
    rw [named]
    constructor
    · rintro ⟨tokens', left, lexed', taken, _⟩
      obtain rfl : tokens = tokens' := Except.ok.inj (lexed.symm.trans lexed')
      rw [read] at taken
      split at taken
      · rename_i fine
        exact ⟨(Prod.mk.inj (Option.some.inj taken)).1, fine⟩
      · exact absurd taken (by simp)
    · rintro ⟨rfl, fine⟩
      exact ⟨tokens, _, lexed, by rw [read, if_pos fine], rfl⟩
  · obtain ⟨fault, failed⟩ := lex_refused lexes idents
    constructor
    · rintro ⟨tokens, left, lexed, _⟩
      exact absurd (failed.symm.trans lexed) (by simp)
    · rintro ⟨fine, _⟩
      exact absurd (fun name member => (isName_iff.mp (fine name member)).1) idents

end Lines

/-- Nothing follows a line. -/
theorem taken?_takeType_end (pos : Nat) : taken? (takeType [⟨.eof, [], pos⟩]) = none :=
  taken?_takeType_refused (by decide) (by decide)

theorem parseType_print_iff {t : Ty} (canonical : t.Canonical)
    (wordlike : ∀ name ∈ t.names, IsWordlike name) :
    parseType t.print = .ok t ↔ (∀ name ∈ t.names, isName name) ∧ t.isClear := by
  refine parseLine_print_iff (lexes_type canonical wordlike) ?_ (Ty.composed_eq_iff canonical)
  intro idents tokens pos spells
  exact readsType canonical idents tokens _ spells (.inr (taken?_takeType_end pos))

theorem RValue.composed_eq_iff {value : RValue} (canonical : value.Canonical) :
    value.composed = value ↔ ∀ name ∈ value.names, name.normalize = name := by
  cases value with
  | aggregate head elems =>
      cases head <;> simp [RValue.composed, AggregateHead.composed, RValue.names, AggregateHead.names]
  | cast value target =>
      simpa [RValue.composed, RValue.names] using Ty.composed_eq_iff canonical.2
  | use | ref | binary | unary | len | discriminant | unknown =>
      simp [RValue.composed, RValue.names]

theorem parseStatement_print_iff {s : Statement} (canonical : s.Canonical)
    (wordlike : ∀ name ∈ s.names, IsWordlike name) :
    parseStatement s.print = .ok s ↔ (∀ name ∈ s.names, isName name) ∧ s.isClear := by
  have same : s.composed = s ↔ ∀ name ∈ s.names, name.normalize = name := by
    cases s with
    | assign dst src =>
        simpa [Statement.composed, Statement.names] using RValue.composed_eq_iff canonical.2
    | drop | nop | unknown => simp [Statement.composed, Statement.names]
  refine parseLine_print_iff (lexes_statement canonical wordlike) ?_ same
  intro idents tokens pos spells
  exact reads_statement canonical idents spells (taken?_takeType_end pos)

theorem parseTerminator_print_iff {t : Terminator} (canonical : t.Canonical)
    (wordlike : ∀ name ∈ t.names, IsWordlike name) :
    parseTerminator noLabels t.print = .ok t ↔ ∀ name ∈ t.names, isName name := by
  have same : t.composed = t ↔ ∀ name ∈ t.names, name.normalize = name := by
    cases t with
    | call func args dst target => simp [Terminator.composed, Terminator.names]
    | _ => simp [Terminator.composed, Terminator.names]
  have line : parseTerminator noLabels t.print = .ok t ↔
      (∀ name ∈ t.names, isName name) ∧ true = true := by
    refine parseLine_print_iff (lexes_terminator canonical wordlike) ?_ same
    intro idents tokens pos spells
    exact reads_terminator canonical idents spells
  simpa using line

theorem wordlike_of_isName {names : List Text} (fine : ∀ name ∈ names, isName name) :
    ∀ name ∈ names, IsWordlike name := fun name member =>
  wordlike_of_isIdentifier (isName_iff.mp (fine name member)).1

/-- Reading inverts printing on every type, statement and terminator that is written in full. -/
theorem parse_print :
    (∀ t : Ty, t.Canonical → (∀ name ∈ t.names, isName name) → t.isClear →
      parseType t.print = .ok t) ∧
    (∀ s : Statement, s.Canonical → (∀ name ∈ s.names, isName name) → s.isClear →
      parseStatement s.print = .ok s) ∧
    (∀ t : Terminator, t.Canonical → (∀ name ∈ t.names, isName name) →
      parseTerminator noLabels t.print = .ok t) := by
  refine ⟨?_, ?_, ?_⟩
  · intro t canonical fine clear
    exact (parseType_print_iff canonical (wordlike_of_isName fine)).mpr ⟨fine, clear⟩
  · intro s canonical fine clear
    exact (parseStatement_print_iff canonical (wordlike_of_isName fine)).mpr ⟨fine, clear⟩
  · intro t canonical fine
    exact (parseTerminator_print_iff canonical (wordlike_of_isName fine)).mpr fine

/-- `&'a mut fn((enum Tree,), [*u8]) -> &mut mut`. -/
def nestedType : Ty :=
  .refWithLifetime "a" (.functionOf [.tupleOf [.enumNamed "Tree"], .arrayOf (.pointerTo (.scalar .u8))]
    (.refTo (.structNamed "mut") true)) true

/-- `_1 = cast const "\"\xff" as &'a mut ...`. -/
def nestedStatement : Statement := .assign 1 (.cast (.const (.str [34, 255])) nestedType)

/-- `_0 = return(const -7, const 0.1) -> bb3`. -/
def nestedTerminator : Terminator :=
  .call "return" [.const (.int (-7)), .const (.float ⟨0x3FB999999999999A⟩)] (some 0) 3

theorem canonical_nestedType : nestedType.Canonical := by
  refine .refWithLifetime true (by decide) (.function ?_ (.ref true (.struct ?_ ?_ ?_)))
  · simp only [List.mem_cons, List.not_mem_nil, or_false, forall_eq_or_imp, forall_eq]
    exact ⟨.tuple (by simp) (by simpa using .enum _), .array (.pointer (.scalar rfl))⟩
  · decide
  · decide
  · decide

theorem names_nestedType : ∀ name ∈ nestedType.names, isName name := by
  simp only [nestedType, Ty.names_refWithLifetime, Ty.names_functionOf]
  decide

theorem canonical_nestedStatement : nestedStatement.Canonical :=
  ⟨by decide, trivial, canonical_nestedType⟩

theorem canonical_nestedTerminator : nestedTerminator.Canonical := by
  refine ⟨?_, ?_, by simp, by decide⟩
  · simp only [List.mem_cons, List.not_mem_nil, or_false, forall_eq_or_imp, forall_eq]
    exact ⟨trivial, show Double.IsFinite _ by decide⟩
  · simp only [Option.mem_some_iff, forall_eq']
    decide

theorem parse_print_nested :
    parseType nestedType.print = .ok nestedType ∧
    parseStatement nestedStatement.print = .ok nestedStatement ∧
    parseTerminator noLabels nestedTerminator.print = .ok nestedTerminator :=
  ⟨parse_print.1 nestedType canonical_nestedType names_nestedType (by decide),
    parse_print.2.1 nestedStatement canonical_nestedStatement names_nestedType (by decide),
    parse_print.2.2 nestedTerminator canonical_nestedTerminator (by decide)⟩

/-- A terminator that is missing is printed as something that no reader accepts. -/
theorem missing_not_read_back : parseTerminator noLabels Terminator.missing.print ≠ .ok .missing := by
  have text : Terminator.missing.print = 60 :: Text.ofString "unterminated>" := by decide
  have failed : lex Terminator.missing.print = .error (.unexpectedCharacter 0 60) := by
    rw [lex, text, codePoints_ascii_cons (by decide)]
    exact lexFrom_of_fault (by decide) rfl
  rw [parseTerminator, parseLine, failed]
  simp [bind, Except.bind]

end Source

end BorrowChecker
