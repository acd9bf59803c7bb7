import BorrowChecker.Proofs.Lines
import BorrowChecker.Proofs.Taking

/-!
Reading the words of a tree gives the tree back, its names in composed form. One tree in a way does
not read back: a shared reference to a struct called `mut` is written like a mutable reference whose
target is missing.
-/

namespace BorrowChecker

open Source

namespace Mir

namespace Ty

def isMutStruct (t : Ty) : Bool := t.shape = .struct && t.name == ("mut" : Text)

mutual

/-- No shared reference is to a struct called `mut`. -/
def isClear : Ty → Bool
  | ⟨shape, _, _, elem, elems, params, result⟩ =>
    !((shape == .ref || shape == .refLifetime) && elem.any isMutStruct) && isClearOption elem &&
      isClearAll elems && isClearAll params && isClearOption result

def isClearOption : Option Ty → Bool
  | none => true
  | some t => t.isClear

def isClearAll : List Ty → Bool
  | [] => true
  | t :: ts => t.isClear && isClearAll ts

end

mutual

def composed : Ty → Ty
  | ⟨shape, name, lifetime, elem, elems, params, result⟩ =>
    ⟨shape, if shape = .struct ∨ shape = .enum then name.normalize else name, lifetime,
      composedOption elem, composedAll elems, composedAll params, composedOption result⟩

def composedOption : Option Ty → Option Ty
  | none => none
  | some t => some t.composed

def composedAll : List Ty → List Ty
  | [] => []
  | t :: ts => t.composed :: composedAll ts

end

theorem isClearAll_eq (ts : List Ty) : isClearAll ts = ts.all isClear := by
  induction ts with
  | nil => simp [isClearAll]
  | cons t rest ih => simp [isClearAll, ih]

theorem composedAll_eq (ts : List Ty) : composedAll ts = ts.map composed := by
  induction ts with
  | nil => simp [composedAll]
  | cons t rest ih => simp [composedAll, ih]

section Shapes

variable (t : Ty) (ts : List Ty) (isMut : Bool) (name : Text)

theorem isClear_mk (shape : Shape) (lifetime : Text) (elem : Option Ty) (elems params : List Ty)
    (result : Option Ty) : isClear ⟨shape, name, lifetime, elem, elems, params, result⟩ =
      (!((shape == .ref || shape == .refLifetime) && elem.any isMutStruct) && elem.all isClear &&
        elems.all isClear && params.all isClear && result.all isClear) := by
  cases elem <;> cases result <;> simp [isClear, isClearOption, isClearAll_eq]

@[simp] theorem isClear_pointerTo : (pointerTo t).isClear = t.isClear := by
  simp [pointerTo, isClear_mk]

@[simp] theorem isClear_refTo : (refTo t isMut).isClear = ((isMut || !t.isMutStruct) && t.isClear) := by
  cases isMut <;> simp [refTo, isClear_mk]

@[simp] theorem isClear_refWithLifetime :
    (refWithLifetime name t isMut).isClear = ((isMut || !t.isMutStruct) && t.isClear) := by
  cases isMut <;> simp [refWithLifetime, isClear_mk]

@[simp] theorem isClear_arrayOf : (arrayOf t).isClear = t.isClear := by
  simp [arrayOf, isClear_mk]

@[simp] theorem isClear_tupleOf : (tupleOf ts).isClear = ts.all isClear := by
  simp [tupleOf, isClear_mk]

@[simp] theorem isClear_structNamed : (structNamed name).isClear = true := by
  simp [structNamed, isClear_mk]

@[simp] theorem isClear_enumNamed : (enumNamed name).isClear = true := by
  simp [enumNamed, isClear_mk]

@[simp] theorem isClear_functionOf :
    (functionOf ts t).isClear = (ts.all isClear && t.isClear) := by
  simp [functionOf, isClear_mk]

@[simp] theorem isClear_scalar (s : Shape) : (scalar s).isClear = true := by
  simp [scalar, isClear_mk]

theorem composed_mk (shape : Shape) (lifetime : Text) (elem : Option Ty) (elems params : List Ty)
    (result : Option Ty) : composed ⟨shape, name, lifetime, elem, elems, params, result⟩ =
      ⟨shape, if shape = .struct ∨ shape = .enum then name.normalize else name, lifetime,
        elem.map composed, elems.map composed, params.map composed, result.map composed⟩ := by
  cases elem <;> cases result <;> simp [composed, composedOption, composedAll_eq]

@[simp] theorem composed_pointerTo : (pointerTo t).composed = pointerTo t.composed := by
  simp [pointerTo, composed_mk]

@[simp] theorem composed_refTo : (refTo t isMut).composed = refTo t.composed isMut := by
  cases isMut <;> simp [refTo, composed_mk]

@[simp] theorem composed_refWithLifetime :
    (refWithLifetime name t isMut).composed = refWithLifetime name t.composed isMut := by
  cases isMut <;> simp [refWithLifetime, composed_mk]

@[simp] theorem composed_arrayOf : (arrayOf t).composed = arrayOf t.composed := by
  simp [arrayOf, composed_mk]

@[simp] theorem composed_tupleOf : (tupleOf ts).composed = tupleOf (ts.map composed) := by
  simp [tupleOf, composed_mk]

@[simp] theorem composed_structNamed :
    (structNamed name).composed = structNamed name.normalize := by
  simp [structNamed, composed_mk]

@[simp] theorem composed_enumNamed : (enumNamed name).composed = enumNamed name.normalize := by
  simp [enumNamed, composed_mk]

@[simp] theorem composed_functionOf :
    (functionOf ts t).composed = functionOf (ts.map composed) t.composed := by
  simp [functionOf, composed_mk]

@[simp] theorem composed_scalar (s : Shape) : (scalar s).composed = scalar s := by
  have empty : Text.normalize [] = [] := rfl
  simp [scalar, composed_mk, empty]

theorem spell_pointerTo : (pointerTo t).spell = symbol "*" :: t.spell := rfl

theorem spell_refTo : (refTo t isMut).spell =
    symbol "&" :: ((if isMut then [named "mut"] else []) ++ t.spell) := by
  cases isMut <;> rfl

theorem spell_refWithLifetime : (refWithLifetime name t isMut).spell =
    symbol "&" :: (.lifetime, name) :: ((if isMut then [named "mut"] else []) ++ t.spell) := by
  cases isMut <;> rfl

theorem spell_arrayOf : (arrayOf t).spell = symbol "[" :: (t.spell ++ [symbol "]"]) := rfl

theorem spell_tupleOf : (tupleOf ts).spell = symbol "(" :: (separated (ts.map spell) ++
    ((if ts.length = 1 then [symbol ","] else []) ++ [symbol ")"])) := by
  rw [← spellAll_eq]
  rfl

theorem spell_structNamed : (structNamed name).spell = [named name] := rfl

theorem spell_enumNamed : (enumNamed name).spell = [named "enum", named name] := rfl

theorem spell_functionOf : (functionOf ts t).spell =
    named "fn" :: symbol "(" :: (separated (ts.map spell) ++
      (symbol ")" :: symbol "->" :: t.spell)) := by
  rw [← spellAll_eq]
  rfl

end Shapes

/-- A type is in composed form when its names are. -/
theorem composed_eq_iff {t : Ty} (canonical : t.Canonical) :
    t.composed = t ↔ ∀ name ∈ t.names, name.normalize = name := by
  have each : ∀ {ts : List Ty}, (∀ t ∈ ts, t.composed = t ↔ ∀ name ∈ t.names, name.normalize = name) →
      (ts.map composed = ts ↔ ∀ t ∈ ts, ∀ name ∈ t.names, name.normalize = name) := by
    intro ts each
    induction ts with
    | nil => simp
    | cons t rest ih =>
        rw [List.map_cons, List.cons.injEq, each t (List.mem_cons_self ..),
          ih fun u member => each u (List.mem_cons_of_mem t member), List.forall_mem_cons]
  induction canonical with
  | scalar isNamed => simp [names_scalar isNamed]
  | pointer _ ih =>
      rw [composed_pointerTo, names_pointerTo]
      exact Iff.trans (by simp [pointerTo]) ih
  | ref isMut _ ih =>
      rw [composed_refTo, names_refTo]
      exact Iff.trans (by simp [refTo]) ih
  | refWithLifetime isMut _ _ ih =>
      rw [composed_refWithLifetime, names_refWithLifetime]
      exact Iff.trans (by simp [refWithLifetime]) ih
  | array _ ih =>
      rw [composed_arrayOf, names_arrayOf]
      exact Iff.trans (by simp [arrayOf]) ih
  | tuple _ _ ih =>
      rw [composed_tupleOf, names_tupleOf]
      simp only [tupleOf, Ty.mk.injEq, true_and, and_true, each ih, List.mem_flatMap]
      grind
  | struct =>
      rw [composed_structNamed, names_structNamed]
      simp [structNamed]
  | enum =>
      rw [composed_enumNamed, names_enumNamed]
      simp [enumNamed]
  | function _ _ ih ihResult =>
      rw [composed_functionOf, names_functionOf]
      simp only [functionOf, Ty.mk.injEq, true_and, Option.some.injEq, each ih, ihResult,
        List.mem_append, List.mem_flatMap]
      grind

end Ty

end Mir

namespace Source

open Mir Text

def Spells (words : List Word) (tokens rest : List Token) : Prop :=
  ∃ front, front.map Token.word = words ∧ tokens = front ++ rest

section Spells

variable {words more : List Word} {tokens rest : List Token} {kind : TokenKind} {text : Text}

theorem spells_nil : Spells [] tokens rest ↔ tokens = rest := by
  constructor
  · rintro ⟨front, spelled, rfl⟩
    rw [List.map_eq_nil_iff.mp spelled, List.nil_append]
  · rintro rfl
    exact ⟨[], rfl, rfl⟩

theorem spells_cons : Spells ((kind, text) :: words) tokens rest ↔
    ∃ pos tail, tokens = ⟨kind, text, pos⟩ :: tail ∧ Spells words tail rest := by
  constructor
  · rintro ⟨front, spelled, rfl⟩
    obtain ⟨t, back, rfl, word, others⟩ := List.map_eq_cons_iff.mp spelled
    obtain ⟨rfl, rfl⟩ := Prod.mk.inj word
    exact ⟨t.pos, back ++ rest, rfl, back, others, rfl⟩
  · rintro ⟨pos, tail, rfl, front, spelled, rfl⟩
    exact ⟨⟨kind, text, pos⟩ :: front, by rw [List.map_cons, spelled]; rfl, rfl⟩

theorem spells_symbol : Spells (symbol text :: words) tokens rest ↔
    ∃ pos tail, tokens = ⟨.punct, text, pos⟩ :: tail ∧ Spells words tail rest := spells_cons

theorem spells_named : Spells (named text :: words) tokens rest ↔
    ∃ pos tail, tokens = ⟨.ident, text, pos⟩ :: tail ∧ Spells words tail rest := spells_cons

theorem spells_append : Spells (words ++ more) tokens rest ↔
    ∃ middle, Spells words tokens middle ∧ Spells more middle rest := by
  constructor
  · rintro ⟨front, spelled, rfl⟩
    obtain ⟨first, second, rfl, left, right⟩ := List.map_eq_append_iff.mp spelled
    exact ⟨second ++ rest, ⟨first, left, List.append_assoc ..⟩, second, right, rfl⟩
  · rintro ⟨middle, ⟨first, left, rfl⟩, second, right, rfl⟩
    exact ⟨first ++ second, by rw [List.map_append, left, right], (List.append_assoc ..).symm⟩

end Spells

section Words

variable {word text : Text} {kind : TokenKind} {pos : Nat} {rest : List Token}

@[simp] theorem isWord_mk : Token.isWord word ⟨kind, text, pos⟩ =
    ((kind == .punct || kind == .ident) && text == word) := rfl

@[simp] theorem nextIsWord_cons (t : Token) : nextIsWord word (t :: rest) = t.isWord word := rfl

@[simp] theorem taken?_expect_cons (t : Token) :
    taken? (expect word (t :: rest)) = if t.isWord word then some (t, rest) else none :=
  taken?_expect word (t :: rest)

@[simp] theorem taken?_expectKind_cons (t : Token) :
    taken? (expectKind kind (t :: rest)) = if t.kind = kind then some (t, rest) else none := by
  rw [taken?_expectKind]
  simp [peek]

theorem ne_of_isIdentifier {name : Text} (ident : isIdentifier name)
    (other : isIdentifier word = false) : name ≠ word := by
  rintro rfl
  exact Bool.false_ne_true (other.symm.trans ident)

end Words

def typeSymbols : List Text := ["(", "!", "*", "&", "["]

def StartsType (word : Word) : Prop :=
  word.1 = .punct ∧ word.2 ∈ typeSymbols ∨ word.1 = .ident ∧ isIdentifier word.2

/-- The first word of a type, and when it is the keyword of a mutable reference. -/
theorem spell_starts {t : Ty} (canonical : t.Canonical)
    (idents : ∀ name ∈ t.names, isIdentifier name) :
    ∃ word words, t.spell = word :: words ∧ StartsType word ∧
      (word = named "mut" ↔ t.isMutStruct) := by
  have symbolCase : ∀ {t : Ty} {text : Text} {words : List Word}, text ∈ typeSymbols →
      t.isMutStruct = false → t.spell = symbol text :: words →
      ∃ word words, t.spell = word :: words ∧ StartsType word ∧
        (word = named "mut" ↔ t.isMutStruct) := by
    intro t text words member other spelled
    refine ⟨symbol text, words, spelled, .inl ⟨rfl, member⟩, ?_⟩
    simp [other, symbol, named]
  cases canonical with
  | @scalar s isNamed =>
      cases s with
      | unit => exact symbolCase (by decide) rfl rfl
      | never => exact symbolCase (by decide) rfl rfl
      | pointer | ref | refMut | refLifetime | refMutLifetime | array | tuple | struct | enum
      | function | unknown => simp [Shape.scalarName?] at isNamed
      | _ => exact ⟨_, _, rfl, .inr ⟨rfl, by decide⟩, by decide⟩
  | pointer => exact symbolCase (by decide) rfl (Ty.spell_pointerTo _)
  | ref isMut => exact symbolCase (by decide) (by cases isMut <;> rfl) (Ty.spell_refTo _ _)
  | refWithLifetime isMut =>
      exact symbolCase (by decide) (by cases isMut <;> rfl) (Ty.spell_refWithLifetime _ _ _)
  | array => exact symbolCase (by decide) rfl (Ty.spell_arrayOf _)
  | tuple => exact symbolCase (by decide) rfl (Ty.spell_tupleOf _)
  | @struct name =>
      refine ⟨_, _, Ty.spell_structNamed name, .inr ⟨rfl, idents name (by simp)⟩, ?_⟩
      simp [named, Ty.isMutStruct, Ty.structNamed]
  | enum name =>
      exact ⟨_, _, Ty.spell_enumNamed name, .inr ⟨rfl, by decide⟩, by
        simp +decide [Ty.isMutStruct, Ty.enumNamed]⟩
  | function =>
      exact ⟨_, _, Ty.spell_functionOf _ _, .inr ⟨rfl, by decide⟩, by
        simp +decide [Ty.isMutStruct, Ty.functionOf]⟩

section Refusals

variable {text : Text} {pos : Nat} {rest : List Token}

/-- What follows a type in a line starts none. -/
theorem taken?_takeType_refused {kind : TokenKind} (other : kind ≠ .ident)
    (refused : text ∉ typeSymbols) : taken? (takeType (⟨kind, text, pos⟩ :: rest)) = none := by
  simp only [typeSymbols, List.mem_cons, List.not_mem_nil, or_false, not_or] at refused
  obtain ⟨first, second, third, fourth, fifth⟩ := refused
  rw [taken?_takeType]
  simp [first, second, third, fourth, fifth, other]

end Refusals

/-- The words of a type read as the type in composed form. When the type is not clear they read as
nothing, provided that no type follows. -/
def ReadsType (t : Ty) : Prop :=
  ∀ tokens rest, Spells t.spell tokens rest → (t.isClear ∨ taken? (takeType rest) = none) →
    taken? (takeType tokens) = if t.isClear then some (t.composed, rest) else none

section Starts

variable {kind : TokenKind} {text : Text} {pos : Nat} {rest : List Token}

theorem StartsType.not_close (starts : StartsType (kind, text)) :
    Token.isWord ")" ⟨kind, text, pos⟩ = false := by
  have other : text ≠ ")" := by
    rcases starts with ⟨_, member⟩ | ⟨_, ident⟩
    · rintro rfl
      exact absurd (show Text.ofString ")" ∈ typeSymbols from member) (by decide)
    · exact ne_of_isIdentifier ident (by decide)
  simp [other]

theorem StartsType.cutLifetime (starts : StartsType (kind, text)) :
    Source.cutLifetime (⟨kind, text, pos⟩ :: rest) = ([], ⟨kind, text, pos⟩ :: rest) := by
  refine if_neg ?_
  rcases starts with ⟨same, _⟩ | ⟨same, _⟩
  · rintro (rfl : kind = .lifetime)
    simp at same
  · rintro (rfl : kind = .lifetime)
    simp at same

/-- A name that is no keyword is a scalar or a struct. -/
theorem taken?_takeType_named (ident : isIdentifier text) (noFn : text ≠ "fn")
    (noEnum : text ≠ "enum") : taken? (takeType (⟨.ident, text, pos⟩ :: rest)) =
      some ((Shape.ofScalarName? text).elim (.structNamed text.normalize) .scalar, rest) := by
  have other : ∀ word, isIdentifier word = false → text ≠ word := fun _ => ne_of_isIdentifier ident
  rw [taken?_takeType]
  simp [other "(" (by decide), other "!" (by decide), other "*" (by decide), other "&" (by decide),
    other "[" (by decide), noFn, noEnum]

end Starts

/-- The first token of a type. -/
theorem spells_starts {t : Ty} (canonical : t.Canonical)
    (idents : ∀ name ∈ t.names, isIdentifier name) {words : List Word} {tokens rest : List Token}
    (spells : Spells (t.spell ++ words) tokens rest) :
    ∃ kind text pos tail, tokens = ⟨kind, text, pos⟩ :: tail ∧ StartsType (kind, text) ∧
      ((kind, text) = named "mut" ↔ t.isMutStruct) := by
  obtain ⟨⟨kind, text⟩, more, spelled, starts, isMut⟩ := spell_starts canonical idents
  rw [spelled, List.cons_append, spells_cons] at spells
  obtain ⟨pos, tail, rfl, _⟩ := spells
  exact ⟨kind, text, pos, tail, rfl, starts, isMut⟩

theorem separated_cons (first : List Word) (rest : List (List Word)) :
    ∃ words, separated (first :: rest) = first ++ words := by
  cases rest with
  | nil => exact ⟨[], by simp [separated, List.intercalate]⟩
  | cons second more => exact ⟨_, separated_cons_cons first second more⟩

/-- A list of types does not start with what closes it. -/
theorem not_close_of_spells {elems : List Ty} (present : elems ≠ [])
    (canonical : ∀ t ∈ elems, t.Canonical)
    (idents : ∀ t ∈ elems, ∀ name ∈ t.names, isIdentifier name) {tokens rest : List Token}
    (spells : Spells (separated (elems.map Ty.spell)) tokens rest) :
    nextIsWord ")" tokens = false := by
  cases elems with
  | nil => exact absurd rfl present
  | cons t more =>
      obtain ⟨words, split⟩ := separated_cons t.spell (more.map Ty.spell)
      rw [List.map_cons, split] at spells
      obtain ⟨kind, text, pos, tail, rfl, starts, _⟩ :=
        spells_starts (canonical t (by simp)) (idents t (by simp)) spells
      exact starts.not_close

theorem readsTypes {elems : List Ty} (present : elems ≠ [])
    (canonical : ∀ t ∈ elems, t.Canonical) (idents : ∀ t ∈ elems, ∀ name ∈ t.names, isIdentifier name)
    (each : ∀ t ∈ elems, ReadsType t) {tokens middle rest : List Token} {trailing : Bool}
    (spells : Spells (separated (elems.map Ty.spell)) tokens middle)
    (closes : Spells ((if trailing then [symbol ","] else []) ++ [symbol ")"]) middle rest) :
    ∃ left, Spells [symbol ")"] left rest ∧ taken? (takeTypes tokens) =
      if elems.all Ty.isClear then some ((elems.map Ty.composed, trailing), left) else none := by
  induction elems generalizing tokens with
  | nil => exact absurd rfl present
  | cons t more ih =>
      have reads := each t (List.mem_cons_self ..)
      rw [taken?_takeTypes]
      cases more with
      | nil =>
          have first : Spells t.spell tokens middle := by
            simpa [separated, List.intercalate] using spells
          cases trailing with
          | false =>
              rw [if_neg Bool.false_ne_true, List.nil_append] at closes
              have ends := closes
              obtain ⟨pos, tail, rfl, _⟩ := spells_symbol.mp closes
              refine ⟨_, ends, ?_⟩
              rw [reads tokens _ first (.inr (taken?_takeType_refused (by decide) (by decide)))]
              by_cases clear : t.isClear
              · simp +decide [clear]
              · simp [clear]
          | true =>
              rw [if_pos rfl, List.singleton_append] at closes
              obtain ⟨pos, tail, rfl, ends⟩ := spells_symbol.mp closes
              refine ⟨tail, ends, ?_⟩
              obtain ⟨next, behind, rfl, _⟩ := spells_symbol.mp ends
              rw [reads tokens _ first (.inr (taken?_takeType_refused (by decide) (by decide)))]
              by_cases clear : t.isClear
              · simp +decide [clear]
              · simp [clear]
      | cons u others =>
          rw [List.map_cons, List.map_cons, separated_cons_cons, spells_append] at spells
          obtain ⟨after, first, spells⟩ := spells
          rw [List.singleton_append] at spells
          obtain ⟨pos, tail, rfl, behind⟩ := spells_symbol.mp spells
          obtain ⟨left, ends, rest⟩ := ih (by simp)
            (fun t member => canonical t (List.mem_cons_of_mem _ member))
            (fun t member => idents t (List.mem_cons_of_mem _ member))
            (fun t member => each t (List.mem_cons_of_mem _ member)) behind
          have opens : nextIsWord ")" tail = false :=
            not_close_of_spells (List.cons_ne_nil u others)
              (fun t member => canonical t (List.mem_cons_of_mem _ member))
              (fun t member => idents t (List.mem_cons_of_mem _ member)) behind
          refine ⟨left, ends, ?_⟩
          rw [reads tokens _ first (.inr (taken?_takeType_refused (by decide) (by decide))),
            List.all_cons]
          generalize (u :: others).all Ty.isClear = fine at rest
          by_cases clear : t.isClear
          · cases fine <;> simp +decide [clear, opens, rest]
          · simp [clear]

theorem readsParams {params : List Ty} (canonical : ∀ t ∈ params, t.Canonical)
    (idents : ∀ t ∈ params, ∀ name ∈ t.names, isIdentifier name)
    (each : ∀ t ∈ params, ReadsType t) {words : List Word} {tokens rest : List Token}
    (spells : Spells (separated (params.map Ty.spell) ++ (symbol ")" :: words)) tokens rest) :
    ∃ left, Spells words left rest ∧ taken? (takeParams tokens) =
      if params.all Ty.isClear then some (params.map Ty.composed, left) else none := by
  obtain ⟨middle, inner, closed⟩ := spells_append.mp spells
  obtain ⟨pos, left, rfl, behind⟩ := spells_symbol.mp closed
  refine ⟨left, behind, ?_⟩
  rw [taken?_takeParams]
  by_cases present : params = []
  · subst present
    obtain rfl := spells_nil.mp inner
    simp +decide
  · rw [not_close_of_spells present canonical idents inner, if_neg Bool.false_ne_true]
    have closes : Spells ((if false then [symbol ","] else []) ++ [symbol ")"])
        (⟨.punct, ")", pos⟩ :: left) left :=
      spells_symbol.mpr ⟨pos, left, rfl, spells_nil.mpr rfl⟩
    obtain ⟨closing, ends, read⟩ := readsTypes present canonical idents each inner closes
    obtain ⟨next, left, rfl, ended⟩ := spells_symbol.mp ends
    obtain rfl := spells_nil.mp ended
    rw [read]
    cases params.all Ty.isClear <;> simp +decide

theorem parenthesized_map {elems : List Ty} (present : elems ≠ []) :
    parenthesized (elems.map Ty.composed) (decide (elems.length = 1)) =
      .tupleOf (elems.map Ty.composed) := by
  cases elems with
  | nil => exact absurd rfl present
  | cons t more => cases more <;> rfl

/-- The scalars with a name. -/
theorem ofScalarName?_spelled {s : Shape} (isNamed : s.scalarName?.isSome) (noUnit : s ≠ .unit)
    (noNever : s ≠ .never) : ∃ name, (Ty.scalar s).spell = [named name] ∧ isIdentifier name ∧
      name ≠ "fn" ∧ name ≠ "enum" ∧ Shape.ofScalarName? name = some s := by
  cases s with
  | unit => exact absurd rfl noUnit
  | never => exact absurd rfl noNever
  | pointer | ref | refMut | refLifetime | refMutLifetime | array | tuple | struct | enum
  | function | unknown => simp [Shape.scalarName?] at isNamed
  | _ => exact ⟨_, rfl, by decide, by decide, by decide, by decide⟩

theorem spell_of_isMutStruct {t : Ty} (canonical : t.Canonical) (mutable : t.isMutStruct) :
    t.spell = [named "mut"] := by
  simp only [Ty.isMutStruct, Bool.and_eq_true, decide_eq_true_eq, beq_iff_eq] at mutable
  obtain ⟨shape, name⟩ := mutable
  cases canonical with
  | @scalar s isNamed =>
      obtain rfl : s = .struct := shape
      simp [Shape.scalarName?] at isNamed
  | struct => rw [Ty.spell_structNamed, ← name]; rfl
  | ref isMut => cases isMut <;> simp [Ty.refTo] at shape
  | refWithLifetime isMut => cases isMut <;> simp [Ty.refWithLifetime] at shape
  | pointer => simp [Ty.pointerTo] at shape
  | array => simp [Ty.arrayOf] at shape
  | tuple => simp [Ty.tupleOf] at shape
  | enum => simp [Ty.enumNamed] at shape
  | function => simp [Ty.functionOf] at shape

section References

variable {t : Ty} {tokens rest : List Token} {isMut : Bool}

def spellTarget (isMut : Bool) (t : Ty) : List Word :=
  (if isMut then [named "mut"] else []) ++ t.spell

theorem cutLifetime_target (canonical : t.Canonical)
    (idents : ∀ name ∈ t.names, isIdentifier name)
    (spells : Spells (spellTarget isMut t) tokens rest) : cutLifetime tokens = ([], tokens) := by
  cases isMut with
  | true =>
      obtain ⟨pos, tail, rfl, _⟩ := spells_named.mp spells
      rfl
  | false =>
      rw [spellTarget, if_neg Bool.false_ne_true, List.nil_append, ← List.append_nil t.spell] at spells
      obtain ⟨kind, text, pos, tail, rfl, starts, _⟩ := spells_starts canonical idents spells
      exact starts.cutLifetime

theorem readsType_target (canonical : t.Canonical) (idents : ∀ name ∈ t.names, isIdentifier name)
    (reads : ReadsType t) (lifetime : Text) (spells : Spells (spellTarget isMut t) tokens rest)
    (clear : ((isMut || !t.isMutStruct) && t.isClear) ∨ taken? (takeType rest) = none) :
    ((taken? (takeType (cutWord "mut" tokens).2)).map fun x =>
        (refOf lifetime (cutWord "mut" tokens).1 x.1, x.2)) =
      if (isMut || !t.isMutStruct) && t.isClear then
        some (refOf lifetime isMut t.composed, rest) else none := by
  rw [cutWord_eq]
  cases isMut with
  | true =>
      obtain ⟨pos, tail, rfl, inner⟩ := spells_named.mp spells
      have target := reads tail rest inner (by simpa using clear)
      simp +decide [target, apply_ite]
  | false =>
      rw [spellTarget, if_neg Bool.false_ne_true, List.nil_append] at spells
      rw [Bool.false_or] at *
      cases mutable : t.isMutStruct with
      | true =>
          -- The struct is taken for the keyword, and nothing is left for the target.
          rw [spell_of_isMutStruct canonical mutable, spells_named] at spells
          obtain ⟨pos, tail, rfl, ended⟩ := spells
          obtain rfl := spells_nil.mp ended
          have nothing : taken? (takeType tail) = none := by simpa [mutable] using clear
          simp +decide [nothing]
      | false =>
          have front := spells
          rw [← List.append_nil t.spell] at front
          obtain ⟨kind, text, pos, tail, rfl, starts, isWord⟩ :=
            spells_starts canonical idents front
          have next : nextIsWord "mut" (⟨kind, text, pos⟩ :: tail) = false := by
            rw [mutable] at isWord
            rcases starts with ⟨same, member⟩ | ⟨same, _⟩
            · have other : text ≠ "mut" := by
                rintro rfl
                exact absurd (show Text.ofString "mut" ∈ typeSymbols from member) (by decide)
              simp [other]
            · obtain rfl : kind = .ident := same
              simpa [named] using isWord
          have target := reads _ rest spells (by simpa [mutable] using clear)
          rw [next, if_neg Bool.false_ne_true, target]
          simp [apply_ite]

end References

/-! ## One form of type after another -/

section Forms

variable {t : Ty}

theorem readsType_scalar {s : Shape} (isNamed : s.scalarName?.isSome) : ReadsType (.scalar s) := by
  intro tokens rest spells _
  rw [Ty.isClear_scalar, Ty.composed_scalar, if_pos rfl]
  by_cases unit : s = .unit
  · subst unit
    obtain ⟨pos, tail, rfl, inner⟩ := spells_symbol.mp spells
    obtain ⟨next, behind, rfl, ended⟩ := spells_symbol.mp inner
    obtain rfl := spells_nil.mp ended
    rw [taken?_takeType]
    simp +decide [parenthesized?, Ty.unit]
  by_cases never : s = .never
  · subst never
    obtain ⟨pos, tail, rfl, ended⟩ := spells_symbol.mp spells
    obtain rfl := spells_nil.mp ended
    rw [taken?_takeType]
    simp +decide
  · obtain ⟨name, spelled, ident, noFn, noEnum, same⟩ := ofScalarName?_spelled isNamed unit never
    rw [spelled, spells_named] at spells
    obtain ⟨pos, tail, rfl, ended⟩ := spells
    obtain rfl := spells_nil.mp ended
    rw [taken?_takeType_named ident noFn noEnum, same]
    rfl

theorem ReadsType.pointer (reads : ReadsType t) : ReadsType (.pointerTo t) := by
  intro tokens rest spells clear
  rw [Ty.spell_pointerTo, spells_symbol] at spells
  obtain ⟨pos, tail, rfl, inner⟩ := spells
  rw [Ty.isClear_pointerTo] at *
  have target := reads tail rest inner clear
  rw [taken?_takeType]
  simp +decide [target, apply_ite]

theorem ReadsType.ref (reads : ReadsType t) (canonical : t.Canonical)
    (idents : ∀ name ∈ t.names, isIdentifier name) (isMut : Bool) : ReadsType (.refTo t isMut) := by
  intro tokens rest spells clear
  rw [Ty.spell_refTo, spells_symbol] at spells
  obtain ⟨pos, tail, rfl, spells⟩ := spells
  rw [Ty.isClear_refTo] at *
  have target := readsType_target canonical idents reads [] spells clear
  have plain := cutLifetime_target canonical idents spells
  rw [taken?_takeType]
  simp +decide only [isWord_mk, if_true, if_false, Ty.composed_refTo]
  rw [plain, target]
  rfl

theorem ReadsType.refWithLifetime (reads : ReadsType t) (canonical : t.Canonical)
    (idents : ∀ name ∈ t.names, isIdentifier name) {lifetime : Text} (valid : isLifetime lifetime)
    (isMut : Bool) : ReadsType (.refWithLifetime lifetime t isMut) := by
  intro tokens rest spells clear
  rw [Ty.spell_refWithLifetime, spells_symbol] at spells
  obtain ⟨pos, tail, rfl, spells⟩ := spells
  obtain ⟨next, tail, rfl, inside⟩ := spells_cons.mp spells
  rw [Ty.isClear_refWithLifetime] at *
  have target := readsType_target canonical idents reads lifetime inside clear
  have cut : cutLifetime (⟨.lifetime, lifetime, next⟩ :: tail) = (lifetime, tail) := rfl
  have lasting : refOf lifetime isMut t.composed =
      Ty.refWithLifetime lifetime t.composed isMut := by
    simp only [isLifetime, Bool.and_eq_true, Bool.not_eq_true'] at valid
    exact if_neg (by simp [valid.1])
  rw [taken?_takeType]
  simp +decide only [isWord_mk, if_true, if_false, Ty.composed_refWithLifetime]
  rw [cut, target, lasting]

theorem ReadsType.array (reads : ReadsType t) : ReadsType (.arrayOf t) := by
  intro tokens rest spells clear
  rw [Ty.spell_arrayOf, spells_symbol] at spells
  obtain ⟨pos, tail, rfl, spells⟩ := spells
  obtain ⟨middle, inner, closed⟩ := spells_append.mp spells
  obtain ⟨next, behind, rfl, ended⟩ := spells_symbol.mp closed
  obtain rfl := spells_nil.mp ended
  have target := reads tail _ inner (.inr (taken?_takeType_refused (by decide) (by decide)))
  rw [taken?_takeType, Ty.isClear_arrayOf]
  by_cases fine : t.isClear
  · simp +decide [target, fine]
  · simp +decide [target, fine]

theorem readsType_tuple {elems : List Ty} (present : elems ≠ [])
    (canonical : ∀ t ∈ elems, t.Canonical) (idents : ∀ t ∈ elems, ∀ name ∈ t.names, isIdentifier name)
    (each : ∀ t ∈ elems, ReadsType t) : ReadsType (.tupleOf elems) := by
  intro tokens rest spells clear
  rw [Ty.spell_tupleOf, spells_symbol] at spells
  obtain ⟨pos, tail, rfl, spells⟩ := spells
  obtain ⟨middle, inner, closes⟩ := spells_append.mp spells
  have trailing : (if elems.length = 1 then [symbol ","] else []) =
      if decide (elems.length = 1) then [symbol ","] else [] := by simp
  rw [trailing] at closes
  obtain ⟨left, ends, read⟩ := readsTypes present canonical idents each inner closes
  obtain ⟨next, behind, rfl, ended⟩ := spells_symbol.mp ends
  obtain rfl := spells_nil.mp ended
  rw [taken?_takeType, Ty.isClear_tupleOf]
  generalize elems.all Ty.isClear = fine at read
  have opens := not_close_of_spells present canonical idents inner
  have tuple := parenthesized_map present
  cases fine <;> simp +decide [parenthesized?, opens, read, tuple]

theorem readsType_struct {name : Text} (ident : isIdentifier name) (noFn : name ≠ "fn")
    (noEnum : name ≠ "enum") (noScalar : Shape.ofScalarName? name = none) :
    ReadsType (.structNamed name) := by
  intro tokens rest spells _
  rw [Ty.spell_structNamed, spells_named] at spells
  obtain ⟨pos, tail, rfl, ended⟩ := spells
  obtain rfl := spells_nil.mp ended
  rw [taken?_takeType_named ident noFn noEnum, noScalar]
  simp

theorem readsType_enum (name : Text) : ReadsType (.enumNamed name) := by
  intro tokens rest spells _
  rw [Ty.spell_enumNamed, spells_named] at spells
  obtain ⟨pos, tail, rfl, spells⟩ := spells
  obtain ⟨next, tail, rfl, ended⟩ := spells_named.mp spells
  obtain rfl := spells_nil.mp ended
  rw [taken?_takeType]
  simp +decide

theorem readsType_function {params : List Ty} {result : Ty}
    (canonical : ∀ t ∈ params, t.Canonical)
    (idents : ∀ t ∈ params, ∀ name ∈ t.names, isIdentifier name)
    (each : ∀ t ∈ params, ReadsType t) (reads : ReadsType result) :
    ReadsType (.functionOf params result) := by
  intro tokens rest spells clear
  rw [Ty.spell_functionOf, spells_named] at spells
  obtain ⟨pos, tail, rfl, spells⟩ := spells
  obtain ⟨next, tail, rfl, inner⟩ := spells_symbol.mp spells
  obtain ⟨left, behind, read⟩ := readsParams canonical idents each inner
  obtain ⟨arrow, left, rfl, last⟩ := spells_symbol.mp behind
  rw [Ty.isClear_functionOf] at *
  rw [taken?_takeType]
  cases fine : params.all Ty.isClear with
  | false => simp +decide [function?, read, fine]
  | true =>
      have ended := reads left rest last (by simpa [fine] using clear)
      simp +decide [function?, read, fine, ended, apply_ite]

theorem readsType (canonical : t.Canonical) (idents : ∀ name ∈ t.names, isIdentifier name) :
    ReadsType t := by
  induction canonical with
  | scalar isNamed => exact readsType_scalar isNamed
  | pointer _ ih =>
      rw [Ty.names_pointerTo] at idents
      exact (ih idents).pointer
  | ref isMut inner ih =>
      rw [Ty.names_refTo] at idents
      exact (ih idents).ref inner idents isMut
  | refWithLifetime isMut valid inner ih =>
      rw [Ty.names_refWithLifetime] at idents
      exact (ih idents).refWithLifetime inner idents valid isMut
  | array _ ih =>
      rw [Ty.names_arrayOf] at idents
      exact (ih idents).array
  | tuple present canonical ih =>
      rw [Ty.names_tupleOf, List.forall_mem_flatMap] at idents
      exact readsType_tuple present canonical idents fun t member => ih t member (idents t member)
  | struct noFn noEnum noScalar =>
      rw [Ty.names_structNamed] at idents
      exact readsType_struct (idents _ (List.mem_singleton_self _)) noFn noEnum noScalar
  | enum name => exact readsType_enum name
  | function canonical _ ih ihResult =>
      rw [Ty.names_functionOf, List.forall_mem_append, List.forall_mem_flatMap] at idents
      exact readsType_function canonical idents.1 (fun t member => ih t member (idents.1 t member))
        (ihResult idents.2)

end Forms

end Source

end BorrowChecker
