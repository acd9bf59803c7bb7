import BorrowChecker.Proofs.Numerals
import BorrowChecker.Mir.Body
import BorrowChecker.Source.Parser

/-!
The words that types, statements and terminators are written as. Printing a well-made tree and
splitting the text gives exactly these words, unless a name in the tree is no identifier.
-/

namespace BorrowChecker

open Source

namespace Mir

def separated (parts : List (List Word)) : List Word := [symbol ","].intercalate parts

namespace Ty

mutual

def names : Ty → List Text
  | ⟨shape, name, _, elem, elems, params, result⟩ =>
    (if shape = .struct ∨ shape = .enum then [name] else []) ++ namesOfOption elem ++
      namesOfAll elems ++ namesOfAll params ++ namesOfOption result

def namesOfOption : Option Ty → List Text
  | none => []
  | some t => t.names

def namesOfAll : List Ty → List Text
  | [] => []
  | t :: ts => t.names ++ namesOfAll ts

end

mutual

def spell : Ty → List Word
  | ⟨shape, name, lifetime, elem, elems, params, result⟩ =>
    match shape with
    | .unit => [symbol "(", symbol ")"]
    | .never => [symbol "!"]
    | .pointer => symbol "*" :: spellOption elem
    | .ref => symbol "&" :: spellOption elem
    | .refMut => symbol "&" :: named "mut" :: spellOption elem
    | .refLifetime => symbol "&" :: (.lifetime, lifetime) :: spellOption elem
    | .refMutLifetime => symbol "&" :: (.lifetime, lifetime) :: named "mut" :: spellOption elem
    | .array => symbol "[" :: (spellOption elem ++ [symbol "]"])
    | .tuple =>
      symbol "(" :: (separated (spellAll elems) ++
        ((if elems.length = 1 then [symbol ","] else []) ++ [symbol ")"]))
    | .struct => [named name]
    | .enum => [named "enum", named name]
    | .function =>
      named "fn" :: symbol "(" :: (separated (spellAll params) ++
        (symbol ")" :: symbol "->" :: spellOption result))
    | s => [named (s.scalarName?.getD [])]

def spellOption : Option Ty → List Word
  | none => []
  | some t => t.spell

def spellAll : List Ty → List (List Word)
  | [] => []
  | t :: ts => t.spell :: spellAll ts

end

/-- A type that carries what its shape calls for and nothing else. The name of a struct is not a
word that types start with otherwise. -/
inductive Canonical : Ty → Prop
  | scalar {s : Shape} : s.scalarName?.isSome → Canonical (.scalar s)
  | pointer {t : Ty} : Canonical t → Canonical (.pointerTo t)
  | ref {t : Ty} (isMut : Bool) : Canonical t → Canonical (.refTo t isMut)
  | refWithLifetime {t : Ty} {lifetime : Text} (isMut : Bool) : isLifetime lifetime →
      Canonical t → Canonical (.refWithLifetime lifetime t isMut)
  | array {t : Ty} : Canonical t → Canonical (.arrayOf t)
  | tuple {elems : List Ty} : elems ≠ [] → (∀ t ∈ elems, Canonical t) → Canonical (.tupleOf elems)
  | struct {name : Text} : name ≠ "fn" → name ≠ "enum" → Shape.ofScalarName? name = none →
      Canonical (.structNamed name)
  | enum (name : Text) : Canonical (.enumNamed name)
  | function {params : List Ty} {result : Ty} : (∀ t ∈ params, Canonical t) → Canonical result →
      Canonical (.functionOf params result)

theorem namesOfAll_eq (ts : List Ty) : namesOfAll ts = ts.flatMap names := by
  induction ts with
  | nil => simp [namesOfAll]
  | cons t rest ih => simp [namesOfAll, ih]

theorem spellAll_eq (ts : List Ty) : spellAll ts = ts.map spell := by
  induction ts with
  | nil => simp [spellAll]
  | cons t rest ih => simp [spellAll, ih]

theorem printAll_eq (ts : List Ty) : printAll ts = ts.map print := by
  induction ts with
  | nil => simp [printAll]
  | cons t rest ih => simp [printAll, ih]

section Names

variable (t : Ty) (ts : List Ty) (isMut : Bool) (name : Text)

theorem names_mk (shape : Shape) (lifetime : Text) (elem : Option Ty) (elems params : List Ty)
    (result : Option Ty) : names ⟨shape, name, lifetime, elem, elems, params, result⟩ =
      (if shape = .struct ∨ shape = .enum then [name] else []) ++ elem.elim [] names ++
        elems.flatMap names ++ params.flatMap names ++ result.elim [] names := by
  cases elem <;> cases result <;> simp [names, namesOfOption, namesOfAll_eq]

@[simp] theorem names_pointerTo : (pointerTo t).names = t.names := by
  simp [pointerTo, names_mk]

@[simp] theorem names_refTo : (refTo t isMut).names = t.names := by
  cases isMut <;> simp [refTo, names_mk]

@[simp] theorem names_refWithLifetime : (refWithLifetime name t isMut).names = t.names := by
  cases isMut <;> simp [refWithLifetime, names_mk]

@[simp] theorem names_arrayOf : (arrayOf t).names = t.names := by
  simp [arrayOf, names_mk]

@[simp] theorem names_tupleOf : (tupleOf ts).names = ts.flatMap names := by
  simp [tupleOf, names_mk]

@[simp] theorem names_structNamed : (structNamed name).names = [name] := by
  simp [structNamed, names_mk]

@[simp] theorem names_enumNamed : (enumNamed name).names = [name] := by
  simp [enumNamed, names_mk]

@[simp] theorem names_functionOf : (functionOf ts t).names = ts.flatMap names ++ t.names := by
  simp [functionOf, names_mk]

theorem names_scalar {s : Shape} (isNamed : s.scalarName?.isSome) : (scalar s).names = [] := by
  have other : ¬ (s = .struct ∨ s = .enum) := by
    rintro (rfl | rfl) <;> simp [Shape.scalarName?] at isNamed
  simp [scalar, names_mk, other]

end Names

end Ty

end Mir

namespace Source

open Mir Text

theorem opens_byte {b : UInt8} (rest : Text) (ascii : b.toNat < 0x80)
    (stops : isNamePoint ⟨b.toNat, [b]⟩ = false ∧ b.toNat ≠ 46) : Opens (b :: rest) :=
  ⟨_, _, codePoints_ascii_cons ascii rest, stops⟩

theorem lexes_nil : Lexes [] true [] [] := by
  refine .of_splits (by simp [Sealed, Text.codePoints]) fun pos rest _ => ⟨[], pos, rfl, ?_⟩
  cases same : lexFrom pos rest <;> simp [Text.codePoints, same, Except.map]

theorem lexes_comma : Lexes [] false ", " [symbol ","] :=
  (lexes_symbol (by decide)).andThen lexes_blank

theorem joined_cons_cons (sep first second : Text) (rest : List Text) :
    joined sep (first :: second :: rest) = first ++ (sep ++ joined sep (second :: rest)) := by
  simp [joined, List.intercalate]

theorem separated_cons_cons (first second : List Word) (rest : List (List Word)) :
    separated (first :: second :: rest) =
      first ++ ([symbol ","] ++ separated (second :: rest)) := by
  simp [separated, List.intercalate]

theorem lexes_joined {α : Type} {names : α → List Text} {text : α → Text} {words : α → List Word}
    {parts : List α} (each : ∀ x ∈ parts, Lexes (names x) true (text x) (words x)) :
    Lexes (parts.flatMap names) true (joined ", " (parts.map text))
      (separated (parts.map words)) := by
  induction parts with
  | nil => exact lexes_nil
  | cons x rest ih =>
      have first := each x (List.mem_cons_self ..)
      have others := ih fun y member => each y (List.mem_cons_of_mem x member)
      cases rest with
      | nil => simpa [joined, separated, List.intercalate] using first
      | cons y more =>
          have comma := lexes_comma.andThen others
          have whole := first.append comma fun _ => opens_byte _ (by decide) (by decide)
          rw [List.map_cons, List.map_cons, List.map_cons, List.map_cons, joined_cons_cons,
            separated_cons_cons]
          simpa using whole

theorem lexes_open : Lexes [] false "(" [symbol "("] := lexes_symbol (by decide)

theorem lexes_close : Lexes [] false ")" [symbol ")"] := lexes_symbol (by decide)

theorem lexes_amp : Lexes [] false "&" [symbol "&"] := lexes_symbol (by decide)

/-- A keyword and the blank after it. -/
theorem lexes_keyword_blank (name : Text) (ident : isIdentifier name) :
    Lexes [] false (name ++ [32]) [named name] :=
  (lexes_keyword ident).append lexes_blank fun _ => opens_byte _ (by decide) (by decide)

/-- A keyword and the parenthesis after it. -/
theorem lexes_keyword_open (name : Text) (ident : isIdentifier name) :
    Lexes [] false (name ++ [40]) [named name, symbol "("] :=
  (lexes_keyword ident).append lexes_open fun _ => opens_byte _ (by decide) (by decide)

/-- A closing parenthesis, an arrow and a blank. -/
theorem lexes_goes : Lexes [] false ") -> " [symbol ")", symbol "->"] :=
  ((lexes_close.andThen lexes_blank).andThen lexes_arrow).andThen lexes_blank

theorem lexes_scalar {s : Shape} (isNamed : s.scalarName?.isSome) :
    Lexes [] true (Ty.scalar s).print (Ty.scalar s).spell := by
  cases s with
  | unit => exact (lexes_open.andThen lexes_close).relax
  | never => exact (lexes_symbol (by decide)).relax
  | pointer | ref | refMut | refLifetime | refMutLifetime | array | tuple | struct | enum | function
  | unknown => simp [Shape.scalarName?] at isNamed
  | _ => exact lexes_keyword (by decide)

theorem lexes_ref {names : List Text} {text : Text} {words : List Word} (isMut : Bool)
    (target : Lexes names true text words) :
    Lexes names true (if isMut then "&mut " ++ text else "&" ++ text)
      (if isMut then symbol "&" :: named "mut" :: words else symbol "&" :: words) := by
  cases isMut with
  | false => exact lexes_amp.andThen target
  | true =>
      have word : Lexes [] false "mut " [named "mut"] := lexes_keyword_blank "mut" (by decide)
      exact (lexes_amp.andThen word).andThen target

theorem lexes_refWithLifetime {names : List Text} {text lifetime : Text} {words : List Word}
    (isMut : Bool) (valid : isLifetime lifetime) (target : Lexes names true text words) :
    Lexes names true
      (if isMut then "&'" ++ lifetime ++ " mut " ++ text else "&'" ++ lifetime ++ " " ++ text)
      (if isMut then symbol "&" :: (.lifetime, lifetime) :: named "mut" :: words
        else symbol "&" :: (.lifetime, lifetime) :: words) := by
  have start : Lexes [] true ("&'" ++ lifetime) [symbol "&", (.lifetime, lifetime)] :=
    lexes_amp.andThen (lexes_lifetime valid)
  cases isMut with
  | false =>
      have blank := start.append lexes_blank fun _ => opens_byte _ (by decide) (by decide)
      exact blank.andThen target
  | true =>
      have word : Lexes [] false "mut " [named "mut"] := lexes_keyword_blank "mut" (by decide)
      have gap : Lexes [] false " mut " [named "mut"] := lexes_blank.andThen word
      have front := start.append gap fun _ => opens_byte _ (by decide) (by decide)
      exact front.andThen target

theorem lexes_type {t : Ty} (canonical : t.Canonical)
    (wordlike : ∀ name ∈ t.names, IsWordlike name) : Lexes t.names true t.print t.spell := by
  induction canonical with
  | scalar isNamed =>
      rw [Ty.names_scalar isNamed]
      exact lexes_scalar isNamed
  | pointer _ ih =>
      rw [Ty.names_pointerTo] at *
      have star : Lexes [] false "*" [symbol "*"] := lexes_symbol (by decide)
      simpa [Ty.pointerTo, Ty.print, Ty.printElem, Ty.spell, Ty.spellOption] using
        star.andThen (ih wordlike)
  | ref isMut _ ih =>
      rw [Ty.names_refTo] at *
      have lexes := lexes_ref isMut (ih wordlike)
      cases isMut <;>
        simpa [Ty.refTo, Ty.print, Ty.printElem, Ty.spell, Ty.spellOption] using lexes
  | refWithLifetime isMut valid _ ih =>
      rw [Ty.names_refWithLifetime] at *
      have lexes := lexes_refWithLifetime isMut valid (ih wordlike)
      cases isMut <;>
        simpa [Ty.refWithLifetime, Ty.print, Ty.printElem, Ty.spell, Ty.spellOption] using lexes
  | array _ ih =>
      rw [Ty.names_arrayOf] at *
      have opened : Lexes [] false "[" [symbol "["] := lexes_symbol (by decide)
      have closed : Lexes [] false "]" [symbol "]"] := lexes_symbol (by decide)
      have inner := (opened.andThen (ih wordlike)).append closed fun _ =>
        opens_byte _ (by decide) (by decide)
      simpa [Ty.arrayOf, Ty.print, Ty.printElem, Ty.spell, Ty.spellOption] using inner.relax
  | @tuple elems present _ ih =>
      rw [Ty.names_tupleOf] at *
      have inner := lexes_joined fun t member => ih t member fun name isIn =>
        wordlike name (List.mem_flatMap.mpr ⟨t, member, isIn⟩)
      have tail : Lexes [] false ((if elems.length = 1 then "," else "") ++ ")")
          ((if elems.length = 1 then [symbol ","] else []) ++ [symbol ")"]) := by
        split
        · exact Lexes.andThen (lexes_symbol (by decide)) lexes_close
        · exact lexes_close
      have opens : Opens ((if elems.length = 1 then "," else "") ++ ")") := by
        split
        · exact opens_byte _ (by decide) (by decide)
        · exact opens_byte _ (by decide) (by decide)
      have whole := lexes_open.andThen (inner.append tail fun _ => opens)
      simpa [Ty.tupleOf, Ty.print, Ty.printAll_eq, Ty.spell, Ty.spellAll_eq] using whole.relax
  | struct =>
      rw [Ty.names_structNamed] at *
      simpa [Ty.structNamed, Ty.print, Ty.spell] using lexes_name (wordlike _ (by simp))
  | enum name =>
      rw [Ty.names_enumNamed] at *
      have word : Lexes [] false "enum " [named "enum"] := lexes_keyword_blank "enum" (by decide)
      have whole := word.andThen (lexes_name (wordlike name (by simp)))
      simpa [Ty.enumNamed, Ty.print, Ty.spell] using whole
  | @function params result _ _ ih ihResult =>
      rw [Ty.names_functionOf] at *
      have inner := lexes_joined fun t member => ih t member fun name isIn =>
        wordlike name (List.mem_append_left _ (List.mem_flatMap.mpr ⟨t, member, isIn⟩))
      have ended := ihResult fun name isIn => wordlike name (List.mem_append_right _ isIn)
      have word : Lexes [] false "fn(" [named "fn", symbol "("] :=
        lexes_keyword_open "fn" (by decide)
      have start := (word.andThen inner).append lexes_goes fun _ =>
        opens_byte _ (by decide) (by decide)
      simpa [Ty.functionOf, Ty.print, Ty.printResult, Ty.printAll_eq, Ty.spell, Ty.spellOption,
        Ty.spellAll_eq] using start.andThen ended

end Source

end BorrowChecker
