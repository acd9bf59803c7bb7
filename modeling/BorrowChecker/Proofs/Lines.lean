import BorrowChecker.Proofs.Decimals
import BorrowChecker.Proofs.Printed

/-!
The words of statements and terminators, and the trees that are written in full: every part is of a
known kind, every local and block has a number of thirty-one bits, and every float is finite.
-/

namespace BorrowChecker

open Source

namespace Mir

/-- A number that a local or a block can have in a written line. -/
def Numbered (id : Int) : Prop := 0 ≤ id ∧ id < 0x80000000

instance (id : Int) : Decidable (Numbered id) := inferInstanceAs (Decidable (_ ∧ _))

namespace LocalId

def word (id : LocalId) : Word := named id.print

end LocalId

namespace BlockId

def word (id : BlockId) : Word := named id.print

end BlockId

namespace Const

/-- Only finite floats have a literal. -/
def IsWritten : Const → Prop
  | float value => value.IsFinite
  | unknown => False
  | int _ | bool _ | str _ | unit => True

def spell : Const → List Word
  | int value => [(.int, Text.ofInt value.toInt)]
  | float value => [(.float, printFloat value)]
  | bool value => [named (if value then "true" else "false")]
  | str value => [(.string, value)]
  | unit => [symbol "(", symbol ")"]
  | unknown => []

end Const

namespace Operand

def IsWritten : Operand → Prop
  | copy place | move place => Numbered place
  | const value => value.IsWritten
  | unknown _ => False

def spell : Operand → List Word
  | copy place => [named "copy", place.word]
  | move place => [named "move", place.word]
  | const value => named "const" :: value.spell
  | unknown _ => []

def spellAll (ops : List Operand) : List Word :=
  symbol "(" :: (separated (ops.map spell) ++ [symbol ")"])

end Operand

namespace AggregateHead

def names : AggregateHead → List Text
  | struct name | enum name _ => [name]
  | tuple | array | unknown => []

def spell : AggregateHead → List Word
  | tuple => [named "tuple"]
  | array => [named "array"]
  | struct name => [named "struct", named name]
  | enum name variant =>
    [named "enum", named name, symbol "::", (.int, Text.ofNat variant.toNat)]
  | unknown => []

end AggregateHead

def spellParen (place : LocalId) : List Word := [symbol "(", place.word, symbol ")"]

namespace RValue

def Canonical : RValue → Prop
  | use value => value.IsWritten
  | ref place | len place | discriminant place => Numbered place
  | binary op left right => op ≠ .unknown ∧ left.IsWritten ∧ right.IsWritten
  | unary op value => op ≠ .unknown ∧ value.IsWritten
  | aggregate head elems => head ≠ .unknown ∧ ∀ op ∈ elems, op.IsWritten
  | cast value target => value.IsWritten ∧ target.Canonical
  | unknown => False

def names : RValue → List Text
  | aggregate head _ => head.names
  | cast _ target => target.names
  | use _ | ref _ | binary .. | unary .. | len _ | discriminant _ | unknown => []

def spell : RValue → List Word
  | use value => value.spell
  | ref place => [symbol "&", place.word]
  | binary op left right => named op.print :: Operand.spellAll [left, right]
  | unary op value => named op.print :: Operand.spellAll [value]
  | aggregate head elems => head.spell ++ Operand.spellAll elems
  | cast value target => named "cast" :: (value.spell ++ (named "as" :: target.spell))
  | len place => named "len" :: spellParen place
  | discriminant place => named "discriminant" :: spellParen place
  | unknown => []

end RValue

namespace Statement

def Canonical : Statement → Prop
  | assign dst src => Numbered dst ∧ src.Canonical
  | drop place => Numbered place
  | nop => True
  | unknown => False

def names : Statement → List Text
  | assign _ src => src.names
  | drop _ | nop | unknown => []

def spell : Statement → List Word
  | assign dst src => dst.word :: symbol "=" :: src.spell
  | drop place => named "drop" :: spellParen place
  | nop => [named "nop"]
  | unknown => []

end Statement

namespace Terminator

/-- The words that terminators other than calls start with. -/
def keywords : List Text := ["return", "unreachable", "goto", "switchInt", "assert"]

/-- A terminator that is there and written in full. The callee of a call without a destination is
none of the words that other terminators start with. -/
def Canonical : Terminator → Prop
  | goto target => Numbered target
  | switchInt discr cases otherwise =>
    discr.IsWritten ∧ (∀ c ∈ cases, Numbered c.target) ∧ Numbered otherwise
  | ret | unreachable => True
  | call func args dst target =>
    (∀ op ∈ args, op.IsWritten) ∧ (∀ place ∈ dst, Numbered place) ∧
      (dst = none → func ∉ keywords) ∧ Numbered target
  | assert cond _ _ target => cond.IsWritten ∧ Numbered target
  | missing | unknown => False

def names : Terminator → List Text
  | call func .. => [func]
  | missing | goto _ | switchInt .. | ret | unreachable | assert .. | unknown => []

def spellCase (c : SwitchCase) : List Word :=
  [(.int, Text.ofInt c.value.toInt), symbol ":", c.target.word, symbol ","]

def spellTarget (target : BlockId) : List Word := [symbol "->", target.word]

def spellCall (func : Text) (args : List Operand) (target : BlockId) : List Word :=
  named func :: (Operand.spellAll args ++ spellTarget target)

def spell : Terminator → List Word
  | goto target => named "goto" :: spellTarget target
  | switchInt discr cases otherwise =>
    named "switchInt" :: symbol "(" :: (discr.spell ++ (symbol ")" :: symbol "->" :: symbol "[" ::
      (cases.flatMap spellCase ++ [named "otherwise", symbol ":", otherwise.word, symbol "]"])))
  | ret => [named "return"]
  | unreachable => [named "unreachable"]
  | call func args none target => spellCall func args target
  | call func args (some place) target =>
    place.word :: symbol "=" :: spellCall func args target
  | assert cond expected msg target =>
    named "assert" :: symbol "(" :: (cond.spell ++
      (symbol "," :: named (if expected then "true" else "false") :: symbol "," :: (.string, msg) ::
        symbol ")" :: spellTarget target))
  | missing | unknown => []

end Terminator

end Mir

namespace Source

open Mir Text

theorem isIdentifier_numbered (stem : Text) (ident : isIdentifier stem)
    (ascii : ∀ b ∈ stem, b.toNat < 0x80) (n : Nat) : isIdentifier (stem ++ ofNat n) := by
  have digits := isDigits_ofNat n
  have all : ∀ b ∈ stem ++ ofNat n, b.toNat < 0x80 := by
    intro b member
    exact (List.mem_append.mp member).elim (ascii b) (digits.ascii b)
  obtain ⟨c, rest, points, starts, inside⟩ := isIdentifier_iff.mp ident
  have tail : Text.codePoints (stem ++ ofNat n) = c :: (rest ++ Source.points (ofNat n)) := by
    rw [codePoints_ascii all, List.map_append, ← codePoints_ascii ascii, points]
    rfl
  refine isIdentifier_iff.mpr ⟨c, _, tail, starts, ?_⟩
  rw [List.all_append, inside, Bool.true_and]
  refine List.all_eq_true.mpr fun d member => ?_
  exact isNamePoint_of_isDigitPoint (List.all_eq_true.mp (all_points digits) d member)

theorem ofInt_numbered {id : Int} (numbered : Numbered id) : ofInt id = ofNat id.toNat := by
  obtain ⟨n, rfl⟩ := Int.eq_ofNat_of_zero_le numbered.1
  rfl

theorem lexes_local {place : LocalId} (numbered : Numbered place) :
    Lexes [] true place.print [place.word] := by
  refine lexes_keyword ?_
  rw [LocalId.print, ofInt_numbered numbered]
  exact isIdentifier_numbered "_" (by decide) (ascii_of_all (by decide)) _

theorem lexes_block {target : BlockId} (numbered : Numbered target) :
    Lexes [] true target.print [target.word] := by
  refine lexes_keyword ?_
  rw [BlockId.print, ofInt_numbered numbered]
  exact isIdentifier_numbered "bb" (by decide) (ascii_of_all (by decide)) _

theorem lexes_const {value : Const} (isWritten : value.IsWritten) :
    Lexes [] true value.print value.spell := by
  cases value with
  | int value => exact lexes_ofInt value.toInt
  | float value => exact Double.lexes_printFloat isWritten
  | bool value => cases value <;> exact lexes_keyword (by decide)
  | str value => exact (lexes_string value).relax
  | unit => exact (lexes_open.andThen lexes_close).relax
  | unknown => exact isWritten.elim

theorem lexes_operand {op : Operand} (isWritten : op.IsWritten) :
    Lexes [] true op.print op.spell := by
  cases op with
  | copy place => exact (lexes_keyword_blank "copy" (by decide)).andThen (lexes_local isWritten)
  | move place => exact (lexes_keyword_blank "move" (by decide)).andThen (lexes_local isWritten)
  | const value => exact (lexes_keyword_blank "const" (by decide)).andThen (lexes_const isWritten)
  | unknown => exact isWritten.elim

theorem lexes_arguments {ops : List Operand} (each : ∀ op ∈ ops, op.IsWritten) :
    Lexes [] true ("(" ++ Operand.printAll ops) (symbol "(" :: separated (ops.map Operand.spell)) := by
  have inner : Lexes (ops.flatMap fun _ => []) true (Operand.printAll ops)
      (separated (ops.map Operand.spell)) :=
    lexes_joined fun op member => lexes_operand (each op member)
  rw [List.flatMap_eq_nil_iff.mpr fun _ _ => rfl] at inner
  exact lexes_open.andThen inner

theorem lexes_operands {ops : List Operand} (each : ∀ op ∈ ops, op.IsWritten) :
    Lexes [] false ("(" ++ Operand.printAll ops ++ ")") (Operand.spellAll ops) :=
  (lexes_arguments each).append lexes_close fun _ => opens_byte _ (by decide) (by decide)

/-- A local in parentheses after a word. -/
theorem lexes_word_paren {word : Text} {place : LocalId} (lexes : Lexes [] true word [named word])
    (numbered : Numbered place) :
    Lexes [] false (word ++ "(" ++ place.print ++ ")") (named word :: spellParen place) := by
  have start := lexes.append lexes_open fun _ => opens_byte _ (by decide) (by decide)
  have inner := start.andThen (lexes_local numbered)
  exact inner.append lexes_close fun _ => opens_byte _ (by decide) (by decide)

theorem opens_operands (ops : List Operand) : Opens ("(" ++ Operand.printAll ops ++ ")") :=
  opens_byte _ (by decide) (by decide)

theorem lexes_head {head : AggregateHead} (known : head ≠ .unknown)
    (wordlike : ∀ name ∈ head.names, IsWordlike name) :
    Lexes head.names true head.print head.spell := by
  cases head with
  | tuple => exact lexes_keyword (by decide)
  | array => exact lexes_keyword (by decide)
  | struct name =>
      exact (lexes_keyword_blank "struct" (by decide)).andThen (lexes_name (wordlike name (by
        simp [AggregateHead.names])))
  | enum name variant =>
      have word : Lexes [] false "enum " [named "enum"] := lexes_keyword_blank "enum" (by decide)
      have path : Lexes [] false "::" [symbol "::"] := lexes_path
      have start := word.andThen (lexes_name (wordlike name (by simp [AggregateHead.names])))
      have front := start.append path fun _ => opens_byte _ (by decide) (by decide)
      have whole := front.andThen (lexes_ofNat variant.toNat)
      simpa [AggregateHead.print, AggregateHead.names, AggregateHead.spell] using whole
  | unknown => exact absurd rfl known

theorem isIdentifier_binary {op : BinaryOp} (known : op ≠ .unknown) : isIdentifier op.print := by
  cases op <;> first | exact absurd rfl known | decide

theorem isIdentifier_unary {op : UnaryOp} (known : op ≠ .unknown) : isIdentifier op.print := by
  cases op <;> first | exact absurd rfl known | decide

theorem lexes_rvalue {value : RValue} (canonical : value.Canonical)
    (wordlike : ∀ name ∈ value.names, IsWordlike name) :
    Lexes value.names true value.print value.spell := by
  cases value with
  | use value => exact lexes_operand canonical
  | ref place => exact lexes_amp.andThen (lexes_local canonical)
  | binary op left right =>
      obtain ⟨known, first, second⟩ := canonical
      have word := lexes_keyword (isIdentifier_binary known)
      have args : Lexes [] false _ (Operand.spellAll [left, right]) :=
        lexes_operands (by simp [first, second])
      have whole := (word.append args fun _ => opens_operands _).relax
      simpa [RValue.print, RValue.names, RValue.spell, Operand.printAll, joined] using whole
  | unary op value =>
      have word := lexes_keyword (isIdentifier_unary canonical.1)
      have args : Lexes [] false _ (Operand.spellAll [value]) :=
        lexes_operands (by simpa using canonical.2)
      have whole := (word.append args fun _ => opens_operands _).relax
      simpa [RValue.print, RValue.names, RValue.spell, Operand.printAll, joined] using whole
  | aggregate head elems =>
      have start := lexes_head canonical.1 wordlike
      have whole := (start.append (lexes_operands canonical.2) fun _ => opens_operands _).relax
      simpa [RValue.print, RValue.names, RValue.spell] using whole
  | cast value target =>
      have word : Lexes [] false "cast " [named "cast"] := lexes_keyword_blank "cast" (by decide)
      have gap : Lexes [] false " as " [named "as"] :=
        lexes_blank.andThen (lexes_keyword_blank "as" (by decide))
      have front := (word.andThen (lexes_operand canonical.1)).append gap fun _ =>
        opens_byte _ (by decide) (by decide)
      have whole := front.andThen (lexes_type canonical.2 wordlike)
      simpa [RValue.print, RValue.names, RValue.spell] using whole
  | len place =>
      have word : Lexes [] true "len" [named "len"] := lexes_keyword (by decide)
      exact (lexes_word_paren word canonical).relax
  | discriminant place =>
      have word : Lexes [] true "discriminant" [named "discriminant"] := lexes_keyword (by decide)
      exact (lexes_word_paren word canonical).relax
  | unknown => exact canonical.elim

/-- An equals sign with blanks around it. -/
theorem lexes_equals : Lexes [] false " = " [symbol "="] :=
  (lexes_blank.andThen (lexes_symbol (by decide))).andThen lexes_blank

theorem lexes_statement {s : Statement} (canonical : s.Canonical)
    (wordlike : ∀ name ∈ s.names, IsWordlike name) :
    Lexes s.names true s.print s.spell := by
  cases s with
  | assign dst src =>
      have front := (lexes_local canonical.1).append lexes_equals fun _ =>
        opens_byte _ (by decide) (by decide)
      have whole := front.andThen (lexes_rvalue canonical.2 wordlike)
      simpa [Statement.print, Statement.names, Statement.spell] using whole
  | drop place =>
      have word : Lexes [] true "drop" [named "drop"] := lexes_keyword (by decide)
      exact (lexes_word_paren word canonical).relax
  | nop => exact lexes_keyword (by decide)
  | unknown => exact canonical.elim

/-- The arrow to a block, after a closing parenthesis. -/
theorem lexes_close_target {target : BlockId} (numbered : Numbered target) :
    Lexes [] true (") -> " ++ target.print) (symbol ")" :: Terminator.spellTarget target) :=
  lexes_goes.andThen (lexes_block numbered)

theorem lexes_call {func : Text} {args : List Operand} {target : BlockId}
    (wordlike : IsWordlike func) (each : ∀ op ∈ args, op.IsWritten) (numbered : Numbered target) :
    Lexes [func] true (func ++ "(" ++ Operand.printAll args ++ ") -> " ++ target.print)
      (Terminator.spellCall func args target) := by
  have front := (lexes_name wordlike).append (lexes_arguments each) fun _ =>
    opens_byte _ (by decide) (by decide)
  have whole := front.append (lexes_close_target numbered) fun _ =>
    opens_byte _ (by decide) (by decide)
  simpa [Terminator.spellCall, Operand.spellAll] using whole

theorem lexes_case {c : SwitchCase} (numbered : Numbered c.target) :
    Lexes [] false (Terminator.printCase c) (Terminator.spellCase c) := by
  have colon : Lexes [] false ": " [symbol ":"] := lexes_colon
  have front := (lexes_ofInt c.value.toInt).append colon fun _ =>
    opens_byte _ (by decide) (by decide)
  exact (front.andThen (lexes_block numbered)).append lexes_comma fun _ =>
    opens_byte _ (by decide) (by decide)

theorem lexes_cases {cases : List SwitchCase} (numbered : ∀ c ∈ cases, Numbered c.target)
    {rest : Text} {words : List Word} {loose : Bool} (tail : Lexes [] loose rest words) :
    Lexes [] loose (cases.flatMap Terminator.printCase ++ rest)
      (cases.flatMap Terminator.spellCase ++ words) := by
  induction cases with
  | nil => exact tail
  | cons c more ih =>
      have others := ih fun d member => numbered d (List.mem_cons_of_mem c member)
      have whole := (lexes_case (numbered c (List.mem_cons_self ..))).andThen others
      simpa using whole

theorem lexes_truth (value : Bool) :
    Lexes [] true (Text.ofString (if value then "true" else "false"))
      [named (if value then "true" else "false")] := by
  cases value <;> exact lexes_keyword (by decide)

theorem lexes_terminator {t : Terminator} (canonical : t.Canonical)
    (wordlike : ∀ name ∈ t.names, IsWordlike name) :
    Lexes t.names true t.print t.spell := by
  cases t with
  | goto target =>
      have word : Lexes [] false "goto -> " [named "goto", symbol "->"] :=
        ((lexes_keyword_blank "goto" (by decide)).andThen lexes_arrow).andThen lexes_blank
      exact word.andThen (lexes_block canonical)
  | switchInt discr cases otherwise =>
      obtain ⟨isWritten, numbered, last⟩ := canonical
      have word : Lexes [] false "switchInt(" [named "switchInt", symbol "("] :=
        lexes_keyword_open "switchInt" (by decide)
      have opened : Lexes [] false ") -> [" [symbol ")", symbol "->", symbol "["] :=
        lexes_goes.andThen (lexes_symbol (by decide))
      have other : Lexes [] false "otherwise: " [named "otherwise", symbol ":"] :=
        (lexes_keyword (show isIdentifier "otherwise" by decide)).append lexes_colon fun _ =>
          opens_byte _ (by decide) (by decide)
      have closed : Lexes [] false "]" [symbol "]"] := lexes_symbol (by decide)
      have tail := (other.andThen (lexes_block last)).append closed fun _ =>
        opens_byte _ (by decide) (by decide)
      have front := (word.andThen (lexes_operand isWritten)).append opened fun _ =>
        opens_byte _ (by decide) (by decide)
      have whole := (front.andThen (lexes_cases numbered tail)).relax
      simpa [Terminator.print, Terminator.names, Terminator.spell] using whole
  | ret => exact lexes_keyword (by decide)
  | unreachable => exact lexes_keyword (by decide)
  | call func args dst target =>
      obtain ⟨each, places, _, numbered⟩ := canonical
      have line := lexes_call (wordlike func (by simp [Terminator.names])) each numbered
      cases dst with
      | none => exact line
      | some place =>
          have front := (lexes_local (places place rfl)).append lexes_equals fun _ =>
            opens_byte _ (by decide) (by decide)
          have whole := front.andThen line
          simpa [Terminator.print, Terminator.names, Terminator.spell] using whole
  | assert cond expected msg target =>
      obtain ⟨isWritten, numbered⟩ := canonical
      have word : Lexes [] false "assert(" [named "assert", symbol "("] :=
        lexes_keyword_open "assert" (by decide)
      have truth := (word.andThen (lexes_operand isWritten)).append
        (lexes_comma.andThen (lexes_truth expected)) fun _ => opens_byte _ (by decide) (by decide)
      have message := truth.append (lexes_comma.andThen (lexes_string msg)) fun _ =>
        opens_byte _ (by decide) (by decide)
      have whole := message.andThen (lexes_close_target numbered)
      simpa [Terminator.print, Terminator.names, Terminator.spell] using whole
  | missing => exact canonical.elim
  | unknown => exact canonical.elim

end Source

end BorrowChecker
