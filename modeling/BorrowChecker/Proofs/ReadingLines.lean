import BorrowChecker.Proofs.Reading

/-!
Reading the words of a statement or a terminator gives it back, its names in composed form, as long
as no type in it is ambiguous.
-/

namespace BorrowChecker

open Source

namespace Mir

namespace AggregateHead

def composed : AggregateHead → AggregateHead
  | struct name => struct name.normalize
  | enum name variant => enum name.normalize variant
  | tuple => tuple
  | array => array
  | unknown => unknown

end AggregateHead

namespace RValue

def isClear : RValue → Bool
  | cast _ target => target.isClear
  | use _ | ref _ | binary .. | unary .. | aggregate .. | len _ | discriminant _ | unknown => true

def composed : RValue → RValue
  | aggregate head elems => aggregate head.composed elems
  | cast value target => cast value target.composed
  | use value => use value
  | ref place => ref place
  | binary op left right => binary op left right
  | unary op value => unary op value
  | len place => len place
  | discriminant place => discriminant place
  | unknown => unknown

end RValue

namespace Statement

def isClear : Statement → Bool
  | assign _ src => src.isClear
  | drop _ | nop | unknown => true

def composed : Statement → Statement
  | assign dst src => assign dst src.composed
  | drop place => drop place
  | nop => nop
  | unknown => unknown

end Statement

namespace Terminator

def composed : Terminator → Terminator
  | call func args dst target => call func.normalize args dst target
  | missing => missing
  | goto target => goto target
  | switchInt discr cases otherwise => switchInt discr cases otherwise
  | ret => ret
  | unreachable => unreachable
  | assert cond expected msg target => assert cond expected msg target
  | unknown => unknown

end Terminator

end Mir

namespace Source

open Mir Text

variable {words : List Word} {tokens rest : List Token}

section Words

variable {word : Text}

theorem reads_symbol (spells : Spells (symbol word :: words) tokens rest) :
    ∃ t left, taken? (expect word tokens) = some (t, left) ∧ Spells words left rest := by
  obtain ⟨pos, left, rfl, behind⟩ := spells_symbol.mp spells
  exact ⟨⟨.punct, word, pos⟩, left, by simp, behind⟩

theorem reads_kind {kind : TokenKind} (spells : Spells ((kind, word) :: words) tokens rest) :
    ∃ pos left, taken? (expectKind kind tokens) = some (⟨kind, word, pos⟩, left) ∧
      Spells words left rest := by
  obtain ⟨pos, left, rfl, behind⟩ := spells_cons.mp spells
  exact ⟨pos, left, by simp, behind⟩

theorem startsWith_print (place : LocalId) : place.print.startsWith "_" := by
  have prefixed : ("_" : Text) = [95] := by decide
  rw [LocalId.print, prefixed]
  simp [startsWith]

theorem local?_word {place : LocalId} (numbered : Numbered place) (pos : Nat) :
    local? ⟨.ident, place.print, pos⟩ = some place := by
  rw [local?, if_pos ⟨rfl, startsWith_print place⟩]
  obtain ⟨n, rfl⟩ := Int.eq_ofNat_of_zero_le numbered.1
  have small : n < 0x80000000 := by
    have := numbered.2
    omega
  have text : LocalId.print (n : Int) = 95 :: ofNat n := rfl
  rw [text, List.drop_one, List.tail_cons, toNat?_ofNat]
  simp [small]

theorem reads_local {place : LocalId} (numbered : Numbered place)
    (spells : Spells (place.word :: words) tokens rest) :
    ∃ left, taken? (takeLocal tokens) = some (place, left) ∧ Spells words left rest := by
  obtain ⟨pos, left, rfl, behind⟩ := spells_named.mp spells
  exact ⟨left, by rw [taken?_takeLocal, local?_word numbered]; rfl, behind⟩

/-- A local starts no keyword. -/
theorem local_isWord {place : LocalId} (numbered : Numbered place) {pos : Nat}
    (other : word.head? ≠ some 95) : Token.isWord word ⟨.ident, place.print, pos⟩ = false := by
  have different : place.print ≠ word := by
    rintro rfl
    rw [LocalId.print, ofInt_numbered numbered] at other
    exact other rfl
  simp [different]

theorem block?_word {target : BlockId} (numbered : Numbered target) :
    block? noLabels target.print = some target := by
  obtain ⟨n, rfl⟩ := Int.eq_ofNat_of_zero_le numbered.1
  have small : n < 0x80000000 := by
    have := numbered.2
    omega
  have cut : cutStart "bb" (BlockId.print (n : Int)) = some (ofNat n) := by
    have prefixed : ("bb" : Text) = [98, 98] := by decide
    have text : BlockId.print (n : Int) = [98, 98] ++ ofNat n := rfl
    rw [cutStart, prefixed, text, if_pos (by simp)]
    simp
  have numbered : numberedBlock? (BlockId.print (n : Int)) = some (n : Int) := by
    rw [numberedBlock?, cut]
    simp [toNat?_ofNat, small]
  rw [block?, numbered]
  rfl

theorem reads_block {target : BlockId} (numbered : Numbered target)
    (spells : Spells (target.word :: words) tokens rest) :
    ∃ left, taken? (takeBlock noLabels tokens) = some (target, left) ∧ Spells words left rest := by
  obtain ⟨pos, left, found, behind⟩ := reads_kind spells
  exact ⟨left, by rw [taken?_takeBlock, found]; simp [block?_word numbered], behind⟩

theorem reads_paren {place : LocalId} (numbered : Numbered place)
    (spells : Spells (spellParen place ++ words) tokens rest) :
    ∃ left, taken? (takeParenLocal tokens) = some (place, left) ∧ Spells words left rest := by
  obtain ⟨_, first, opened, spells⟩ := reads_symbol spells
  obtain ⟨second, named, spells⟩ := reads_local numbered spells
  obtain ⟨_, left, closed, behind⟩ := reads_symbol spells
  exact ⟨left, by rw [taken?_takeParenLocal, opened]; simp [named, closed], behind⟩

end Words

section Operands

theorem reads_const {value : Const} (isWritten : value.IsWritten)
    (spells : Spells (value.spell ++ words) tokens rest) :
    ∃ left, taken? (takeConst tokens) = some (value, left) ∧ Spells words left rest := by
  cases value with
  | int value =>
      obtain ⟨pos, left, rfl, behind⟩ := spells_cons.mp spells
      have read : numberConst ⟨.int, ofInt value.toInt, pos⟩ = .ok (.int value) := by
        simp [numberConst, readSigned_ofInt]
      exact ⟨left, by rw [taken?_takeConst, read]; rfl, behind⟩
  | float value =>
      obtain ⟨pos, left, rfl, behind⟩ := spells_cons.mp spells
      have read : numberConst ⟨.float, Const.printFloat value, pos⟩ = .ok (.float value) := by
        simp [numberConst, Double.read_printFloat isWritten]
      exact ⟨left, by rw [taken?_takeConst, read]; rfl, behind⟩
  | bool value =>
      obtain ⟨pos, left, rfl, behind⟩ := spells_named.mp spells
      exact ⟨left, by rw [taken?_takeConst]; cases value <;> simp +decide, behind⟩
  | str value =>
      obtain ⟨pos, left, rfl, behind⟩ := spells_cons.mp spells
      exact ⟨left, by rw [taken?_takeConst]; simp, behind⟩
  | unit =>
      obtain ⟨pos, tail, rfl, inner⟩ := spells_symbol.mp spells
      obtain ⟨_, left, closed, behind⟩ := reads_symbol inner
      exact ⟨left, by rw [taken?_takeConst]; simp +decide [closed], behind⟩
  | unknown => exact isWritten.elim

theorem reads_operand {op : Operand} (isWritten : op.IsWritten)
    (spells : Spells (op.spell ++ words) tokens rest) :
    ∃ left, taken? (takeOperand tokens) = some (op, left) ∧ Spells words left rest := by
  rw [taken?_takeOperand]
  cases op with
  | copy place =>
      obtain ⟨pos, tail, rfl, inner⟩ := spells_named.mp spells
      obtain ⟨left, read, behind⟩ := reads_local isWritten inner
      exact ⟨left, by simp +decide [read], behind⟩
  | move place =>
      obtain ⟨pos, tail, rfl, inner⟩ := spells_named.mp spells
      obtain ⟨left, read, behind⟩ := reads_local isWritten inner
      exact ⟨left, by simp +decide [read], behind⟩
  | const value =>
      obtain ⟨pos, tail, rfl, inner⟩ := spells_named.mp spells
      obtain ⟨left, read, behind⟩ := reads_const isWritten inner
      exact ⟨left, by simp +decide [read], behind⟩
  | unknown => exact isWritten.elim

/-- An operand starts with its keyword. -/
theorem operand_starts {op : Operand} (isWritten : op.IsWritten)
    (spells : Spells (op.spell ++ words) tokens rest) : nextIsWord ")" tokens = false := by
  cases op with
  | copy place | move place | const value =>
      obtain ⟨pos, tail, rfl, _⟩ := spells_named.mp spells
      simp +decide
  | unknown => exact isWritten.elim

theorem reads_operandsTail {ops : List Operand} (each : ∀ op ∈ ops, op.IsWritten)
    (spells : Spells (separated (ops.map Operand.spell) ++ (symbol ")" :: words)) tokens rest) :
    ∃ left, taken? (takeOperandsTail tokens) = some (ops, left) ∧ Spells words left rest := by
  induction ops generalizing tokens with
  | nil =>
      obtain ⟨pos, left, rfl, behind⟩ := spells_symbol.mp spells
      exact ⟨left, by rw [taken?_takeOperandsTail]; simp, behind⟩
  | cons op more ih =>
      have isWritten := each op (List.mem_cons_self ..)
      rw [taken?_takeOperandsTail]
      cases more with
      | nil =>
          have first : Spells (op.spell ++ (symbol ")" :: words)) tokens rest := by
            simpa [separated, List.intercalate] using spells
          obtain ⟨after, read, spells⟩ := reads_operand isWritten first
          obtain ⟨pos, left, rfl, behind⟩ := spells_symbol.mp spells
          exact ⟨left, by simp +decide [operand_starts isWritten first, read], behind⟩
      | cons next others =>
          rw [List.map_cons, List.map_cons, separated_cons_cons, List.append_assoc,
            List.append_assoc, List.singleton_append] at spells
          obtain ⟨after, read, behind⟩ := reads_operand isWritten spells
          obtain ⟨pos, tail, rfl, inner⟩ := spells_symbol.mp behind
          obtain ⟨left, tailRead, ended⟩ :=
            ih (fun op member => each op (List.mem_cons_of_mem _ member)) inner
          exact ⟨left, by simp +decide [operand_starts isWritten spells, read, tailRead], ended⟩

theorem reads_operands {ops : List Operand} (each : ∀ op ∈ ops, op.IsWritten)
    (spells : Spells (Operand.spellAll ops ++ words) tokens rest) :
    ∃ left, taken? (takeOperands tokens) = some (ops, left) ∧ Spells words left rest := by
  rw [Operand.spellAll, List.cons_append, List.append_assoc, List.singleton_append] at spells
  obtain ⟨_, inside, opened, inner⟩ := reads_symbol spells
  obtain ⟨left, read, behind⟩ := reads_operandsTail each inner
  exact ⟨left, by rw [taken?_takeOperands, opened]; simp [read], behind⟩

end Operands

section Values

/-- A value that starts with a name other than those of operands. -/
theorem taken?_takeRValue_named {text : Text} {pos : Nat} {tail : List Token}
    (other : text ∉ (["&", "copy", "move", "const"] : List Text)) :
    taken? (takeRValue (⟨.ident, text, pos⟩ :: tail)) =
      taken? (takeNamedValue ⟨.ident, text, pos⟩ tail) := by
  simp only [List.mem_cons, List.not_mem_nil, or_false, not_or] at other
  obtain ⟨amp, copy, move, const⟩ := other
  rw [taken?_takeRValue]
  simp [amp, copy, move, const]

/-- The names that operations share with no other value. -/
theorem ofName?_print {op : BinaryOp} (known : op ≠ .unknown) :
    BinaryOp.ofName? op.print = some op ∧ op.print ∉ (["&", "copy", "move", "const", "cast", "len",
      "discriminant", "tuple", "array", "struct", "enum", "Neg", "Not"] : List Text) := by
  cases op <;> first | exact absurd rfl known | decide

theorem reads_binary {op : BinaryOp} {left right : Operand} (known : op ≠ .unknown)
    (first : left.IsWritten) (second : right.IsWritten)
    (spells : Spells (RValue.spell (.binary op left right)) tokens rest) :
    taken? (takeRValue tokens) = some (.binary op left right, rest) := by
  rw [RValue.spell, ← List.append_nil (Operand.spellAll _)] at spells
  obtain ⟨pos, tail, rfl, inner⟩ := spells_named.mp spells
  obtain ⟨after, read, behind⟩ := reads_operands (by simp [first, second]) inner
  obtain rfl := spells_nil.mp behind
  obtain ⟨found, other⟩ := ofName?_print known
  simp only [List.mem_cons, List.not_mem_nil, or_false, not_or] at other
  rw [taken?_takeRValue_named (by simp [other]), taken?_takeNamedValue]
  simp [other, found, read, binary?]

theorem reads_unary {op : UnaryOp} {value : Operand} (known : op ≠ .unknown)
    (isWritten : value.IsWritten) (spells : Spells (RValue.spell (.unary op value)) tokens rest) :
    taken? (takeRValue tokens) = some (.unary op value, rest) := by
  rw [RValue.spell, ← List.append_nil (Operand.spellAll _)] at spells
  obtain ⟨pos, tail, rfl, inner⟩ := spells_named.mp spells
  obtain ⟨after, read, behind⟩ := reads_operands (by simpa using isWritten) inner
  obtain rfl := spells_nil.mp behind
  have other : op.print ∉ (["&", "copy", "move", "const"] : List Text) := by
    cases op <;> first | exact absurd rfl known | decide
  rw [taken?_takeRValue_named other, taken?_takeNamedValue]
  cases op with
  | neg => simp +decide [UnaryOp.print, read, unary?]
  | not => simp +decide [UnaryOp.print, read, unary?]
  | unknown => exact absurd rfl known

theorem reads_aggregate {head : AggregateHead} {elems : List Operand} (known : head ≠ .unknown)
    (each : ∀ op ∈ elems, op.IsWritten)
    (spells : Spells (RValue.spell (.aggregate head elems)) tokens rest) :
    taken? (takeRValue tokens) = some (.aggregate head.composed elems, rest) := by
  rw [RValue.spell, ← List.append_nil (Operand.spellAll _)] at spells
  cases head with
  | tuple =>
      obtain ⟨pos, tail, rfl, inner⟩ := spells_named.mp spells
      obtain ⟨after, read, behind⟩ := reads_operands each inner
      obtain rfl := spells_nil.mp behind
      rw [taken?_takeRValue_named (by decide), taken?_takeNamedValue]
      simp +decide [taken?_takeAggregate, read, AggregateHead.composed]
  | array =>
      obtain ⟨pos, tail, rfl, inner⟩ := spells_named.mp spells
      obtain ⟨after, read, behind⟩ := reads_operands each inner
      obtain rfl := spells_nil.mp behind
      rw [taken?_takeRValue_named (by decide), taken?_takeNamedValue]
      simp +decide [taken?_takeAggregate, read, AggregateHead.composed]
  | struct name =>
      obtain ⟨pos, tail, rfl, inner⟩ := spells_named.mp spells
      obtain ⟨next, behind, found, args⟩ := reads_kind inner
      obtain ⟨after, read, last⟩ := reads_operands each args
      obtain rfl := spells_nil.mp last
      rw [taken?_takeRValue_named (by decide), taken?_takeNamedValue]
      simp +decide [taken?_takeAggregate, struct?, found, read, AggregateHead.composed]
  | enum name variant =>
      obtain ⟨pos, tail, rfl, inner⟩ := spells_named.mp spells
      obtain ⟨next, behind, found, path⟩ := reads_kind inner
      obtain ⟨_, digits, sep, number⟩ := reads_symbol path
      obtain ⟨at_, behind, rfl, args⟩ := spells_cons.mp number
      obtain ⟨after, read, last⟩ := reads_operands each args
      obtain rfl := spells_nil.mp last
      have small : variant.toNat < 0x100000000 := variant.toNat_lt
      have chosen : variantOf ⟨.int, Text.ofNat variant.toNat, at_⟩ = .ok variant := by
        have fits : variant.toNat < Nat.pow 2 64 := Nat.lt_trans small (by decide)
        simp [variantOf, readUnsigned_ofNat fits, small]
      rw [taken?_takeRValue_named (by decide), taken?_takeNamedValue]
      simp +decide [taken?_takeAggregate, enum?, found, sep, chosen, read, AggregateHead.composed,
        Except.toOption]
  | unknown => exact absurd rfl known

/-- The words of a value read as the value in composed form; a cast to a type that is not clear reads
as nothing when no type follows. -/
theorem reads_rvalue {value : RValue} (canonical : value.Canonical)
    (idents : ∀ name ∈ value.names, isIdentifier name)
    (spells : Spells value.spell tokens rest) (ended : taken? (takeType rest) = none) :
    taken? (takeRValue tokens) = if value.isClear then some (value.composed, rest) else none := by
  cases value with
  | use value =>
      rw [RValue.spell, ← List.append_nil value.spell] at spells
      obtain ⟨left, read, behind⟩ := reads_operand canonical spells
      obtain rfl := spells_nil.mp behind
      rw [taken?_takeRValue]
      cases value with
      | copy place | move place | const value =>
          obtain ⟨pos, tail, rfl, _⟩ := spells_named.mp spells
          simp +decide [read, RValue.isClear, RValue.composed]
      | unknown => exact canonical.elim
  | ref place =>
      obtain ⟨pos, tail, rfl, inner⟩ := spells_symbol.mp spells
      obtain ⟨left, read, behind⟩ := reads_local canonical inner
      obtain rfl := spells_nil.mp behind
      rw [taken?_takeRValue]
      simp +decide [read, RValue.isClear, RValue.composed]
  | binary op left right =>
      rw [reads_binary canonical.1 canonical.2.1 canonical.2.2 spells]
      rfl
  | unary op value =>
      rw [reads_unary canonical.1 canonical.2 spells]
      rfl
  | aggregate head elems =>
      rw [reads_aggregate canonical.1 canonical.2 spells]
      rfl
  | cast value target =>
      obtain ⟨pos, tail, rfl, inner⟩ := spells_named.mp spells
      obtain ⟨left, read, behind⟩ := reads_operand canonical.1 inner
      obtain ⟨next, left, rfl, last⟩ := spells_named.mp behind
      have typed := readsType canonical.2 idents _ _ last (.inr ended)
      rw [taken?_takeRValue_named (by decide), taken?_takeNamedValue]
      by_cases clear : target.isClear
      · simp +decide [read, typed, clear, RValue.isClear, RValue.composed]
      · simp +decide [read, typed, clear, RValue.isClear]
  | len place =>
      obtain ⟨pos, tail, rfl, inner⟩ := spells_named.mp spells
      rw [← List.append_nil (spellParen place)] at inner
      obtain ⟨left, read, behind⟩ := reads_paren canonical inner
      obtain rfl := spells_nil.mp behind
      rw [taken?_takeRValue_named (by decide), taken?_takeNamedValue]
      simp +decide [read, RValue.isClear, RValue.composed]
  | discriminant place =>
      obtain ⟨pos, tail, rfl, inner⟩ := spells_named.mp spells
      rw [← List.append_nil (spellParen place)] at inner
      obtain ⟨left, read, behind⟩ := reads_paren canonical inner
      obtain rfl := spells_nil.mp behind
      rw [taken?_takeRValue_named (by decide), taken?_takeNamedValue]
      simp +decide [read, RValue.isClear, RValue.composed]
  | unknown => exact canonical.elim

theorem reads_statement {s : Statement} (canonical : s.Canonical)
    (idents : ∀ name ∈ s.names, isIdentifier name)
    (spells : Spells s.spell tokens rest) (ended : taken? (takeType rest) = none) :
    taken? (takeStatement tokens) = if s.isClear then some (s.composed, rest) else none := by
  rw [taken?_takeStatement]
  cases s with
  | assign dst src =>
      obtain ⟨left, place, behind⟩ := reads_local canonical.1 spells
      obtain ⟨_, after, equals, last⟩ := reads_symbol behind
      have value := reads_rvalue canonical.2 idents last ended
      obtain ⟨noNop, noDrop⟩ : nextIsWord "nop" tokens = false ∧ nextIsWord "drop" tokens = false := by
        obtain ⟨pos, tail, rfl, _⟩ := spells_named.mp spells
        exact ⟨local_isWord canonical.1 (by decide), local_isWord canonical.1 (by decide)⟩
      by_cases clear : src.isClear
      · simp [noNop, noDrop, place, equals, value, clear, Statement.isClear, Statement.composed]
      · simp [noNop, noDrop, place, equals, value, clear, Statement.isClear]
  | drop place =>
      obtain ⟨pos, tail, rfl, inner⟩ := spells_named.mp spells
      rw [← List.append_nil (spellParen place)] at inner
      obtain ⟨left, read, behind⟩ := reads_paren canonical inner
      obtain rfl := spells_nil.mp behind
      simp +decide [read, Statement.isClear, Statement.composed]
  | nop =>
      obtain ⟨pos, tail, rfl, behind⟩ := spells_named.mp spells
      obtain rfl := spells_nil.mp behind
      simp +decide [Statement.composed]
  | unknown => exact canonical.elim

end Values

section Terminators

theorem reads_target {target : BlockId} (numbered : Numbered target)
    (spells : Spells (Terminator.spellTarget target ++ words) tokens rest) :
    ∃ left, taken? (takeTarget noLabels tokens) = some (target, left) ∧ Spells words left rest := by
  obtain ⟨_, behind, arrow, inner⟩ := reads_symbol spells
  obtain ⟨left, read, last⟩ := reads_block numbered inner
  exact ⟨left, by rw [taken?_takeTarget, arrow]; simp [read], last⟩

theorem reads_cases {cases : List SwitchCase} {otherwise : BlockId}
    (numbered : ∀ c ∈ cases, Numbered c.target) (last : Numbered otherwise)
    (spells : Spells (cases.flatMap Terminator.spellCase ++
      (named "otherwise" :: symbol ":" :: otherwise.word :: words)) tokens rest) :
    ∃ left, taken? (takeCases noLabels tokens) = some ((cases, otherwise), left) ∧
      Spells words left rest := by
  induction cases generalizing tokens with
  | nil =>
      obtain ⟨pos, tail, rfl, inner⟩ := spells_named.mp spells
      obtain ⟨_, behind, colon, inner⟩ := reads_symbol inner
      obtain ⟨left, read, ended⟩ := reads_block last inner
      exact ⟨left, by rw [taken?_takeCases]; simp +decide [colon, read], ended⟩
  | cons c more ih =>
      rw [List.flatMap_cons, List.append_assoc] at spells
      obtain ⟨pos, tail, rfl, inner⟩ := spells_cons.mp spells
      obtain ⟨_, behind, colon, inner⟩ := reads_symbol inner
      obtain ⟨behind, read, inner⟩ := reads_block (numbered c (List.mem_cons_self ..)) inner
      obtain ⟨_, behind, comma, inner⟩ := reads_symbol inner
      obtain ⟨left, others, ended⟩ :=
        ih (fun d member => numbered d (List.mem_cons_of_mem c member)) inner
      have value : caseValue ⟨.int, Text.ofInt c.value.toInt, pos⟩ = .ok c.value := by
        simp [caseValue, readSigned_ofInt]
      exact ⟨left, by
        rw [taken?_takeCases]
        simp [value, colon, read, comma, others, Except.toOption], ended⟩

theorem reads_switch {discr : Operand} {cases : List SwitchCase} {otherwise : BlockId}
    (canonical : (Terminator.switchInt discr cases otherwise).Canonical)
    (spells : Spells (Terminator.switchInt discr cases otherwise).spell tokens rest) :
    taken? (takeTerminator noLabels tokens) = some (.switchInt discr cases otherwise, rest) := by
  obtain ⟨isWritten, numbered, last⟩ := canonical
  obtain ⟨pos, tail, rfl, inner⟩ := spells_named.mp spells
  obtain ⟨_, behind, opened, inner⟩ := reads_symbol inner
  obtain ⟨behind, value, inner⟩ := reads_operand isWritten inner
  obtain ⟨_, behind, closed, inner⟩ := reads_symbol inner
  obtain ⟨_, behind, arrow, inner⟩ := reads_symbol inner
  obtain ⟨_, behind, bracket, inner⟩ := reads_symbol inner
  obtain ⟨behind, chosen, inner⟩ := reads_cases numbered last inner
  obtain ⟨_, left, final, ended⟩ := reads_symbol inner
  obtain rfl := spells_nil.mp ended
  rw [taken?_takeTerminator]
  simp +decide [taken?_takeSwitch, opened, value, closed, arrow, bracket, chosen, final]

theorem reads_truth {value : Bool}
    (spells : Spells (named (if value then "true" else "false") :: words) tokens rest) :
    ∃ left, taken? (takeTruth tokens) = some (value, left) ∧ Spells words left rest := by
  obtain ⟨pos, left, rfl, behind⟩ := spells_named.mp spells
  refine ⟨left, ?_, behind⟩
  rw [taken?_takeTruth]
  cases value <;> simp +decide

theorem reads_assert {cond : Operand} {expected : Bool} {msg : Text} {target : BlockId}
    (canonical : (Terminator.assert cond expected msg target).Canonical)
    (spells : Spells (Terminator.assert cond expected msg target).spell tokens rest) :
    taken? (takeTerminator noLabels tokens) = some (.assert cond expected msg target, rest) := by
  obtain ⟨isWritten, numbered⟩ := canonical
  rw [Terminator.spell, ← List.append_nil (Terminator.spellTarget target)] at spells
  obtain ⟨pos, tail, rfl, inner⟩ := spells_named.mp spells
  obtain ⟨_, behind, opened, inner⟩ := reads_symbol inner
  obtain ⟨behind, value, inner⟩ := reads_operand isWritten inner
  obtain ⟨_, behind, comma, inner⟩ := reads_symbol inner
  obtain ⟨behind, truth, inner⟩ := reads_truth inner
  obtain ⟨_, behind, comma₂, inner⟩ := reads_symbol inner
  obtain ⟨_, behind, text, inner⟩ := reads_kind inner
  obtain ⟨_, behind, closed, inner⟩ := reads_symbol inner
  obtain ⟨left, goal, ended⟩ := reads_target numbered inner
  obtain rfl := spells_nil.mp ended
  rw [taken?_takeTerminator]
  simp +decide [taken?_takeAssert, opened, value, comma, truth, comma₂, text, closed, goal]

theorem reads_call {func : Text} {args : List Operand} {dst : Option LocalId} {target : BlockId}
    (each : ∀ op ∈ args, op.IsWritten) (numbered : Numbered target)
    (spells : Spells (Terminator.spellCall func args target) tokens rest) :
    taken? (takeCall noLabels dst tokens) = some (.call func.normalize args dst target, rest) := by
  rw [Terminator.spellCall, ← List.append_nil (Terminator.spellTarget target)] at spells
  obtain ⟨pos, behind, name, inner⟩ := reads_kind spells
  obtain ⟨behind, ops, inner⟩ := reads_operands each inner
  obtain ⟨left, goal, ended⟩ := reads_target numbered inner
  obtain rfl := spells_nil.mp ended
  rw [taken?_takeCall, name]
  simp [ops, goal]

theorem reads_plainCall {func : Text} {args : List Operand} {target : BlockId}
    (canonical : (Terminator.call func args none target).Canonical)
    (spells : Spells (Terminator.call func args none target).spell tokens rest) :
    taken? (takeTerminator noLabels tokens) = some (.call func.normalize args none target, rest) := by
  obtain ⟨each, _, free, numbered⟩ := canonical
  have called : taken? (takeCall noLabels none tokens) = some (_, rest) :=
    reads_call each numbered spells
  have other := free rfl
  simp only [Terminator.keywords, List.mem_cons, List.not_mem_nil, or_false, not_or] at other
  obtain ⟨pos, tail, rfl, inner⟩ := spells_named.mp spells
  obtain ⟨next, behind, rfl, _⟩ := spells_symbol.mp inner
  have plain : hasDestination (⟨.ident, func, pos⟩ :: ⟨.punct, "(", next⟩ :: behind) = false := by
    simp +decide [hasDestination]
  rw [taken?_takeTerminator, taken?_takeCallLine]
  simp [other, plain, called]

theorem reads_storedCall {func : Text} {args : List Operand} {place : LocalId} {target : BlockId}
    (canonical : (Terminator.call func args (some place) target).Canonical)
    (spells : Spells (Terminator.call func args (some place) target).spell tokens rest) :
    taken? (takeTerminator noLabels tokens) =
      some (.call func.normalize args (some place) target, rest) := by
  obtain ⟨each, places, _, numbered⟩ := canonical
  have valid := places place rfl
  obtain ⟨pos, tail, rfl, inner⟩ := spells_named.mp spells
  obtain ⟨next, behind, rfl, last⟩ := spells_symbol.mp inner
  have called : taken? (takeCall noLabels (some place) behind) = some (_, rest) :=
    reads_call each numbered last
  have given : hasDestination (⟨.ident, place.print, pos⟩ :: ⟨.punct, "=", next⟩ :: behind) := by
    simp [hasDestination, startsWith_print]
  have other : ∀ word ∈ Terminator.keywords,
      Token.isWord word ⟨.ident, place.print, pos⟩ = false := by
    intro word member
    apply local_isWord valid
    have heads : ∀ word ∈ Terminator.keywords, word.head? ≠ some 95 := by decide
    exact heads word member
  rw [taken?_takeTerminator, taken?_takeCallLine]
  simp only [nextIsWord_cons, other _ (show Text.ofString "return" ∈ _ by decide),
    other _ (show Text.ofString "unreachable" ∈ _ by decide),
    other _ (show Text.ofString "goto" ∈ _ by decide),
    other _ (show Text.ofString "switchInt" ∈ _ by decide),
    other _ (show Text.ofString "assert" ∈ _ by decide), Bool.false_eq_true, if_false]
  rw [if_pos given, taken?_takeLocal, local?_word valid]
  exact congrArg (Option.map fun x => (x.1, x.2)) called

theorem reads_terminator {t : Terminator} (canonical : t.Canonical)
    (idents : ∀ name ∈ t.names, isIdentifier name) (spells : Spells t.spell tokens rest) :
    taken? (takeTerminator noLabels tokens) = some (t.composed, rest) := by
  cases t with
  | goto target =>
      rw [Terminator.spell, ← List.append_nil (Terminator.spellTarget target)] at spells
      obtain ⟨pos, tail, rfl, inner⟩ := spells_named.mp spells
      obtain ⟨left, goal, ended⟩ := reads_target canonical inner
      obtain rfl := spells_nil.mp ended
      rw [taken?_takeTerminator]
      simp +decide [goal, Terminator.composed]
  | switchInt discr cases otherwise => exact reads_switch canonical spells
  | ret =>
      obtain ⟨pos, tail, rfl, ended⟩ := spells_named.mp spells
      obtain rfl := spells_nil.mp ended
      rw [taken?_takeTerminator]
      simp +decide [Terminator.composed]
  | unreachable =>
      obtain ⟨pos, tail, rfl, ended⟩ := spells_named.mp spells
      obtain rfl := spells_nil.mp ended
      rw [taken?_takeTerminator]
      simp +decide [Terminator.composed]
  | call func args dst target =>
      cases dst with
      | none => exact reads_plainCall canonical spells
      | some place => exact reads_storedCall canonical spells
  | assert cond expected msg target => exact reads_assert canonical spells
  | missing => exact canonical.elim
  | unknown => exact canonical.elim

end Terminators

end Source

end BorrowChecker
