import BorrowChecker.Proofs.Accepted
import Mathlib

/-!
The grammar of terminators, as a language of tokens, and what the reader makes of it. All that the
reader accepts is derived from the grammar, save for one form: of the sign between a destination and
its call only the text is looked at, so that a string of an equals sign passes for the sign itself.
-/

namespace BorrowChecker

namespace Source

open Mir Text

open scoped Computability

namespace Grammar

/-- A symbol or a keyword, which a string with the same text is not. -/
def word (text : Text) : Language Token := {line | ∃ t, line = [t] ∧ t.isWord text}

def kind (k : TokenKind) : Language Token := {line | ∃ t, line = [t] ∧ t.kind = k}

def place : Language Token :=
  {line | ∃ t digits, line = [t] ∧ t.kind = .ident ∧ t.text = "_" ++ digits ∧ IsDigits digits}

def constant : Language Token :=
  kind .int + kind .float + kind .string + word "true" + word "false" + word "(" * word ")"

def operand : Language Token :=
  word "copy" * place + word "move" * place + word "const" * constant

/-- Operands with commas between them and perhaps one at the end. -/
def operands : Language Token :=
  1 + operand * (word "," * operand)∗ * (1 + word ",")

def block : Language Token := kind .ident

def target : Language Token := word "->" * block

def cases : Language Token :=
  (kind .int * word ":" * block * word ",")∗ * (word "otherwise" * word ":" * block)

def switch : Language Token :=
  word "switchInt" * word "(" * operand * word ")" * word "->" * word "[" * cases * word "]"

def assert : Language Token :=
  word "assert" * word "(" * operand * word "," * (word "true" + word "false") * word "," *
    kind .string * word ")" * target

def call : Language Token := kind .ident * word "(" * operands * word ")" * target

def terminator : Language Token :=
  word "return" + word "unreachable" + word "goto" * target + switch + assert +
    (1 + place * word "=") * call

def quotedEquals : Language Token := {line | ∃ t, line = [t] ∧ t.kind = .string ∧ t.text = "="}

/-- A call with a destination, but for the equals sign that is in quotes. -/
def disguised : Language Token := place * quotedEquals * call

theorem operand_le_operands : operand ≤ operands := by
  intro line derived
  refine .inr (Language.mem_mul.mpr ⟨line, ?_, [], .inl rfl, List.append_nil line⟩)
  exact Language.mem_mul.mpr ⟨line, derived, [], Language.nil_mem_kstar _, List.append_nil line⟩

theorem operand_comma_le_operands : operand * (word "," * operands) ≤ operands := by
  have again : word "," * operand * (word "," * operand)∗ ≤ (word "," * operand)∗ :=
    mul_kstar_le_kstar
  have ending : operand * word "," ≤ operand * (word "," * operand)∗ * (1 + word ",") := by
    calc operand * word "," = operand * 1 * word "," := by rw [mul_one]
      _ ≤ operand * (word "," * operand)∗ * (1 + word ",") := by
        gcongr
        · exact one_le_kstar
        · exact le_add_self
  have longer : operand * (word "," * (operand * (word "," * operand)∗ * (1 + word ","))) ≤
      operand * (word "," * operand)∗ * (1 + word ",") := by
    calc operand * (word "," * (operand * (word "," * operand)∗ * (1 + word ",")))
        = operand * (word "," * operand * (word "," * operand)∗) * (1 + word ",") := by
          simp only [mul_assoc]
      _ ≤ operand * (word "," * operand)∗ * (1 + word ",") := by gcongr
  calc operand * (word "," * operands)
      = operand * word "," +
          operand * (word "," * (operand * (word "," * operand)∗ * (1 + word ","))) := by
        rw [operands, mul_add, mul_add, mul_one]
    _ ≤ operand * (word "," * operand)∗ * (1 + word ",") := add_le ending longer
    _ ≤ operands := le_add_self

/-- How operands are read up to the closing parenthesis. -/
theorem operandsTail_le :
    word ")" + operand * (word "," * (operands * word ")") + word ")") ≤ operands * word ")" := by
  calc word ")" + operand * (word "," * (operands * word ")") + word ")")
      = (1 + (operand * (word "," * operands) + operand)) * word ")" := by
        simp only [mul_add, add_mul, one_mul, mul_assoc]
    _ ≤ operands * word ")" :=
        mul_le_mul_left (add_le le_self_add (add_le operand_comma_le_operands operand_le_operands)) _

/-- How the cases of a switch are read, down to the one that is always there. -/
theorem casesTail_le : word "otherwise" * (word ":" * block) +
    kind .int * (word ":" * (block * (word "," * cases))) ≤ cases := by
  have again : 1 + kind .int * word ":" * block * word "," *
      (kind .int * word ":" * block * word ",")∗ ≤ (kind .int * word ":" * block * word ",")∗ :=
    add_le one_le_kstar mul_kstar_le_kstar
  calc word "otherwise" * (word ":" * block) + kind .int * (word ":" * (block * (word "," * cases)))
      = (1 + kind .int * word ":" * block * word "," * (kind .int * word ":" * block * word ",")∗) *
          (word "otherwise" * word ":" * block) := by
        simp only [cases, add_mul, one_mul, mul_assoc]
    _ ≤ cases := mul_le_mul_left again _

/-- The alternatives in the order in which they are tried. -/
theorem alternatives_eq :
    word "return" + (word "unreachable" + (word "goto" * target +
      (word "switchInt" * (word "(" * (operand * (word ")" * (word "->" * (word "[" *
        (cases * word "]")))))) +
      (word "assert" * (word "(" * (operand * (word "," * ((word "true" + word "false") * (word "," *
        (kind .string * (word ")" * target))))))) +
      (place * ((word "=" + quotedEquals) * call) + call))))) = terminator + disguised := by
  simp only [terminator, disguised, switch, assert, mul_assoc, mul_add, add_mul, one_mul]
  abel

theorem second_of_mul {front rest : Language Token} {text : Text} {line : List Token} {sep : Token}
    (single : ∀ start ∈ front, start.length = 1) (derived : line ∈ front * (word text * rest))
    (second : line.tail.head? = some sep) : sep.isWord text := by
  obtain ⟨start, first, _, ⟨_, ⟨t, rfl, isWord⟩, others, _, rfl⟩, rfl⟩ := Language.mem_mul.mp derived
  obtain ⟨u, rfl⟩ := List.length_eq_one_iff.mp (single start first)
  obtain rfl : t = sep := by simpa using second
  exact isWord

theorem length_word {text : Text} : ∀ line ∈ word text, line.length = 1 := by
  rintro _ ⟨_, rfl, _⟩
  rfl

theorem length_kind {k : TokenKind} : ∀ line ∈ kind k, line.length = 1 := by
  rintro _ ⟨_, rfl, _⟩
  rfl

theorem length_place : ∀ line ∈ place, line.length = 1 := by
  rintro _ ⟨_, _, rfl, _⟩
  rfl

theorem kind_of_isWord {t : Token} {text : Text} (isWord : t.isWord text) :
    t.kind ≠ .string ∧ t.kind ≠ .eof ∧ t.kind ≠ .lifetime := by
  simp only [Token.isWord, Bool.and_eq_true, Bool.or_eq_true, beq_iff_eq] at isWord
  rcases isWord.1 with punct | ident
  · simp [punct]
  · simp [ident]

/-- The second token of a terminator is a symbol, if there is one. -/
theorem second_of_terminator {line : List Token} {sep : Token} (derived : line ∈ terminator)
    (second : line.tail.head? = some sep) : sep.kind ≠ .string := by
  have alone : ∀ {text}, line ∉ word text := by
    rintro text ⟨t, rfl, _⟩
    simp at second
  simp only [terminator, switch, assert, call, target, add_mul, one_mul, mul_assoc] at derived
  rcases derived with ((((ret | unreachable) | goto) | switch) | assert) | (plain | stored)
  · exact absurd ret alone
  · exact absurd unreachable alone
  · exact (kind_of_isWord (second_of_mul length_word goto second)).1
  · exact (kind_of_isWord (second_of_mul length_word switch second)).1
  · exact (kind_of_isWord (second_of_mul length_word assert second)).1
  · exact (kind_of_isWord (second_of_mul length_kind plain second)).1
  · exact (kind_of_isWord (second_of_mul length_place stored second)).1

theorem second_of_disguised {line : List Token} (derived : line ∈ disguised) :
    ∃ sep, line.tail.head? = some sep ∧ sep.kind = .string := by
  rw [disguised, mul_assoc] at derived
  obtain ⟨_, ⟨t, _, rfl, _⟩, _, ⟨_, ⟨u, rfl, quoted, _⟩, _, _, rfl⟩, rfl⟩ := Language.mem_mul.mp derived
  exact ⟨u, rfl, quoted⟩

end Grammar

/-- What a reader takes from the front of a line is derived from a grammar, and the mark at the end
of the line is not taken. -/
def Takes {α : Type} (grammar : Language Token) (tokens : List Token)
    (outcome : Option (α × List Token)) : Prop :=
  ∀ x ∈ outcome, ∃ line ∈ grammar, tokens = line ++ x.2 ∧ ∀ t ∈ line, t.kind ≠ .eof

namespace Takes

variable {α β γ : Type} {grammar more : Language Token} {tokens : List Token}

theorem none : Takes grammar tokens (none : Option (α × List Token)) := by simp [Takes]

theorem of_le {outcome : Option (α × List Token)} (le : grammar ≤ more)
    (takes : Takes grammar tokens outcome) : Takes more tokens outcome := by
  intro x isSome
  obtain ⟨line, derived, rest⟩ := takes x isSome
  exact ⟨line, le derived, rest⟩

theorem bind {first : Option (α × List Token)} {next : α × List Token → Option (β × List Token)}
    (takes : Takes grammar tokens first) (step : ∀ x ∈ first, Takes more x.2 (next x)) :
    Takes (grammar * more) tokens (first.bind next) := by
  intro y isSome
  obtain ⟨x, taken, later⟩ := Option.bind_eq_some_iff.mp isSome
  obtain ⟨line, derived, spelled, solid⟩ := takes x taken
  obtain ⟨rest, follows, spelledRest, solidRest⟩ := step x taken y later
  refine ⟨line ++ rest, Language.append_mem_mul derived follows, ?_, ?_⟩
  · rw [spelled, spelledRest, List.append_assoc]
  · exact List.forall_mem_append.mpr ⟨solid, solidRest⟩

theorem map {first : Option (α × List Token)} {finish : α × List Token → β × List Token}
    (takes : Takes grammar tokens first) (leaves : ∀ x, (finish x).2 = x.2) :
    Takes grammar tokens (first.map finish) := by
  intro y isSome
  obtain ⟨x, taken, rfl⟩ := Option.map_eq_some_iff.mp isSome
  rw [leaves]
  exact takes x taken

/-- Something that is looked up on the way. -/
theorem lookup {found : Option γ} {next : γ → Option (β × List Token)}
    (step : ∀ x ∈ found, Takes grammar tokens (next x)) : Takes grammar tokens (found.bind next) := by
  intro y isSome
  obtain ⟨x, known, later⟩ := Option.bind_eq_some_iff.mp isSome
  exact step x known y later

theorem ite {c : Prop} [Decidable c] {yes no : Option (α × List Token)}
    (then_ : c → Takes grammar tokens yes) (else_ : ¬ c → Takes more tokens no) :
    Takes (grammar + more) tokens (if c then yes else no) := by
  split
  · exact .of_le le_self_add (then_ ‹c›)
  · exact .of_le le_add_self (else_ ‹¬ c›)

theorem guard {c : Prop} [Decidable c] {yes : Option (α × List Token)}
    (then_ : c → Takes grammar tokens yes) : Takes grammar tokens (if c then yes else Option.none) := by
  split
  · exact then_ ‹c›
  · exact .none

end Takes

section Tokens

open Grammar

variable {α : Type} {tokens rest : List Token} {t : Token} {grammar : Language Token}

theorem takes_token (derived : [t] ∈ grammar) (solid : t.kind ≠ .eof) (value : α) :
    Takes grammar (t :: rest) (some (value, rest)) := by
  intro x isSome
  obtain rfl := Option.mem_some_iff.mp isSome
  exact ⟨[t], derived, rfl, List.forall_mem_singleton.mpr solid⟩

theorem nextIsWord_iff {text : Text} :
    nextIsWord text tokens ↔ ∃ t rest, tokens = t :: rest ∧ t.isWord text := by
  cases tokens with
  | nil => simp [nextIsWord, peek, Token.isWord]
  | cons t rest => simp [nextIsWord, peek]

theorem takes_word {text : Text} (isNext : nextIsWord text tokens) (value : α) :
    Takes (word text) tokens (some (value, tokens.tail)) := by
  obtain ⟨t, rest, rfl, isWord⟩ := nextIsWord_iff.mp isNext
  have derived : [t] ∈ word text := ⟨t, rfl, isWord⟩
  exact takes_token derived (kind_of_isWord isWord).2.1 value

/-- What is read behind a part that was recognized without a reader. -/
theorem takes_after {front : Language Token} {outcome : Option (α × List Token)}
    (recognized : Takes front tokens (some ((), rest))) (takes : Takes grammar rest outcome) :
    Takes (front * grammar) tokens outcome := by
  have whole : Takes (front * grammar) tokens ((some ((), rest)).bind fun _ => outcome) := by
    refine recognized.bind fun x isSome => ?_
    obtain rfl := Option.mem_some_iff.mp isSome
    exact takes
  exact whole

theorem takes_behind {text : Text} {outcome : Option (α × List Token)}
    (isNext : nextIsWord text tokens) (takes : Takes grammar tokens.tail outcome) :
    Takes (word text * grammar) tokens outcome :=
  takes_after (takes_word isNext ()) takes

theorem takes_expect (text : Text) (tokens : List Token) :
    Takes (word text) tokens (taken? (expect text tokens)) := by
  rw [taken?_expect]
  exact .guard fun isNext => takes_word isNext _

theorem takes_expectKind {k : TokenKind} (solid : k ≠ .eof) (tokens : List Token) :
    Takes (kind k) tokens (taken? (expectKind k tokens)) := by
  rw [taken?_expectKind]
  refine .guard fun present => ?_
  obtain ⟨t, rest, rfl⟩ := List.exists_cons_of_ne_nil present.1
  have same : t.kind = k := present.2
  have derived : [t] ∈ kind k := ⟨t, rfl, same⟩
  exact takes_token derived (same ▸ solid) _

end Tokens

section Readers

open Grammar

variable (labels : Labels) (tokens : List Token)

theorem isDigits_of_read {text : Text} {n : Nat} (read : toNat? text = some n) :
    text.IsDigits := by
  unfold toNat? at read
  obtain ⟨present, read⟩ := Option.ite_none_left_eq_some.mp read
  obtain ⟨digits, _⟩ := Option.ite_none_right_eq_some.mp read
  exact ⟨by simpa using present, List.all_eq_true.mp digits⟩

theorem place_of_local {t : Token} {id : LocalId} (found : local? t = some id) :
    [t] ∈ place ∧ t.kind = .ident := by
  obtain ⟨⟨isIdent, starts⟩, found⟩ := Option.ite_none_right_eq_some.mp found
  obtain ⟨digits, spelled⟩ := List.isPrefixOf_iff_prefix.mp starts
  obtain ⟨n, read, _⟩ := Option.bind_eq_some_iff.mp found
  have behind : t.text.drop 1 = digits := by rw [← spelled]; rfl
  rw [behind] at read
  exact ⟨⟨t, digits, rfl, isIdent, spelled.symm, isDigits_of_read read⟩, isIdent⟩

theorem takes_local : Takes place tokens (taken? (takeLocal tokens)) := by
  cases tokens with
  | nil => exact .none
  | cons t rest =>
      rw [taken?_takeLocal]
      intro x isSome
      obtain ⟨id, found, rfl⟩ := Option.map_eq_some_iff.mp isSome
      obtain ⟨isPlace, isIdent⟩ := place_of_local found
      exact takes_token isPlace (by simp [isIdent]) id _ rfl

theorem takes_const : Takes constant tokens (taken? (takeConst tokens)) := by
  cases tokens with
  | nil => exact .none
  | cons t rest =>
      rw [taken?_takeConst, constant, add_assoc, add_assoc, add_assoc]
      refine .ite (fun isNumber => ?_) fun _ => .ite (fun isString => ?_) fun _ =>
        .ite (fun isTrue => ?_) fun _ => .ite (fun isFalse => ?_) fun _ => .guard fun opened => ?_
      · intro x isSome
        obtain ⟨value, _, rfl⟩ := Option.map_eq_some_iff.mp isSome
        rcases isNumber with isInt | isFloat
        · exact takes_token (.inl ⟨t, rfl, isInt⟩) (by simp [isInt]) value _ rfl
        · exact takes_token (.inr ⟨t, rfl, isFloat⟩) (by simp [isFloat]) value _ rfl
      · have derived : [t] ∈ kind .string := ⟨t, rfl, isString⟩
        exact takes_token derived (by simp [isString]) _
      · have isNext : nextIsWord "true" (t :: rest) := isTrue
        exact takes_word isNext _
      · have isNext : nextIsWord "false" (t :: rest) := isFalse
        exact takes_word isNext _
      · have isNext : nextIsWord "(" (t :: rest) := opened
        exact takes_behind isNext ((takes_expect ")" rest).map fun _ => rfl)

theorem takes_operand : Takes operand tokens (taken? (takeOperand tokens)) := by
  rw [taken?_takeOperand, operand, add_assoc]
  refine .ite (fun isCopy => takes_behind isCopy ?_) fun _ =>
    .ite (fun isMove => takes_behind isMove ?_) fun _ =>
      .guard fun isConst => takes_behind isConst ?_
  · exact (takes_local tokens.tail).map fun _ => rfl
  · exact (takes_local tokens.tail).map fun _ => rfl
  · exact (takes_const tokens.tail).map fun _ => rfl

theorem takes_operandsTail :
    Takes (operands * word ")") tokens (taken? (takeOperandsTail tokens)) := by
  induction size : tokens.length using Nat.strong_induction_on generalizing tokens with
  | h n ih =>
      rw [taken?_takeOperandsTail]
      refine .of_le operandsTail_le (.ite (fun closed => takes_word closed _) fun _ => ?_)
      refine (takes_operand tokens).bind fun x taken => ?_
      have shorter := shorter_of_taken taken
      have tailShorter := List.length_tail (l := x.2)
      refine .ite (fun comma => takes_behind comma ?_) fun _ => ?_
      · exact (ih x.2.tail.length (by omega) x.2.tail rfl).map fun _ => rfl
      · exact (takes_expect ")" x.2).map fun _ => rfl

theorem takes_operands :
    Takes (word "(" * (operands * word ")")) tokens (taken? (takeOperands tokens)) := by
  rw [taken?_takeOperands]
  exact (takes_expect "(" tokens).bind fun x _ => (takes_operandsTail x.2).map fun _ => rfl

theorem takes_block : Takes block tokens (taken? (takeBlock labels tokens)) := by
  rw [taken?_takeBlock]
  intro y isSome
  obtain ⟨x, named, found⟩ := Option.bind_eq_some_iff.mp isSome
  obtain ⟨id, _, rfl⟩ := Option.map_eq_some_iff.mp found
  exact takes_expectKind (by simp) tokens x named

theorem takes_target : Takes target tokens (taken? (takeTarget labels tokens)) := by
  rw [taken?_takeTarget]
  exact (takes_expect "->" tokens).bind fun x _ => (takes_block labels x.2).map fun _ => rfl

theorem takes_cases : Takes cases tokens (taken? (takeCases labels tokens)) := by
  induction size : tokens.length using Nat.strong_induction_on generalizing tokens with
  | h n ih =>
      rw [taken?_takeCases]
      refine .of_le casesTail_le (.ite (fun last => takes_behind last ?_) fun _ => ?_)
      · refine (takes_expect ":" tokens.tail).bind fun x _ => ?_
        exact (takes_block labels x.2).map fun _ => rfl
      refine (takes_expectKind (by simp) tokens).bind fun x number => .lookup fun value _ => ?_
      refine (takes_expect ":" x.2).bind fun y colon => ?_
      refine (takes_block labels y.2).bind fun z label => ?_
      refine (takes_expect "," z.2).bind fun w comma => ?_
      have first := shorter_of_taken number
      have second := shorter_of_taken colon
      have third := shorter_of_taken label
      have fourth := shorter_of_taken comma
      exact (ih w.2.length (by omega) w.2 rfl).map fun _ => rfl

theorem takes_switch :
    Takes (word "(" * (operand * (word ")" * (word "->" * (word "[" * (cases * word "]"))))))
      tokens (taken? (takeSwitch labels tokens)) := by
  rw [taken?_takeSwitch]
  refine (takes_expect "(" tokens).bind fun x _ => ?_
  refine (takes_operand x.2).bind fun discr _ => ?_
  refine (takes_expect ")" discr.2).bind fun y _ => ?_
  refine (takes_expect "->" y.2).bind fun z _ => ?_
  refine (takes_expect "[" z.2).bind fun w _ => ?_
  refine (takes_cases labels w.2).bind fun cases _ => ?_
  exact (takes_expect "]" cases.2).map fun _ => rfl

theorem takes_truth : Takes (word "true" + word "false") tokens (taken? (takeTruth tokens)) := by
  rw [taken?_takeTruth]
  exact .ite (fun isTrue => takes_word isTrue _) fun _ => .guard fun isFalse => takes_word isFalse _

theorem takes_assert :
    Takes (word "(" * (operand * (word "," * ((word "true" + word "false") * (word "," *
      (kind .string * (word ")" * target)))))))
      tokens (taken? (takeAssert labels tokens)) := by
  rw [taken?_takeAssert]
  refine (takes_expect "(" tokens).bind fun x _ => ?_
  refine (takes_operand x.2).bind fun cond _ => ?_
  refine (takes_expect "," cond.2).bind fun y _ => ?_
  refine (takes_truth y.2).bind fun expected _ => ?_
  refine (takes_expect "," expected.2).bind fun z _ => ?_
  refine (takes_expectKind (by simp) z.2).bind fun msg _ => ?_
  refine (takes_expect ")" msg.2).bind fun w _ => ?_
  exact (takes_target labels w.2).map fun _ => rfl

theorem takes_call (dst : Option LocalId) :
    Takes call tokens (taken? (takeCall labels dst tokens)) := by
  rw [taken?_takeCall, call, mul_assoc, mul_assoc, mul_assoc, ← mul_assoc operands,
    ← mul_assoc (word "(")]
  refine (takes_expectKind (by simp) tokens).bind fun func _ => ?_
  refine (takes_operands func.2).bind fun args _ => ?_
  exact (takes_target labels args.2).map fun _ => rfl

theorem sign_of_hasDestination (stored : hasDestination tokens) :
    ∃ t u rest, tokens = t :: u :: rest ∧ u.text = "=" := by
  unfold hasDestination at stored
  split at stored
  · rename_i t u rest
    simp only [Bool.and_eq_true, beq_iff_eq] at stored
    exact ⟨t, u, rest, rfl, stored.2⟩
  · simp at stored

/-- The sign before a call is looked at by its text alone. -/
theorem takes_callLine
    (signs : ∀ t ∈ tokens, t.text = "=" → t.kind = .punct ∨ t.kind = .string) :
    Takes (place * ((word "=" + quotedEquals) * call) + call) tokens
      (taken? (takeCallLine labels tokens)) := by
  rw [taken?_takeCallLine]
  refine .ite (fun stored => ?_) fun _ => takes_call labels tokens none
  obtain ⟨t, u, rest, rfl, isEquals⟩ := sign_of_hasDestination tokens stored
  have isSign : [u] ∈ word "=" + quotedEquals ∧ u.kind ≠ .eof := by
    rcases signs u (by simp) isEquals with punct | quoted
    · exact ⟨.inl ⟨u, rfl, by simp [Token.isWord, punct, isEquals]⟩, by simp [punct]⟩
    · exact ⟨.inr ⟨u, rfl, quoted, isEquals⟩, by simp [quoted]⟩
  refine (takes_local (t :: u :: rest)).bind fun dst taken => ?_
  rw [taken?_takeLocal] at taken
  obtain ⟨id, _, rfl⟩ := Option.map_eq_some_iff.mp taken
  refine takes_after (takes_token isSign.1 isSign.2 ()) ?_
  exact (takes_call labels rest (some id)).map fun _ => rfl

theorem takes_terminator
    (signs : ∀ t ∈ tokens, t.text = "=" → t.kind = .punct ∨ t.kind = .string) :
    Takes (terminator + disguised) tokens (taken? (takeTerminator labels tokens)) := by
  rw [taken?_takeTerminator, ← alternatives_eq]
  refine .ite (fun isReturn => takes_word isReturn _) fun _ => ?_
  refine .ite (fun isEnd => takes_word isEnd _) fun _ => ?_
  refine .ite (fun isGoto => takes_behind isGoto ?_) fun _ => ?_
  · exact (takes_target labels tokens.tail).map fun _ => rfl
  refine .ite (fun isSwitch => takes_behind isSwitch (takes_switch labels tokens.tail)) fun _ => ?_
  refine .ite (fun isAssert => takes_behind isAssert (takes_assert labels tokens.tail)) fun _ => ?_
  exact takes_callLine labels tokens signs

end Readers

section Lexing

variable {pos : Nat} {points : List CodePoint}

/-- A number starts with a digit or a minus sign. -/
theorem IsNumber.ne_equals {kind : TokenKind} (isNumber : IsNumber points kind)
    (known : ∀ c ∈ points, c.IsWhole ∨ c.isBroken) : ofCodePoints points ≠ "=" := by
  have starts := isNumber.starts []
  rw [List.append_nil] at starts
  obtain ⟨c, rest, rfl, first⟩ : ∃ c rest, points = c :: rest ∧ (c.value = 45 ∨ isDigitPoint c) := by
    cases starts with
    | digit digit => exact ⟨_, _, rfl, .inr digit⟩
    | minus minus => exact ⟨_, _, rfl, .inl minus⟩
  have whole : c.IsWhole := by
    have front := (List.forall_mem_cons.mp known).1
    rcases first with minus | digit
    · refine front.resolve_right fun broken => ?_
      simp [CodePoint.isBroken, minus, CodePoint.replacement] at broken
    · exact (bonds_of_isNamePoint front (isNamePoint_of_isDigitPoint digit)).whole
  intro spelled
  have isEquals : c.value = 61 := by
    have read := codePoints_encode whole.scalar (ofCodePoints rest)
    have all : CodePoint.encode c.value ++ ofCodePoints rest = "=" := by
      rw [← whole.bytes]
      exact spelled
    rw [all] at read
    exact (congrArg (fun points => (points.headD ⟨0, []⟩).value) read).symm
  rw [isDigitPoint_iff] at first
  omega

/-- A token of the line itself, in which an equals sign is a symbol or stands in quotes. -/
structure Token.IsScanned (t : Token) : Prop where
  solid : t.kind ≠ .eof
  equals : t.text = "=" → t.kind = .punct ∨ t.kind = .string

theorem Lexeme.isScanned {run : List CodePoint} {t : Token} (lexeme : Lexeme run t.kind t.text)
    (known : ∀ c ∈ run, c.IsWhole ∨ c.isBroken) : t.IsScanned := by
  have made := lexeme.isMade known
  obtain ⟨kind, text, pos⟩ := t
  cases lexeme with
  | name =>
      have noName : ¬ isIdentifier "=" := by decide
      exact ⟨by simp, fun same => absurd (same ▸ made.ident rfl) noName⟩
  | lifetime =>
      have noLifetime : ¬ isLifetime "=" := by decide
      exact ⟨by simp, fun same => absurd (same ▸ made.lifetime rfl) noLifetime⟩
  | number isNumber =>
      refine ⟨?_, fun same => absurd same (isNumber.ne_equals known)⟩
      rcases isNumber.kind_eq with rfl | rfl <;> simp
  | string => exact ⟨by simp, fun _ => .inr rfl⟩
  | arrow | path | symbol => exact ⟨by simp, fun _ => .inl rfl⟩

theorem lexFrom_shape {tokens : List Token} (known : ∀ c ∈ points, c.IsWhole ∨ c.isBroken)
    (lexed : lexFrom pos points = .ok tokens) :
    ∃ line stop, tokens = line ++ [stop] ∧ stop.kind = .eof ∧ stop.text = [] ∧
      ∀ t ∈ line, t.IsScanned := by
  obtain ⟨line, stop, rfl, isEnd, empty, each⟩ := lexFrom_lexemes lexed
  refine ⟨line, stop, rfl, isEnd, empty, fun t member => ?_⟩
  obtain ⟨run, within, lexeme⟩ := each t member
  exact lexeme.isScanned fun c inside => known c (within inside)

end Lexing

section Lines

variable {line front left : List Token} {stop : Token}

/-- A line is cut in one way only in front of the mark at its end. -/
theorem eq_of_cut (cut : front ++ left = line ++ [stop]) (ends : stop.kind = .eof)
    (atEnd : (peek left).kind = .eof) (solid : ∀ t ∈ line, t.kind ≠ .eof)
    (taken : ∀ t ∈ front, t.kind ≠ .eof) : front = line := by
  have nothing : left.takeWhile (·.kind ≠ .eof) = [] := by
    cases left with
    | nil => rfl
    | cons t rest => exact List.takeWhile_cons_of_neg (by simpa [peek] using atEnd)
  calc front = (front ++ left).takeWhile (·.kind ≠ .eof) := by
        rw [List.takeWhile_append_of_pos (by simpa using taken), nothing, List.append_nil]
    _ = (line ++ [stop]).takeWhile (·.kind ≠ .eof) := by rw [cut]
    _ = line := by
        rw [List.takeWhile_append_of_pos (by simpa using solid),
          List.takeWhile_cons_of_neg (by simpa using ends), List.append_nil]

/-- An accepted line is derived from the grammar, or is a call whose equals sign is in quotes. It is
derived exactly when its second token is not a string. -/
theorem accepted_derived_iff (labels : Labels) (src : Text) (t : Terminator)
    (parsed : parseTerminator labels src = .ok t) :
    ∃ line stop, lex src = .ok (line ++ [stop]) ∧ stop.kind = .eof ∧
      (line ∈ Grammar.terminator ∨ line ∈ Grammar.disguised) ∧
      (line ∈ Grammar.terminator ↔ ∀ sep ∈ line.tail.head?, sep.kind ≠ .string) := by
  obtain ⟨tokens, left, lexed, taken, atEnd⟩ := (parseLine_ok_iff _ src t).mp parsed
  obtain ⟨line, stop, rfl, ends, empty, scanned⟩ :=
    lexFrom_shape (fun _ member => mem_codePoints member) lexed
  have signs : ∀ u ∈ line ++ [stop], u.text = "=" → u.kind = .punct ∨ u.kind = .string := by
    intro u member same
    rcases List.mem_append.mp member with inside | last
    · exact (scanned u inside).equals same
    · have present : ([] : Text) ≠ "=" := by decide
      rw [List.mem_singleton.mp last, empty] at same
      exact absurd same present
  obtain ⟨front, derived, cut, solid⟩ := takes_terminator labels _ signs _ taken
  obtain rfl := eq_of_cut cut.symm ends atEnd (fun u member => (scanned u member).solid) solid
  refine ⟨front, stop, lexed, ends, derived, fun inGrammar sep second => ?_, fun unquoted => ?_⟩
  · exact Grammar.second_of_terminator inGrammar second
  · refine derived.resolve_right fun disguised => ?_
    obtain ⟨sep, second, quoted⟩ := Grammar.second_of_disguised disguised
    exact unquoted sep second quoted

/-- The sign of a call that is stored is the symbol, whatever strings are among its operands. -/
theorem stored_call_derived : ∃ line stop,
    parseTerminator noLabels "_2 = f(const \"=\",) -> bb0" =
      .ok (.call "f" [.const (.str "=")] (some 2) 0) ∧
    lex "_2 = f(const \"=\",) -> bb0" = .ok (line ++ [stop]) ∧ line ∈ Grammar.terminator := by
  have parsed : parseTerminator noLabels "_2 = f(const \"=\",) -> bb0" =
      .ok (.call "f" [.const (.str "=")] (some 2) 0) := by cbv
  obtain ⟨line, stop, lexed, _, _, derived_iff⟩ := accepted_derived_iff noLabels _ _ parsed
  refine ⟨line, stop, parsed, lexed, derived_iff.mpr fun sep second => ?_⟩
  have tokens : lex "_2 = f(const \"=\",) -> bb0" =
      .ok [⟨.ident, "_2", 0⟩, ⟨.punct, "=", 3⟩, ⟨.ident, "f", 5⟩, ⟨.punct, "(", 6⟩,
        ⟨.ident, "const", 7⟩, ⟨.string, "=", 13⟩, ⟨.punct, ",", 16⟩, ⟨.punct, ")", 17⟩,
        ⟨.punct, "->", 19⟩, ⟨.ident, "bb0", 22⟩, ⟨.eof, [], 25⟩] := by cbv
  have cut := congrArg List.dropLast (Except.ok.inj (lexed.symm.trans tokens))
  rw [List.dropLast_concat] at cut
  rw [cut] at second
  obtain rfl : ⟨.punct, "=", 3⟩ = sep := Option.some.inj second
  simp

/-- An equals sign in quotes passes for the sign. -/
theorem quoted_sign_accepted : ∃ line stop,
    parseTerminator noLabels "_0 \"=\" f() -> bb0" = .ok (.call "f" [] (some 0) 0) ∧
    lex "_0 \"=\" f() -> bb0" = .ok (line ++ [stop]) ∧ stop.kind = .eof ∧
    line ∉ Grammar.terminator := by
  refine ⟨[⟨.ident, "_0", 0⟩, ⟨.string, "=", 3⟩, ⟨.ident, "f", 7⟩, ⟨.punct, "(", 8⟩,
    ⟨.punct, ")", 9⟩, ⟨.punct, "->", 11⟩, ⟨.ident, "bb0", 14⟩], ⟨.eof, [], 17⟩, ?_, ?_, rfl, ?_⟩
  · cbv
  · cbv
  · intro derived
    exact Grammar.second_of_terminator derived rfl rfl

end Lines

end Source

end BorrowChecker
