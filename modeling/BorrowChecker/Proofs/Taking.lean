import Mathlib.Tactic
import BorrowChecker.Source.Parser

/-!
What the readers of a line give, as plain equations: a value and the tokens that are left, or
nothing. The proofs that readers carry and the reasons of their failures are left out.
-/

namespace BorrowChecker

namespace Source

open Mir

section Outcome

variable {α β γ : Type} {tokens more : List Token}

def taken? (read : Take α tokens) : Option (α × List Token) :=
  read.toOption.map fun t => (t.value, t.rest)

@[simp] theorem taken?_pure (t : Taken α tokens) :
    taken? (pure t : Take α tokens) = some (t.value, t.rest) := rfl

@[simp] theorem taken?_ok (t : Taken α tokens) :
    taken? (.ok t : Take α tokens) = some (t.value, t.rest) := rfl

@[simp] theorem taken?_error (fault : Fault) : taken? (.error fault : Take α tokens) = none := rfl

theorem taken?_bind (read : Take α tokens) (next : Taken α tokens → Take β more)
    (plain : α × List Token → Option (β × List Token))
    (each : ∀ t, taken? (next t) = plain (t.value, t.rest)) :
    taken? (read >>= next) = (taken? read).bind plain := by
  cases read with
  | error fault => rfl
  | ok t => exact each t

theorem taken?_last (read : Take α tokens) (finish : Taken α tokens → Taken β more)
    (plain : α × List Token → β × List Token)
    (each : ∀ t, ((finish t).value, (finish t).rest) = plain (t.value, t.rest)) :
    taken? (read >>= fun t => pure (finish t) : Take β more) = (taken? read).map plain := by
  cases read with
  | error fault => rfl
  | ok t => exact congrArg some (each t)

/-- A reader that goes on with something other than tokens. -/
theorem taken?_bind_plain (check : Except Fault γ) (next : γ → Take β more)
    (plain : γ → Option (β × List Token)) (each : ∀ x, taken? (next x) = plain x) :
    taken? (check >>= next) = check.toOption.bind plain := by
  cases check with
  | error fault => rfl
  | ok x => exact each x

end Outcome

section Words

variable {word : Text} {tokens : List Token}

theorem accept?_some {taken : Taken Token tokens} (found : accept? word tokens = some taken) :
    nextIsWord word tokens ∧ taken.value = peek tokens ∧ taken.rest = tokens.tail := by
  cases tokens with
  | nil => simp [accept?] at found
  | cons t rest =>
      simp only [accept?] at found
      split at found
      · rename_i isWord
        obtain rfl := Option.some.inj found
        exact ⟨isWord, rfl, rfl⟩
      · simp at found

theorem accept?_none (missing : accept? word tokens = none) : nextIsWord word tokens = false := by
  cases tokens with
  | nil => rfl
  | cons t rest =>
      simp only [accept?] at missing
      split at missing
      · simp at missing
      · rename_i isWord
        exact Bool.eq_false_iff.mpr isWord

theorem taken?_expect (word : Text) (tokens : List Token) : taken? (expect word tokens) =
    if nextIsWord word tokens then some (peek tokens, tokens.tail) else none := by
  unfold expect
  split
  · rename_i taken found
    obtain ⟨isWord, value, rest⟩ := accept?_some found
    rw [if_pos isWord, taken?_ok, value, rest]
  · rename_i missing
    simp [accept?_none missing]

theorem taken?_expectKind (kind : TokenKind) (tokens : List Token) :
    taken? (expectKind kind tokens) =
      if tokens ≠ [] ∧ (peek tokens).kind = kind then some (peek tokens, tokens.tail) else none := by
  cases tokens with
  | nil => rfl
  | cons t rest =>
      simp only [expectKind, peek, List.headD_cons, List.tail_cons]
      by_cases same : t.kind = kind
      · simp [same, Taken.first]
      · simp [same]

theorem cutWord_eq (word : Text) (tokens : List Token) :
    cutWord word tokens =
      (nextIsWord word tokens, if nextIsWord word tokens then tokens.tail else tokens) := by
  unfold cutWord
  split
  · rename_i taken found
    obtain ⟨isWord, _, rest⟩ := accept?_some found
    rw [isWord, rest]
    rfl
  · rename_i missing
    rw [accept?_none missing]
    rfl

end Words

section Types

def parenthesized? (rest : List Token) : Option (Ty × List Token) :=
  if nextIsWord ")" rest then some (.unit, rest.tail)
  else (taken? (takeTypes rest)).bind fun x =>
    (taken? (expect ")" x.2)).map fun y => (parenthesized x.1.1 x.1.2, y.2)

def function? (rest : List Token) : Option (Ty × List Token) :=
  (taken? (expect "(" rest)).bind fun x => (taken? (takeParams x.2)).bind fun y =>
    if nextIsWord "->" y.2 then
      (taken? (takeType y.2.tail)).map fun z => (.functionOf y.1 z.1, z.2)
    else some (.functionOf y.1 .unit, y.2)

theorem taken?_takeType_nil : taken? (takeType []) = none := by
  rw [takeType, taken?_error]

theorem taken?_takeType (t : Token) (rest : List Token) : taken? (takeType (t :: rest)) =
    if t.isWord "(" then parenthesized? rest
    else if t.isWord "!" then some (.scalar .never, rest)
    else if t.isWord "*" then (taken? (takeType rest)).map fun x => (.pointerTo x.1, x.2)
    else if t.isWord "&" then
      let lifetime := cutLifetime rest
      let mutable := cutWord "mut" lifetime.2
      (taken? (takeType mutable.2)).map fun x => (refOf lifetime.1 mutable.1 x.1, x.2)
    else if t.isWord "[" then
      (taken? (takeType rest)).bind fun x =>
        (taken? (expect "]" x.2)).map fun y => (.arrayOf x.1, y.2)
    else if t.kind ≠ .ident then none
    else if t.text = "fn" then function? rest
    else if t.text = "enum" then
      (taken? (expectKind .ident rest)).map fun x => (.enumNamed x.1.text.normalize, x.2)
    else some ((Shape.ofScalarName? t.text).elim (.structNamed t.text.normalize) .scalar, rest) := by
  rw [takeType]
  split
  · unfold parenthesized?
    split
    · rename_i closed found
      obtain ⟨isWord, _, left⟩ := accept?_some found
      rw [if_pos isWord, taken?_ok]
      exact congrArg (fun tokens => some (Ty.unit, tokens)) left
    · rename_i missing
      rw [accept?_none missing, if_neg (by simp)]
      exact taken?_bind _ _ _ fun elems => taken?_last _ _ _ fun closed => rfl
  split
  · rfl
  split
  · exact taken?_last _ _ _ fun elem => rfl
  split
  · exact taken?_last _ _ _ fun elem => rfl
  split
  · exact taken?_bind _ _ _ fun elem => taken?_last _ _ _ fun closed => rfl
  split
  · rfl
  split
  · refine taken?_bind _ _ _ fun opened => taken?_bind _ _ _ fun params => ?_
    simp only
    split
    · rename_i arrow found
      obtain ⟨isWord, _, left⟩ := accept?_some found
      rw [if_pos isWord, ← left]
      exact taken?_last _ _ _ fun result => rfl
    · rename_i missing
      rw [accept?_none missing, if_neg (by simp)]
      rfl
  split
  · exact taken?_last _ _ _ fun name => rfl
  · split
    · rename_i s found
      rw [found]
      rfl
    · rename_i missing
      rw [missing]
      rfl

theorem taken?_takeTypes (tokens : List Token) : taken? (takeTypes tokens) =
    (taken? (takeType tokens)).bind fun x =>
      if nextIsWord "," x.2 then
        if nextIsWord ")" x.2.tail then some (([x.1], true), x.2.tail)
        else (taken? (takeTypes x.2.tail)).map fun y => ((x.1 :: y.1.1, y.1.2), y.2)
      else some (([x.1], false), x.2) := by
  rw [takeTypes]
  refine taken?_bind _ _ _ fun first => ?_
  split
  · rename_i missing
    rw [accept?_none missing, if_neg (by simp)]
    rfl
  · rename_i comma found
    obtain ⟨isWord, _, left⟩ := accept?_some found
    rw [if_pos isWord, ← left]
    split
    · rfl
    · exact taken?_last _ _ _ fun rest => rfl

theorem taken?_takeParams (tokens : List Token) : taken? (takeParams tokens) =
    if nextIsWord ")" tokens then some ([], tokens.tail)
    else (taken? (takeTypes tokens)).bind fun x =>
      (taken? (expect ")" x.2)).map fun y => (x.1.1, y.2) := by
  rw [takeParams]
  split
  · rename_i isWord
    have closed := taken?_last (expect ")" tokens) (fun closed => closed.map fun _ => ([] : List Ty))
      (fun x => ([], x.2)) fun _ => rfl
    rw [taken?_expect, if_pos isWord] at closed
    exact closed
  · exact taken?_bind _ _ _ fun params => taken?_last _ _ _ fun closed => rfl

end Types

section Values

variable (tokens : List Token)

def local? (t : Token) : Option LocalId :=
  if t.kind = .ident ∧ t.text.startsWith "_" then
    (Text.toNat? (t.text.drop 1)).bind fun n => if n < 0x80000000 then some (n : Int) else none
  else none

theorem taken?_takeLocal (t : Token) (rest : List Token) :
    taken? (takeLocal (t :: rest)) = (local? t).map fun place => (place, rest) := by
  rw [takeLocal, local?]
  split
  · split
    · rename_i n read
      rw [read, Option.bind_some]
      split <;> rfl
    · rename_i refused
      rw [refused]
      rfl
  · rfl

theorem taken?_takeParenLocal : taken? (takeParenLocal tokens) =
    (taken? (expect "(" tokens)).bind fun x => (taken? (takeLocal x.2)).bind fun y =>
      (taken? (expect ")" y.2)).map fun z => (y.1, z.2) :=
  taken?_bind _ _ _ fun _ => taken?_bind _ _ _ fun _ => taken?_last _ _ _ fun _ => rfl

theorem taken?_takeConst (t : Token) (rest : List Token) : taken? (takeConst (t :: rest)) =
    if t.kind = .int ∨ t.kind = .float then
      (numberConst t).toOption.map fun value => (value, rest)
    else if t.kind = .string then some (.str t.text, rest)
    else if t.isWord "true" then some (.bool true, rest)
    else if t.isWord "false" then some (.bool false, rest)
    else if t.isWord "(" then (taken? (expect ")" rest)).map fun x => (.unit, x.2)
    else none := by
  rw [takeConst]
  split
  · cases numberConst t <;> rfl
  split
  · rfl
  split
  · rfl
  split
  · rfl
  split
  · exact taken?_last _ _ _ fun _ => rfl
  · rfl

/-- A reader behind a keyword, when the keyword is there. -/
theorem taken?_after {α β : Type} {word : Text} {tokens : List Token}
    {taken : Taken Token tokens} (found : accept? word tokens = some taken)
    (read : (tokens : List Token) → Take α tokens) (f : α → β) :
    taken? (read taken.rest >>= fun x => pure (taken.andThen (x.map f)) : Take β tokens) =
      (taken? (read tokens.tail)).map fun x => (f x.1, x.2) := by
  obtain ⟨_, _, left⟩ := accept?_some found
  rw [← left]
  exact taken?_last _ _ _ fun _ => rfl

theorem taken?_takeOperand : taken? (takeOperand tokens) =
    if nextIsWord "copy" tokens then
      (taken? (takeLocal tokens.tail)).map fun x => (.copy x.1, x.2)
    else if nextIsWord "move" tokens then
      (taken? (takeLocal tokens.tail)).map fun x => (.move x.1, x.2)
    else if nextIsWord "const" tokens then
      (taken? (takeConst tokens.tail)).map fun x => (.const x.1, x.2)
    else none := by
  unfold takeOperand
  split
  · rename_i taken found
    rw [if_pos (accept?_some found).1]
    exact taken?_after found takeLocal Operand.copy
  rename_i missing
  rw [accept?_none missing, if_neg (by simp)]
  split
  · rename_i taken found
    rw [if_pos (accept?_some found).1]
    exact taken?_after found takeLocal Operand.move
  rename_i missing
  rw [accept?_none missing, if_neg (by simp)]
  split
  · rename_i taken found
    rw [if_pos (accept?_some found).1]
    exact taken?_after found takeConst Operand.const
  · rename_i missing
    rw [accept?_none missing, if_neg (by simp), taken?_error]

theorem taken?_takeOperandsTail : taken? (takeOperandsTail tokens) =
    if nextIsWord ")" tokens then some ([], tokens.tail)
    else (taken? (takeOperand tokens)).bind fun x =>
      if nextIsWord "," x.2 then
        (taken? (takeOperandsTail x.2.tail)).map fun y => (x.1 :: y.1, y.2)
      else (taken? (expect ")" x.2)).map fun y => ([x.1], y.2) := by
  rw [takeOperandsTail]
  split
  · rename_i closed found
    obtain ⟨isWord, _, left⟩ := accept?_some found
    rw [if_pos isWord, ← left]
    rfl
  · rename_i missing
    rw [accept?_none missing, if_neg (by simp)]
    refine taken?_bind _ _ _ fun first => ?_
    simp only
    split
    · rename_i comma found
      obtain ⟨isWord, _, left⟩ := accept?_some found
      rw [if_pos isWord, ← left]
      exact taken?_last _ _ _ fun _ => rfl
    · rename_i missing
      rw [accept?_none missing, if_neg (by simp)]
      exact taken?_last _ _ _ fun _ => rfl

theorem taken?_takeOperands : taken? (takeOperands tokens) =
    (taken? (expect "(" tokens)).bind fun x =>
      (taken? (takeOperandsTail x.2)).map fun y => (y.1, y.2) :=
  taken?_bind _ _ _ fun _ => taken?_last _ _ _ fun _ => rfl

def struct? : Option (RValue × List Token) :=
  (taken? (expectKind .ident tokens)).bind fun x => (taken? (takeOperands x.2)).map fun y =>
    (.aggregate (.struct x.1.text.normalize) y.1, y.2)

def enum? : Option (RValue × List Token) :=
  (taken? (expectKind .ident tokens)).bind fun x => (taken? (expect "::" x.2)).bind fun y =>
    (taken? (expectKind .int y.2)).bind fun z => (variantOf z.1).toOption.bind fun variant =>
      (taken? (takeOperands z.2)).map fun w =>
        (.aggregate (.enum x.1.text.normalize variant) w.1, w.2)

theorem taken?_takeAggregate (head : Text) : taken? (takeAggregate tokens head) =
    if head = "tuple" then
      (taken? (takeOperands tokens)).map fun x => (.aggregate .tuple x.1, x.2)
    else if head = "array" then
      (taken? (takeOperands tokens)).map fun x => (.aggregate .array x.1, x.2)
    else if head = "struct" then struct? tokens
    else enum? tokens := by
  unfold takeAggregate
  split
  · exact taken?_last _ _ _ fun _ => rfl
  split
  · exact taken?_last _ _ _ fun _ => rfl
  split
  · exact taken?_bind _ _ _ fun _ => taken?_last _ _ _ fun _ => rfl
  · exact taken?_bind _ _ _ fun _ => taken?_bind _ _ _ fun _ => taken?_bind _ _ _ fun _ =>
      taken?_bind_plain _ _ _ fun _ => taken?_last _ _ _ fun _ => rfl

def unary? (op : UnaryOp) : List Operand → Option RValue
  | [value] => some (.unary op value)
  | _ => none

def binary? (op : BinaryOp) : List Operand → Option RValue
  | [left, right] => some (.binary op left right)
  | _ => none

theorem taken?_takeNamedValue (head : Token) : taken? (takeNamedValue head tokens) =
    if head.text = "cast" then
      (taken? (takeOperand tokens)).bind fun x => (taken? (expect "as" x.2)).bind fun y =>
        (taken? (takeType y.2)).map fun z => (.cast x.1 z.1, z.2)
    else if head.text = "len" then
      (taken? (takeParenLocal tokens)).map fun x => (.len x.1, x.2)
    else if head.text = "discriminant" then
      (taken? (takeParenLocal tokens)).map fun x => (.discriminant x.1, x.2)
    else if head.text = "tuple" ∨ head.text = "array" ∨ head.text = "struct" ∨
        head.text = "enum" then taken? (takeAggregate tokens head.text)
    else if head.text = "Neg" ∨ head.text = "Not" then
      (taken? (takeOperands tokens)).bind fun x =>
        (unary? (if head.text = "Not" then .not else .neg) x.1).map fun value => (value, x.2)
    else (BinaryOp.ofName? head.text).bind fun op => (taken? (takeOperands tokens)).bind fun x =>
      (binary? op x.1).map fun value => (value, x.2) := by
  unfold takeNamedValue
  split
  · exact taken?_bind _ _ _ fun _ => taken?_bind _ _ _ fun _ => taken?_last _ _ _ fun _ => rfl
  split
  · exact taken?_last _ _ _ fun _ => rfl
  split
  · exact taken?_last _ _ _ fun _ => rfl
  split
  · rfl
  split
  · refine taken?_bind _ _ _ fun ops => ?_
    simp only
    split
    · rename_i op same
      rw [same]
      rfl
    · rename_i other
      unfold unary?
      split
      · rename_i op same
        exact absurd same (other op)
      · rfl
  · split
    · rename_i op found
      rw [found]
      refine taken?_bind _ _ _ fun ops => ?_
      simp only
      split
      · rename_i left right same
        rw [same]
        rfl
      · rename_i other
        unfold binary?
        split
        · rename_i left right same
          exact absurd same (other left right)
        · rfl
    · rename_i missing
      rw [missing]
      rfl

theorem taken?_takeRValue : taken? (takeRValue tokens) =
    if nextIsWord "&" tokens then (taken? (takeLocal tokens.tail)).map fun x => (.ref x.1, x.2)
    else if nextIsWord "copy" tokens ∨ nextIsWord "move" tokens ∨ nextIsWord "const" tokens then
      (taken? (takeOperand tokens)).map fun x => (.use x.1, x.2)
    else (taken? (expectKind .ident tokens)).bind fun x =>
      (taken? (takeNamedValue x.1 x.2)).map fun y => (y.1, y.2) := by
  unfold takeRValue
  split
  · rename_i taken found
    rw [if_pos (accept?_some found).1]
    exact taken?_after found takeLocal RValue.ref
  rename_i missing
  rw [accept?_none missing, if_neg Bool.false_ne_true]
  split
  · exact taken?_last _ _ _ fun _ => rfl
  · exact taken?_bind _ _ _ fun _ => taken?_last _ _ _ fun _ => rfl

theorem taken?_takeStatement : taken? (takeStatement tokens) =
    if nextIsWord "nop" tokens then some (.nop, tokens.tail)
    else if nextIsWord "drop" tokens then
      (taken? (takeParenLocal tokens.tail)).map fun x => (.drop x.1, x.2)
    else (taken? (takeLocal tokens)).bind fun x => (taken? (expect "=" x.2)).bind fun y =>
      (taken? (takeRValue y.2)).map fun z => (.assign x.1 z.1, z.2) := by
  unfold takeStatement
  split
  · rename_i taken found
    obtain ⟨isWord, _, left⟩ := accept?_some found
    rw [if_pos isWord, ← left]
    rfl
  rename_i missing
  rw [accept?_none missing, if_neg (by simp)]
  split
  · rename_i taken found
    rw [if_pos (accept?_some found).1]
    exact taken?_after found takeParenLocal Statement.drop
  · rename_i missing
    rw [accept?_none missing, if_neg (by simp)]
    exact taken?_bind _ _ _ fun _ => taken?_bind _ _ _ fun _ => taken?_last _ _ _ fun _ => rfl

end Values

section Terminators

variable (labels : Labels) (tokens : List Token)

def block? (text : Text) : Option BlockId := (labels text).or (numberedBlock? text)

theorem taken?_takeBlock : taken? (takeBlock labels tokens) =
    (taken? (expectKind .ident tokens)).bind fun x =>
      (block? labels x.1.text).map fun id => (id, x.2) := by
  refine taken?_bind _ _ _ fun label => ?_
  unfold block?
  simp only
  split
  · rename_i id known
    rw [known]
    rfl
  · rename_i unknown
    rw [unknown]
    split
    · rename_i id numbered
      rw [numbered]
      rfl
    · rename_i none
      rw [none]
      rfl

theorem taken?_takeTarget : taken? (takeTarget labels tokens) =
    (taken? (expect "->" tokens)).bind fun x =>
      (taken? (takeBlock labels x.2)).map fun y => (y.1, y.2) :=
  taken?_bind _ _ _ fun _ => taken?_last _ _ _ fun _ => rfl

theorem taken?_takeCases : taken? (takeCases labels tokens) =
    if nextIsWord "otherwise" tokens then
      (taken? (expect ":" tokens.tail)).bind fun x =>
        (taken? (takeBlock labels x.2)).map fun y => (([], y.1), y.2)
    else (taken? (expectKind .int tokens)).bind fun x => (caseValue x.1).toOption.bind fun value =>
      (taken? (expect ":" x.2)).bind fun y => (taken? (takeBlock labels y.2)).bind fun z =>
        (taken? (expect "," z.2)).bind fun w => (taken? (takeCases labels w.2)).map fun v =>
          ((⟨value, z.1⟩ :: v.1.1, v.1.2), v.2) := by
  rw [takeCases]
  split
  · rename_i word found
    obtain ⟨isWord, _, left⟩ := accept?_some found
    rw [if_pos isWord, ← left]
    exact taken?_bind _ _ _ fun _ => taken?_last _ _ _ fun _ => rfl
  · rename_i missing
    rw [accept?_none missing, if_neg Bool.false_ne_true]
    exact taken?_bind _ _ _ fun _ => taken?_bind_plain _ _ _ fun _ => taken?_bind _ _ _ fun _ =>
      taken?_bind _ _ _ fun _ => taken?_bind _ _ _ fun _ => taken?_last _ _ _ fun _ => rfl

theorem taken?_takeSwitch : taken? (takeSwitch labels tokens) =
    (taken? (expect "(" tokens)).bind fun x => (taken? (takeOperand x.2)).bind fun discr =>
      (taken? (expect ")" discr.2)).bind fun y => (taken? (expect "->" y.2)).bind fun z =>
        (taken? (expect "[" z.2)).bind fun w => (taken? (takeCases labels w.2)).bind fun cases =>
          (taken? (expect "]" cases.2)).map fun v =>
            (.switchInt discr.1 cases.1.1 cases.1.2, v.2) :=
  taken?_bind _ _ _ fun _ => taken?_bind _ _ _ fun _ => taken?_bind _ _ _ fun _ =>
    taken?_bind _ _ _ fun _ => taken?_bind _ _ _ fun _ => taken?_bind _ _ _ fun _ =>
      taken?_last _ _ _ fun _ => rfl

theorem taken?_takeTruth : taken? (takeTruth tokens) =
    if nextIsWord "true" tokens then some (true, tokens.tail)
    else if nextIsWord "false" tokens then some (false, tokens.tail)
    else none := by
  unfold takeTruth
  split
  · rename_i word found
    obtain ⟨isWord, _, left⟩ := accept?_some found
    rw [if_pos isWord, ← left]
    rfl
  rename_i missing
  rw [accept?_none missing, if_neg Bool.false_ne_true]
  split
  · rename_i word found
    obtain ⟨isWord, _, left⟩ := accept?_some found
    rw [if_pos isWord, ← left]
    rfl
  · rename_i missing
    rw [accept?_none missing, if_neg Bool.false_ne_true, taken?_error]

theorem taken?_takeAssert : taken? (takeAssert labels tokens) =
    (taken? (expect "(" tokens)).bind fun x => (taken? (takeOperand x.2)).bind fun cond =>
      (taken? (expect "," cond.2)).bind fun y => (taken? (takeTruth y.2)).bind fun expected =>
        (taken? (expect "," expected.2)).bind fun z =>
          (taken? (expectKind .string z.2)).bind fun msg =>
            (taken? (expect ")" msg.2)).bind fun w => (taken? (takeTarget labels w.2)).map
              fun target => (.assert cond.1 expected.1 msg.1.text target.1, target.2) :=
  taken?_bind _ _ _ fun _ => taken?_bind _ _ _ fun _ => taken?_bind _ _ _ fun _ =>
    taken?_bind _ _ _ fun _ => taken?_bind _ _ _ fun _ => taken?_bind _ _ _ fun _ =>
      taken?_bind _ _ _ fun _ => taken?_last _ _ _ fun _ => rfl

theorem taken?_takeCall (dst : Option LocalId) : taken? (takeCall labels dst tokens) =
    (taken? (expectKind .ident tokens)).bind fun func => (taken? (takeOperands func.2)).bind
      fun args => (taken? (takeTarget labels args.2)).map fun target =>
        (.call func.1.text.normalize args.1 dst target.1, target.2) :=
  taken?_bind _ _ _ fun _ => taken?_bind _ _ _ fun _ => taken?_last _ _ _ fun _ => rfl

theorem taken?_takeCallLine : taken? (takeCallLine labels tokens) =
    if hasDestination tokens then
      (taken? (takeLocal tokens)).bind fun dst =>
        (taken? (takeCall labels (some dst.1) (dst.2.drop 1))).map fun x => (x.1, x.2)
    else taken? (takeCall labels none tokens) := by
  unfold takeCallLine
  split
  · exact taken?_bind _ _ _ fun _ => taken?_last _ _ _ fun _ => rfl
  · rfl

/-- A whole reader behind a keyword. -/
theorem taken?_behind {α : Type} {word : Text} {tokens : List Token}
    {taken : Taken Token tokens} (found : accept? word tokens = some taken)
    (read : (tokens : List Token) → Take α tokens) :
    taken? (read taken.rest >>= fun x => pure (taken.andThen x) : Take α tokens) =
      taken? (read tokens.tail) := by
  obtain ⟨_, _, left⟩ := accept?_some found
  rw [← left]
  cases read taken.rest <;> rfl

theorem taken?_takeTerminator : taken? (takeTerminator labels tokens) =
    if nextIsWord "return" tokens then some (.ret, tokens.tail)
    else if nextIsWord "unreachable" tokens then some (.unreachable, tokens.tail)
    else if nextIsWord "goto" tokens then
      (taken? (takeTarget labels tokens.tail)).map fun x => (.goto x.1, x.2)
    else if nextIsWord "switchInt" tokens then taken? (takeSwitch labels tokens.tail)
    else if nextIsWord "assert" tokens then taken? (takeAssert labels tokens.tail)
    else taken? (takeCallLine labels tokens) := by
  unfold takeTerminator
  split
  · rename_i word found
    obtain ⟨isWord, _, left⟩ := accept?_some found
    rw [if_pos isWord, ← left]
    rfl
  rename_i missing
  rw [accept?_none missing, if_neg Bool.false_ne_true]
  split
  · rename_i word found
    obtain ⟨isWord, _, left⟩ := accept?_some found
    rw [if_pos isWord, ← left]
    rfl
  rename_i missing
  rw [accept?_none missing, if_neg Bool.false_ne_true]
  split
  · rename_i word found
    rw [if_pos (accept?_some found).1]
    exact taken?_after found (takeTarget labels) Terminator.goto
  rename_i missing
  rw [accept?_none missing, if_neg Bool.false_ne_true]
  split
  · rename_i word found
    rw [if_pos (accept?_some found).1]
    exact taken?_behind found (takeSwitch labels)
  rename_i missing
  rw [accept?_none missing, if_neg Bool.false_ne_true]
  split
  · rename_i word found
    rw [if_pos (accept?_some found).1]
    exact taken?_behind found (takeAssert labels)
  · rename_i missing
    rw [accept?_none missing, if_neg Bool.false_ne_true]

end Terminators

section Line

variable {α : Type}

/-- A line gives a value when its reader takes all tokens but the one that marks the end. -/
theorem parseLine_ok_iff (take : (tokens : List Token) → Take α tokens) (src : Text) (value : α) :
    parseLine take src = .ok value ↔ ∃ tokens left, lex src = .ok tokens ∧
      taken? (take tokens) = some (value, left) ∧ (peek left).kind = .eof := by
  unfold parseLine
  cases lex src with
  | error fault => simp [bind, Except.bind]
  | ok tokens =>
      cases same : take tokens with
      | error fault => simp [bind, Except.bind, same]
      | ok taken =>
          by_cases ended : (peek taken.rest).kind = .eof
          · simp [bind, Except.bind, same, expectEnd, ended, pure, Except.pure]
          · simp [bind, Except.bind, same, expectEnd, ended]

end Line

end Source

end BorrowChecker
