import BorrowChecker.Proofs.Composed
import BorrowChecker.Proofs.Lexeme
import BorrowChecker.Proofs.RoundTrip

/-!
What an accepted line gives. Whatever the readers make of the tokens of a line is written in full,
and its names are composed forms of identifiers: words that the printer can write, but not always
words that the lexer takes.
-/

namespace BorrowChecker

namespace Source

open Mir Text

structure Token.IsMade (t : Token) : Prop where
  ident : t.kind = .ident → isIdentifier t.text
  lifetime : t.kind = .lifetime → isLifetime t.text

def Made (tokens : List Token) : Prop := ∀ t ∈ tokens, t.IsMade

section Lexing

variable {points : List CodePoint}

theorem codePoints_of_names (known : ∀ c ∈ points, c.IsWhole ∨ c.isBroken)
    (names : ∀ c ∈ points, isNamePoint c) : (ofCodePoints points).codePoints = points :=
  codePoints_ofCodePoints fun c member => (bonds_of_isNamePoint (known c member) (names c member)).whole

theorem isLifetime_of_names (present : points ≠ []) (known : ∀ c ∈ points, c.IsWhole ∨ c.isBroken)
    (names : ∀ c ∈ points, isNamePoint c) : isLifetime (ofCodePoints points) := by
  have same := codePoints_of_names known names
  rw [isLifetime, same, Bool.and_eq_true, Bool.not_eq_true', List.isEmpty_eq_false_iff]
  refine ⟨fun empty => present ?_, List.all_eq_true.mpr names⟩
  rw [← same, empty]
  rfl

theorem Lexeme.isMade {run : List CodePoint} {t : Token} (lexeme : Lexeme run t.kind t.text)
    (known : ∀ c ∈ run, c.IsWhole ∨ c.isBroken) : t.IsMade := by
  obtain ⟨kind, text, pos⟩ := t
  cases lexeme with
  | @name c inside starts all =>
      have names : ∀ d ∈ c :: inside, isNamePoint d :=
        List.forall_mem_cons.mpr ⟨isNamePoint_of_starts starts, List.all_eq_true.mp all⟩
      have same := codePoints_of_names known names
      exact ⟨fun _ => isIdentifier_iff.mpr ⟨c, inside, same, starts, all⟩, by simp⟩
  | lifetime _ present all =>
      have inside := (List.forall_mem_cons.mp known).2
      exact ⟨by simp, fun _ => isLifetime_of_names present inside (List.all_eq_true.mp all)⟩
  | number isNumber =>
      rcases isNumber.kind_eq with rfl | rfl <;> exact ⟨by simp, by simp⟩
  | string | arrow | path | symbol => exact ⟨by simp, by simp⟩

theorem lex_made {src : Text} {tokens : List Token} (lexed : lex src = .ok tokens) : Made tokens := by
  obtain ⟨line, stop, rfl, isEnd, _, each⟩ := lexFrom_lexemes lexed
  intro t member
  rcases List.mem_append.mp member with inside | last
  · obtain ⟨run, within, lexeme⟩ := each t inside
    exact lexeme.isMade fun c read => mem_codePoints (within read)
  · rw [List.mem_singleton.mp last]
    exact ⟨by simp [isEnd], by simp [isEnd]⟩

end Lexing

/-- What a reader gives from made tokens: a good value, and again made tokens. -/
def Gives {α : Type} (good : α → Prop) (outcome : Option (α × List Token)) : Prop :=
  ∀ x ∈ outcome, good x.1 ∧ Made x.2

theorem Made.tail {tokens : List Token} (made : Made tokens) : Made tokens.tail :=
  fun t member => made t (List.mem_of_mem_tail member)

namespace Gives

variable {α β γ : Type} {good : α → Prop} {fine : β → Prop}

theorem none : Gives good none := by simp [Gives]

theorem some {value : α} {rest : List Token} (holds : good value) (made : Made rest) :
    Gives good (some (value, rest)) := by
  intro x isSome
  obtain rfl := Option.mem_some_iff.mp isSome
  exact ⟨holds, made⟩

theorem bind {first : Option (α × List Token)} {next : α × List Token → Option (β × List Token)}
    (given : Gives good first)
    (step : ∀ x ∈ first, good x.1 → Made x.2 → Gives fine (next x)) :
    Gives fine (first.bind next) := by
  intro y isSome
  obtain ⟨x, taken, later⟩ := Option.bind_eq_some_iff.mp isSome
  exact step x taken (given x taken).1 (given x taken).2 y later

theorem map {first : Option (α × List Token)} {finish : α × List Token → β × List Token}
    (given : Gives good first)
    (step : ∀ x ∈ first, good x.1 → Made x.2 → fine (finish x).1 ∧ Made (finish x).2) :
    Gives fine (first.map finish) := by
  intro y isSome
  obtain ⟨x, taken, rfl⟩ := Option.map_eq_some_iff.mp isSome
  exact step x taken (given x taken).1 (given x taken).2

/-- Something that is looked up on the way. -/
theorem lookup {found : Option γ} {next : γ → Option (β × List Token)}
    (step : ∀ x ∈ found, Gives fine (next x)) : Gives fine (found.bind next) := by
  intro y isSome
  obtain ⟨x, known, later⟩ := Option.bind_eq_some_iff.mp isSome
  exact step x known y later

theorem ite {c : Prop} [Decidable c] {yes no : Option (α × List Token)}
    (then_ : c → Gives good yes) (else_ : ¬ c → Gives good no) :
    Gives good (if c then yes else no) := by
  split
  · exact then_ ‹c›
  · exact else_ ‹¬ c›

end Gives

section Tokens

variable {tokens : List Token}

theorem shorter_of_taken {α : Type} {read : Take α tokens} {x : α × List Token}
    (taken : x ∈ taken? read) : x.2.length < tokens.length := by
  obtain ⟨t, _, rfl⟩ := Option.map_eq_some_iff.mp taken
  exact t.shorter

theorem gives_expect (word : Text) (made : Made tokens) :
    Gives (fun _ => True) (taken? (expect word tokens)) := by
  rw [taken?_expect]
  exact .ite (fun _ => .some trivial made.tail) fun _ => .none

theorem gives_expectKind (kind : TokenKind) (made : Made tokens) :
    Gives (fun t => t.kind = kind ∧ t.IsMade) (taken? (expectKind kind tokens)) := by
  rw [taken?_expectKind]
  refine .ite (fun present => .some ⟨present.2, ?_⟩ made.tail) fun _ => .none
  obtain ⟨t, rest, rfl⟩ := List.exists_cons_of_ne_nil present.1
  exact made t (List.mem_cons_self ..)

end Tokens

/-- A tree that is written in full, its names being identifiers or refused wherever they stand. -/
structure IsSound (canonical : Prop) (names : List Text) : Prop where
  canonical : canonical
  wordlike : ∀ name ∈ names, IsWordlike name

section Types

abbrev SoundType (t : Ty) : Prop := IsSound t.Canonical t.names

theorem soundType_scalar {s : Shape} (isNamed : s.scalarName?.isSome) : SoundType (.scalar s) :=
  ⟨.scalar isNamed, by simp [Ty.names_scalar isNamed]⟩

theorem sound_names {elems : List Ty} (sound : ∀ t ∈ elems, SoundType t) :
    ∀ name ∈ elems.flatMap Ty.names, IsWordlike name := by
  intro name member
  obtain ⟨t, isElem, inside⟩ := List.mem_flatMap.mp member
  exact (sound t isElem).wordlike name inside

theorem soundType_parenthesized {elems : List Ty} {trailing : Bool} (present : elems ≠ [])
    (sound : ∀ t ∈ elems, SoundType t) : SoundType (parenthesized elems trailing) := by
  unfold parenthesized
  split
  · exact sound _ (List.mem_singleton_self _)
  · exact ⟨.tuple present fun t member => (sound t member).canonical, by
      simpa using sound_names sound⟩

theorem soundType_refOf {t : Ty} {lifetime : Text} (valid : lifetime = [] ∨ isLifetime lifetime)
    (isMut : Bool) (sound : SoundType t) : SoundType (refOf lifetime isMut t) := by
  unfold refOf
  split
  · exact ⟨.ref isMut sound.canonical, by simpa using sound.wordlike⟩
  · rename_i present
    have isValid : isLifetime lifetime := valid.resolve_left fun empty => present (by simp [empty])
    exact ⟨.refWithLifetime isMut isValid sound.canonical, by simpa using sound.wordlike⟩

def typeWords : List Text := "fn" :: "enum" :: Shape.scalars.filterMap Shape.scalarName?

theorem typeWords_plain : ∀ word ∈ typeWords, isPlain word := by decide

theorem mem_typeWords_of_scalar {name : Text} {s : Shape}
    (known : Shape.ofScalarName? name = some s) : name ∈ typeWords := by
  have isNamed : s.scalarName? = some name := by simpa using List.find?_some known
  refine List.mem_cons_of_mem _ (List.mem_cons_of_mem _ (List.mem_filterMap.mpr ⟨s, ?_, isNamed⟩))
  exact List.mem_of_find?_eq_some known

theorem soundType_struct {name : Text} (ident : isIdentifier name) (noFn : name ≠ "fn")
    (noEnum : name ≠ "enum") (noScalar : Shape.ofScalarName? name = none) :
    SoundType (.structNamed name.normalize) := by
  -- A name that is composed to a word of the types already was that word.
  have same : name.normalize ∈ typeWords → name = name.normalize := fun known =>
    eq_of_normalize_eq ident (typeWords_plain _ known) rfl
  refine ⟨.struct ?_ ?_ ?_, by simpa using wordlike_normalize ident⟩
  · intro isFn
    exact noFn ((same (isFn ▸ by decide)).trans isFn)
  · intro isEnum
    exact noEnum ((same (isEnum ▸ by decide)).trans isEnum)
  · cases known : Shape.ofScalarName? name.normalize with
    | none => rfl
    | some s =>
        rw [← same (mem_typeWords_of_scalar known), noScalar] at known
        exact known.symm

theorem made_cutLifetime {tokens : List Token} (made : Made tokens) :
    Made (cutLifetime tokens).2 ∧
      ((cutLifetime tokens).1 = [] ∨ isLifetime (cutLifetime tokens).1) := by
  cases tokens with
  | nil => exact ⟨made, .inl rfl⟩
  | cons t rest =>
      simp only [cutLifetime]
      split
      · rename_i isLifetime
        exact ⟨made.tail, .inr ((made t (List.mem_cons_self ..)).lifetime isLifetime)⟩
      · exact ⟨made, .inl rfl⟩

theorem made_cutWord {tokens : List Token} (word : Text) (made : Made tokens) :
    Made (cutWord word tokens).2 := by
  rw [cutWord_eq]
  dsimp only
  split
  · exact made.tail
  · exact made

section Below

-- What is known of the type reader for fewer tokens.
variable {bound : Nat} (types : ∀ tokens : List Token, tokens.length < bound → Made tokens →
  Gives SoundType (taken? (takeType tokens))) (tokens : List Token)
include types

theorem gives_types (short : tokens.length < bound) (made : Made tokens) :
    Gives (fun elems : List Ty × Bool => elems.1 ≠ [] ∧ ∀ t ∈ elems.1, SoundType t)
      (taken? (takeTypes tokens)) := by
  induction size : tokens.length using Nat.strong_induction_on generalizing tokens with
  | h n ih =>
      rw [taken?_takeTypes]
      refine (types tokens short made).bind fun x taken sound left => ?_
      have shorter := shorter_of_taken taken
      have alone : [x.1] ≠ [] ∧ ∀ t ∈ [x.1], SoundType t := by simpa using sound
      refine .ite (fun comma => .ite (fun _ => .some alone left.tail) fun _ => ?_)
        fun _ => .some alone left
      have tailShorter : x.2.tail.length < tokens.length := by
        have := List.length_tail (l := x.2)
        omega
      refine (ih _ (by omega) _ (by omega) left.tail rfl).map fun y _ sounds rest => ⟨?_, rest⟩
      exact ⟨by simp, List.forall_mem_cons.mpr ⟨sound, sounds.2⟩⟩

theorem gives_params (short : tokens.length < bound) (made : Made tokens) :
    Gives (fun params : List Ty => ∀ t ∈ params, SoundType t) (taken? (takeParams tokens)) := by
  rw [taken?_takeParams]
  refine .ite (fun _ => .some (by simp) made.tail) fun _ => ?_
  refine (gives_types types tokens short made).bind fun x _ sounds left => ?_
  exact (gives_expect ")" left).map fun y _ _ rest => ⟨sounds.2, rest⟩

theorem gives_function (short : tokens.length < bound) (made : Made tokens) :
    Gives SoundType (function? tokens) := by
  have sound : ∀ {params : List Ty} {result : Ty}, (∀ t ∈ params, SoundType t) →
      SoundType result → SoundType (.functionOf params result) := by
    intro params result sounds last
    refine ⟨.function (fun t member => (sounds t member).canonical) last.canonical, ?_⟩
    simp only [Ty.names_functionOf]
    exact List.forall_mem_append.mpr ⟨sound_names sounds, last.wordlike⟩
  unfold function?
  refine (gives_expect "(" made).bind fun x opened _ inside => ?_
  have openedShorter := shorter_of_taken opened
  refine (gives_params types x.2 (by omega) inside).bind fun y taken sounds left => ?_
  have shorter := shorter_of_taken taken
  refine .ite (fun _ => ?_) fun _ => .some (sound sounds (soundType_scalar rfl)) left
  have tailShorter := List.length_tail (l := y.2)
  refine (types y.2.tail (by omega) left.tail).map fun z _ last rest => ⟨sound sounds last, rest⟩

theorem gives_parenthesized (short : tokens.length < bound) (made : Made tokens) :
    Gives SoundType (parenthesized? tokens) := by
  unfold parenthesized?
  refine .ite (fun _ => .some (soundType_scalar rfl) made.tail) fun _ => ?_
  refine (gives_types types tokens short made).bind fun x _ sounds left => ?_
  exact (gives_expect ")" left).map fun y _ _ rest =>
    ⟨soundType_parenthesized sounds.1 sounds.2, rest⟩

end Below

theorem gives_type {tokens : List Token} (made : Made tokens) :
    Gives SoundType (taken? (takeType tokens)) := by
  induction size : tokens.length using Nat.strong_induction_on generalizing tokens with
  | h n ih =>
      cases tokens with
      | nil =>
          rw [taken?_takeType_nil]
          exact .none
      | cons t rest =>
          have types : ∀ more : List Token, more.length < n → Made more →
              Gives SoundType (taken? (takeType more)) := fun more shorter made =>
            ih more.length shorter made rfl
          have short : rest.length < n := by simp at size; omega
          have left : Made rest := made.tail
          rw [taken?_takeType]
          refine .ite (fun _ => gives_parenthesized types rest short left) fun _ => ?_
          refine .ite (fun _ => .some (soundType_scalar rfl) left) fun _ => ?_
          refine .ite (fun _ => (types rest short left).map fun x _ sound more =>
            ⟨⟨.pointer sound.canonical, by simpa using sound.wordlike⟩, more⟩) fun _ => ?_
          refine .ite (fun _ => ?_) fun _ => ?_
          · obtain ⟨madeLifetime, valid⟩ := made_cutLifetime left
            have lifetimeShort := cutLifetime_length_le rest
            have mutShort := cutWord_length_le "mut" (cutLifetime rest).2
            exact (types _ (by omega) (made_cutWord "mut" madeLifetime)).map fun x _ sound more =>
              ⟨soundType_refOf valid _ sound, more⟩
          refine .ite (fun _ => ?_) fun _ => ?_
          · refine (types rest short left).bind fun x _ sound more => ?_
            exact (gives_expect "]" more).map fun y _ _ last =>
              ⟨⟨.array sound.canonical, by simpa using sound.wordlike⟩, last⟩
          refine .ite (fun _ => .none) fun isIdent => ?_
          have ident := (made t (List.mem_cons_self ..)).ident (not_not.mp isIdent)
          refine .ite (fun _ => gives_function types rest short left) fun noFn => ?_
          refine .ite (fun _ => ?_) fun noEnum => ?_
          · exact (gives_expectKind .ident left).map fun x _ name more =>
              ⟨⟨.enum _, by simpa using wordlike_normalize (name.2.ident name.1)⟩, more⟩
          · refine .some ?_ left
            cases known : Shape.ofScalarName? t.text with
            | none => exact soundType_struct ident noFn noEnum known
            | some s =>
                have isNamed : s.scalarName? = some t.text := by simpa using List.find?_some known
                exact soundType_scalar (by rw [isNamed]; rfl)

end Types

section Values

variable {tokens : List Token}

theorem numbered_of_lt {n : Nat} (small : n < 0x80000000) : Numbered n :=
  ⟨by omega, by omega⟩

theorem gives_local (made : Made tokens) : Gives Numbered (taken? (takeLocal tokens)) := by
  cases tokens with
  | nil => exact .none
  | cons t rest =>
      rw [taken?_takeLocal]
      intro x isSome
      obtain ⟨place, found, rfl⟩ := Option.map_eq_some_iff.mp isSome
      refine ⟨?_, made.tail⟩
      simp only [local?, Option.ite_none_right_eq_some, Option.bind_eq_some_iff,
        Option.some.injEq] at found
      obtain ⟨_, n, _, small, rfl⟩ := found
      exact numbered_of_lt small

theorem gives_parenLocal (made : Made tokens) :
    Gives Numbered (taken? (takeParenLocal tokens)) := by
  rw [taken?_takeParenLocal]
  refine (gives_expect "(" made).bind fun x _ _ inside => ?_
  refine (gives_local inside).bind fun y _ numbered left => ?_
  exact (gives_expect ")" left).map fun z _ _ rest => ⟨numbered, rest⟩

theorem written_of_numberConst {t : Token} {value : Const}
    (read : value ∈ (numberConst t).toOption) : value.IsWritten := by
  unfold numberConst at read
  split at read
  · split at read
    · obtain rfl := Option.mem_some_iff.mp read
      trivial
    · simp [Except.toOption] at read
  · split at read
    · rename_i v finite
      obtain rfl := Option.mem_some_iff.mp read
      exact Double.isFinite_of_read finite
    · simp [Except.toOption] at read

theorem gives_const (made : Made tokens) : Gives Const.IsWritten (taken? (takeConst tokens)) := by
  cases tokens with
  | nil => exact .none
  | cons t rest =>
      have left : Made rest := made.tail
      rw [taken?_takeConst]
      refine .ite (fun _ => ?_) fun _ => ?_
      · intro x isSome
        obtain ⟨value, read, rfl⟩ := Option.map_eq_some_iff.mp isSome
        exact ⟨written_of_numberConst read, left⟩
      refine .ite (fun _ => .some trivial left) fun _ => ?_
      refine .ite (fun _ => .some trivial left) fun _ => ?_
      refine .ite (fun _ => .some trivial left) fun _ => ?_
      refine .ite (fun _ => ?_) fun _ => .none
      exact (gives_expect ")" left).map fun x _ _ more => ⟨trivial, more⟩

theorem gives_operand (made : Made tokens) :
    Gives Operand.IsWritten (taken? (takeOperand tokens)) := by
  rw [taken?_takeOperand]
  refine .ite (fun _ => (gives_local made.tail).map fun x _ place left => ⟨place, left⟩) fun _ => ?_
  refine .ite (fun _ => (gives_local made.tail).map fun x _ place left => ⟨place, left⟩) fun _ => ?_
  exact .ite (fun _ => (gives_const made.tail).map fun x _ written left => ⟨written, left⟩)
    fun _ => .none

abbrev AllWritten (ops : List Operand) : Prop := ∀ op ∈ ops, op.IsWritten

theorem gives_operandsTail (made : Made tokens) :
    Gives AllWritten (taken? (takeOperandsTail tokens)) := by
  induction size : tokens.length using Nat.strong_induction_on generalizing tokens with
  | h n ih =>
      rw [taken?_takeOperandsTail]
      refine .ite (fun _ => .some (List.forall_mem_nil _) made.tail) fun _ => ?_
      refine (gives_operand made).bind fun x taken written left => ?_
      have shorter := shorter_of_taken taken
      refine .ite (fun _ => ?_) fun _ => ?_
      · have tailShorter := List.length_tail (l := x.2)
        exact (ih _ (by omega) left.tail rfl).map fun y _ others rest =>
          ⟨List.forall_mem_cons.mpr ⟨written, others⟩, rest⟩
      · exact (gives_expect ")" left).map fun y _ _ rest =>
          ⟨List.forall_mem_singleton.mpr written, rest⟩

theorem gives_operands (made : Made tokens) : Gives AllWritten (taken? (takeOperands tokens)) := by
  rw [taken?_takeOperands]
  refine (gives_expect "(" made).bind fun x _ _ inside => ?_
  exact (gives_operandsTail inside).map fun y _ written left => ⟨written, left⟩

abbrev SoundValue (value : RValue) : Prop := IsSound value.Canonical value.names

theorem gives_aggregate (head : Text) (made : Made tokens) :
    Gives SoundValue (taken? (takeAggregate tokens head)) := by
  rw [taken?_takeAggregate]
  refine .ite (fun _ => (gives_operands made).map fun x _ written left =>
    ⟨⟨⟨by simp, written⟩, by simp [RValue.names, AggregateHead.names]⟩, left⟩) fun _ => ?_
  refine .ite (fun _ => (gives_operands made).map fun x _ written left =>
    ⟨⟨⟨by simp, written⟩, by simp [RValue.names, AggregateHead.names]⟩, left⟩) fun _ => ?_
  refine .ite (fun _ => ?_) fun _ => ?_
  · refine (gives_expectKind .ident made).bind fun x _ name inside => ?_
    exact (gives_operands inside).map fun y _ written left =>
      ⟨⟨⟨by simp, written⟩, by
        simpa [RValue.names, AggregateHead.names] using wordlike_normalize (name.2.ident name.1)⟩, left⟩
  · refine (gives_expectKind .ident made).bind fun x _ name afterName => ?_
    refine (gives_expect "::" afterName).bind fun y _ _ afterPath => ?_
    refine (gives_expectKind .int afterPath).bind fun z _ _ inside => .lookup fun variant _ => ?_
    exact (gives_operands inside).map fun w _ written left =>
      ⟨⟨⟨by simp, written⟩, by
        simpa [RValue.names, AggregateHead.names] using wordlike_normalize (name.2.ident name.1)⟩, left⟩

theorem ofName?_known {name : Text} {op : BinaryOp} (found : BinaryOp.ofName? name = some op) :
    op ≠ .unknown := by
  rintro rfl
  have listed := List.mem_of_find?_eq_some found
  exact absurd listed (by decide)

theorem gives_namedValue (head : Token) (made : Made tokens) :
    Gives SoundValue (taken? (takeNamedValue head tokens)) := by
  rw [taken?_takeNamedValue]
  refine .ite (fun _ => ?_) fun _ => ?_
  · refine (gives_operand made).bind fun x _ written afterValue => ?_
    refine (gives_expect "as" afterValue).bind fun y _ _ afterWord => ?_
    exact (gives_type afterWord).map fun z _ sound left =>
      ⟨⟨⟨written, sound.canonical⟩, sound.wordlike⟩, left⟩
  refine .ite (fun _ => (gives_parenLocal made).map fun x _ place left =>
    ⟨⟨place, by simp [RValue.names]⟩, left⟩) fun _ => ?_
  refine .ite (fun _ => (gives_parenLocal made).map fun x _ place left =>
    ⟨⟨place, by simp [RValue.names]⟩, left⟩) fun _ => ?_
  refine .ite (fun _ => gives_aggregate head.text made) fun _ => ?_
  refine .ite (fun _ => ?_) fun _ => ?_
  · refine (gives_operands made).bind fun x _ written left => ?_
    intro y isSome
    obtain ⟨value, built, rfl⟩ := Option.map_eq_some_iff.mp isSome
    refine ⟨?_, left⟩
    unfold unary? at built
    split at built
    · rename_i op same
      obtain rfl := Option.some.inj built
      refine ⟨⟨by split <;> simp, written op (by simp [same])⟩, by simp [RValue.names]⟩
    · simp at built
  · refine .lookup fun op known => (gives_operands made).bind fun x _ written left => ?_
    intro y isSome
    obtain ⟨value, built, rfl⟩ := Option.map_eq_some_iff.mp isSome
    refine ⟨?_, left⟩
    unfold binary? at built
    split at built
    · rename_i first second same
      obtain rfl := Option.some.inj built
      exact ⟨⟨ofName?_known known, written first (by simp [same]), written second (by simp [same])⟩,
        by simp [RValue.names]⟩
    · simp at built

theorem gives_rvalue (made : Made tokens) : Gives SoundValue (taken? (takeRValue tokens)) := by
  rw [taken?_takeRValue]
  refine .ite (fun _ => (gives_local made.tail).map fun x _ place left =>
    ⟨⟨place, by simp [RValue.names]⟩, left⟩) fun _ => ?_
  refine .ite (fun _ => (gives_operand made).map fun x _ written left =>
    ⟨⟨written, by simp [RValue.names]⟩, left⟩) fun _ => ?_
  refine (gives_expectKind .ident made).bind fun x _ _ inside => ?_
  exact (gives_namedValue x.1 inside).map fun y _ sound left => ⟨sound, left⟩

theorem gives_statement (made : Made tokens) :
    Gives (fun s : Statement => IsSound s.Canonical s.names) (taken? (takeStatement tokens)) := by
  rw [taken?_takeStatement]
  refine .ite (fun _ => .some ⟨trivial, by simp [Statement.names]⟩ made.tail) fun _ => ?_
  refine .ite (fun _ => (gives_parenLocal made.tail).map fun x _ place left =>
    ⟨⟨place, by simp [Statement.names]⟩, left⟩) fun _ => ?_
  refine (gives_local made).bind fun x _ place afterPlace => ?_
  refine (gives_expect "=" afterPlace).bind fun y _ _ afterEquals => ?_
  exact (gives_rvalue afterEquals).map fun z _ sound left =>
    ⟨⟨⟨place, sound.canonical⟩, sound.wordlike⟩, left⟩

end Values

section Terminators

variable {tokens : List Token}

theorem numbered_of_numberedBlock {text : Text} {id : BlockId}
    (found : numberedBlock? text = some id) : Numbered id := by
  unfold numberedBlock? at found
  split at found
  · simp at found
  split at found
  · obtain ⟨small, same⟩ := Option.ite_none_right_eq_some.mp found
    exact Option.some.inj same ▸ numbered_of_lt small
  · simp at found

theorem gives_block (made : Made tokens) :
    Gives Numbered (taken? (takeBlock noLabels tokens)) := by
  rw [taken?_takeBlock]
  refine (gives_expectKind .ident made).bind fun x _ _ left => ?_
  intro y isSome
  obtain ⟨id, found, rfl⟩ := Option.map_eq_some_iff.mp isSome
  exact ⟨numbered_of_numberedBlock found, left⟩

theorem gives_target (made : Made tokens) :
    Gives Numbered (taken? (takeTarget noLabels tokens)) := by
  rw [taken?_takeTarget]
  refine (gives_expect "->" made).bind fun x _ _ inside => ?_
  exact (gives_block inside).map fun y _ target left => ⟨target, left⟩

theorem gives_cases (made : Made tokens) :
    Gives (fun x : List SwitchCase × BlockId => (∀ c ∈ x.1, Numbered c.target) ∧ Numbered x.2)
      (taken? (takeCases noLabels tokens)) := by
  induction size : tokens.length using Nat.strong_induction_on generalizing tokens with
  | h n ih =>
      rw [taken?_takeCases]
      refine .ite (fun _ => ?_) fun _ => ?_
      · refine (gives_expect ":" made.tail).bind fun x _ _ afterColon => ?_
        exact (gives_block afterColon).map fun y _ target left => ⟨⟨by simp, target⟩, left⟩
      refine (gives_expectKind .int made).bind fun x number _ afterNumber => .lookup fun value _ => ?_
      refine (gives_expect ":" afterNumber).bind fun y colon _ afterColon => ?_
      refine (gives_block afterColon).bind fun z label target afterTarget => ?_
      refine (gives_expect "," afterTarget).bind fun w comma _ afterComma => ?_
      have first := shorter_of_taken number
      have second := shorter_of_taken colon
      have third := shorter_of_taken label
      have fourth := shorter_of_taken comma
      exact (ih w.2.length (by omega) afterComma rfl).map fun v _ others left =>
        ⟨⟨List.forall_mem_cons.mpr ⟨target, others.1⟩, others.2⟩, left⟩

abbrev SoundTerminator (t : Terminator) : Prop := IsSound t.Canonical t.names

theorem gives_switch (made : Made tokens) :
    Gives SoundTerminator (taken? (takeSwitch noLabels tokens)) := by
  rw [taken?_takeSwitch]
  refine (gives_expect "(" made).bind fun x _ _ inside => ?_
  refine (gives_operand inside).bind fun discr _ written afterDiscr => ?_
  refine (gives_expect ")" afterDiscr).bind fun y _ _ afterClose => ?_
  refine (gives_expect "->" afterClose).bind fun z _ _ afterArrow => ?_
  refine (gives_expect "[" afterArrow).bind fun w _ _ afterOpen => ?_
  refine (gives_cases afterOpen).bind fun cases _ targets afterCases => ?_
  exact (gives_expect "]" afterCases).map fun v _ _ left =>
    ⟨⟨⟨written, targets⟩, by simp [Terminator.names]⟩, left⟩

theorem gives_truth (made : Made tokens) : Gives (fun _ => True) (taken? (takeTruth tokens)) := by
  rw [taken?_takeTruth]
  exact .ite (fun _ => .some trivial made.tail) fun _ =>
    .ite (fun _ => .some trivial made.tail) fun _ => .none

theorem gives_assert (made : Made tokens) :
    Gives SoundTerminator (taken? (takeAssert noLabels tokens)) := by
  rw [taken?_takeAssert]
  refine (gives_expect "(" made).bind fun x _ _ inside => ?_
  refine (gives_operand inside).bind fun cond _ written afterCond => ?_
  refine (gives_expect "," afterCond).bind fun y _ _ afterComma => ?_
  refine (gives_truth afterComma).bind fun expected _ _ afterTruth => ?_
  refine (gives_expect "," afterTruth).bind fun z _ _ beforeText => ?_
  refine (gives_expectKind .string beforeText).bind fun msg _ _ afterText => ?_
  refine (gives_expect ")" afterText).bind fun w _ _ afterClose => ?_
  exact (gives_target afterClose).map fun target _ numbered left =>
    ⟨⟨⟨written, numbered⟩, by simp [Terminator.names]⟩, left⟩

theorem gives_call {dst : Option LocalId} (numbered : ∀ place ∈ dst, Numbered place)
    (made : Made tokens) (other : dst = none → ∀ word ∈ Terminator.keywords, ¬ nextIsWord word tokens) :
    Gives SoundTerminator (taken? (takeCall noLabels dst tokens)) := by
  rw [taken?_takeCall]
  refine (gives_expectKind .ident made).bind fun func taken name afterName => ?_
  refine (gives_operands afterName).bind fun args _ written afterArgs => ?_
  refine (gives_target afterArgs).map fun target _ block left =>
    ⟨⟨⟨written, numbered, fun alone known => ?_, block⟩, ?_⟩, left⟩
  · have plain : ∀ word ∈ Terminator.keywords, isPlain word := by decide
    have same := eq_of_normalize_eq (name.2.ident name.1) (plain _ known) rfl
    rw [← same] at known
    rw [taken?_expectKind, Option.mem_def, Option.ite_none_right_eq_some] at taken
    have front : peek tokens = func.1 := congrArg Prod.fst (Option.some.inj taken.2)
    refine other alone _ known ?_
    simp [nextIsWord, Token.isWord, front, name.1]
  · simpa [Terminator.names] using wordlike_normalize (name.2.ident name.1)

theorem gives_callLine (made : Made tokens)
    (other : ∀ word ∈ Terminator.keywords, ¬ nextIsWord word tokens) :
    Gives SoundTerminator (taken? (takeCallLine noLabels tokens)) := by
  rw [taken?_takeCallLine]
  refine .ite (fun _ => ?_) fun _ => gives_call (by simp) made fun _ => other
  refine (gives_local made).bind fun x _ place left => ?_
  have behind : Made (x.2.drop 1) := fun t member => left t (List.mem_of_mem_drop member)
  exact (gives_call (by simpa using place) behind (by simp)).map fun y _ sound rest => ⟨sound, rest⟩

theorem gives_terminator (made : Made tokens) :
    Gives SoundTerminator (taken? (takeTerminator noLabels tokens)) := by
  rw [taken?_takeTerminator]
  refine .ite (fun _ => .some ⟨trivial, by simp [Terminator.names]⟩ made.tail) fun noReturn => ?_
  refine .ite (fun _ => .some ⟨trivial, by simp [Terminator.names]⟩ made.tail) fun noEnd => ?_
  refine .ite (fun _ => (gives_target made.tail).map fun x _ target left =>
    ⟨⟨target, by simp [Terminator.names]⟩, left⟩) fun noGoto => ?_
  refine .ite (fun _ => gives_switch made.tail) fun noSwitch => ?_
  refine .ite (fun _ => gives_assert made.tail) fun noAssert => gives_callLine made ?_
  simp only [Terminator.keywords, List.forall_mem_cons]
  exact ⟨noReturn, noEnd, noGoto, noSwitch, noAssert, List.forall_mem_nil _⟩

end Terminators

section Lines

variable {α : Type} {good : α → Prop} {take : (tokens : List Token) → Take α tokens} {src : Text}

theorem good_of_parseLine (gives : ∀ tokens, Made tokens → Gives good (taken? (take tokens)))
    {value : α} (parsed : parseLine take src = .ok value) : good value := by
  obtain ⟨tokens, left, lexed, taken, _⟩ := (parseLine_ok_iff take src value).mp parsed
  exact (gives tokens (lex_made lexed) (value, left) taken).1

/-- An accepted line survives printing exactly when every name in its tree is an identifier in composed
form and no shared reference in it is to a struct called `mut`. -/
theorem accepted_reads_back (src : Text) :
    (∀ t, parseType src = .ok t →
      (parseType t.print = .ok t ↔ (∀ name ∈ t.names, isName name) ∧ t.isClear)) ∧
    (∀ s, parseStatement src = .ok s →
      (parseStatement s.print = .ok s ↔ (∀ name ∈ s.names, isName name) ∧ s.isClear)) ∧
    (∀ t, parseTerminator noLabels src = .ok t →
      (parseTerminator noLabels t.print = .ok t ↔ ∀ name ∈ t.names, isName name)) := by
  refine ⟨fun t parsed => ?_, fun s parsed => ?_, fun t parsed => ?_⟩
  · have sound : SoundType t := good_of_parseLine (fun _ => gives_type) parsed
    exact parseType_print_iff sound.canonical sound.wordlike
  · have sound := good_of_parseLine (fun _ => gives_statement) parsed
    exact parseStatement_print_iff sound.canonical sound.wordlike
  · have sound : SoundTerminator t := good_of_parseLine (fun _ => gives_terminator) parsed
    exact parseTerminator_print_iff sound.canonical sound.wordlike

/-- The reference that `&(mut)` is read as. -/
def mutRef : Ty := .refTo (.structNamed "mut") false

theorem takeType_mutRef (p q r s : Nat) (rest : List Token) :
    taken? (takeType (⟨.punct, "&", p⟩ :: ⟨.punct, "(", q⟩ :: ⟨.ident, "mut", r⟩ ::
      ⟨.punct, ")", s⟩ :: rest)) = some (mutRef, rest) := by
  have name : taken? (takeType (⟨.ident, "mut", r⟩ :: ⟨.punct, ")", s⟩ :: rest)) =
      some (.structNamed "mut", ⟨.punct, ")", s⟩ :: rest) :=
    taken?_takeType_named (by decide) (by decide) (by decide)
  have inside : taken? (takeType (⟨.punct, "(", q⟩ :: ⟨.ident, "mut", r⟩ :: ⟨.punct, ")", s⟩ ::
      rest)) = some (.structNamed "mut", rest) := by
    rw [taken?_takeType, if_pos (by rfl), parenthesized?, if_neg (by exact Bool.false_ne_true),
      taken?_takeTypes, name]
    rfl
  rw [taken?_takeType, if_neg (by exact Bool.false_ne_true), if_neg (by exact Bool.false_ne_true),
    if_neg (by exact Bool.false_ne_true), if_pos (by rfl)]
  change (taken? (takeType (⟨.punct, "(", q⟩ :: ⟨.ident, "mut", r⟩ :: ⟨.punct, ")", s⟩ :: rest))).map
    (fun x => (refOf [] false x.1, x.2)) = _
  rw [inside]
  rfl

theorem parseType_mutRef : parseType "&(mut)" = .ok mutRef := by
  have word : Lexes [] true "mut" [named "mut"] := lexes_keyword (by decide)
  have closed : Lexes [] false "mut)" [named "mut", symbol ")"] :=
    word.append (lexes_symbol (by decide)) fun _ =>
      ⟨_, _, codePoints_byte (by decide), by decide, by decide⟩
  have inside : Lexes [] false "(mut)" [symbol "(", named "mut", symbol ")"] :=
    (lexes_symbol (by decide)).andThen closed
  have whole : Lexes [] false "&(mut)" [symbol "&", symbol "(", named "mut", symbol ")"] :=
    (lexes_symbol (by decide)).andThen inside
  obtain ⟨tokens, pos, lexed, spells⟩ := lex_of_lexes whole.relax (by simp)
  simp only [spells_symbol, spells_named, spells_nil] at spells
  obtain ⟨p, _, rfl, q, _, rfl, r, _, rfl, s, _, rfl, rfl⟩ := spells
  exact (parseLine_ok_iff ..).mpr ⟨_, _, lexed, takeType_mutRef p q r s _, rfl⟩

theorem soundType_mutRef : SoundType mutRef :=
  good_of_parseLine (fun _ => gives_type) parseType_mutRef

theorem accepted_reads_back_nested :
    (parseType "&(mut)" = .ok mutRef ∧ (parseType mutRef.print = .ok mutRef ↔
      (∀ name ∈ mutRef.names, isName name) ∧ mutRef.isClear)) ∧
    (parseStatement nestedStatement.print = .ok nestedStatement ∧
      (parseStatement nestedStatement.print = .ok nestedStatement ↔
        (∀ name ∈ nestedStatement.names, isName name) ∧ nestedStatement.isClear)) ∧
    (parseTerminator noLabels nestedTerminator.print = .ok nestedTerminator ∧
      (parseTerminator noLabels nestedTerminator.print = .ok nestedTerminator ↔
        ∀ name ∈ nestedTerminator.names, isName name)) := by
  have statement : parseStatement nestedStatement.print = .ok nestedStatement :=
    (parseStatement_print_iff canonical_nestedStatement (wordlike_of_isName names_nestedType)).mpr
      ⟨names_nestedType, by decide⟩
  have names : ∀ name ∈ nestedTerminator.names, isName name := by decide
  have terminator : parseTerminator noLabels nestedTerminator.print = .ok nestedTerminator :=
    (parseTerminator_print_iff canonical_nestedTerminator (wordlike_of_isName names)).mpr names
  exact ⟨⟨parseType_mutRef, (accepted_reads_back _).1 _ parseType_mutRef⟩,
    ⟨statement, (accepted_reads_back _).2.1 _ statement⟩,
    ⟨terminator, (accepted_reads_back _).2.2 _ terminator⟩⟩

/-- The text `&mut` that the reference is printed as is refused. -/
theorem mutRef_not_read_back : ∃ t, parseType "&(mut)" = .ok t ∧ parseType t.print ≠ .ok t := by
  refine ⟨mutRef, parseType_mutRef, fun same => ?_⟩
  have clear := ((parseType_print_iff soundType_mutRef.canonical soundType_mutRef.wordlike).mp same).2
  exact absurd clear (by decide)

end Lines

end Source

end BorrowChecker
