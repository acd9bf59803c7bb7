import BorrowChecker.Proofs.Canonical
import BorrowChecker.Proofs.Elision
import BorrowChecker.Proofs.Grammar
import Mathlib

/-!
The names and the lifetimes of an accepted line. The names of structs, enums and callees are put in
composed form. The lifetimes of a type are those among the tokens of its line, in their order and as
they are written.
-/

namespace BorrowChecker

namespace Text

def IsNormal (text : Text) : Prop := text.normalize = text

instance (text : Text) : Decidable text.IsNormal :=
  inferInstanceAs (Decidable (text.normalize = text))

theorem isNormal_normalize (text : Text) : text.normalize.IsNormal := normalize_normalize text

end Text

namespace Mir

namespace Ty

variable (t : Ty) (ts : List Ty) (isMut : Bool) (name : Text)

theorem lifetimes_mk (shape : Shape) (lifetime : Text) (elem : Option Ty) (elems params : List Ty)
    (result : Option Ty) : lifetimes ⟨shape, name, lifetime, elem, elems, params, result⟩ =
      (if lifetime.isEmpty then [] else [lifetime]) ++ elem.toList.flatMap lifetimes ++
        elems.flatMap lifetimes ++ params.flatMap lifetimes ++ result.toList.flatMap lifetimes := by
  simp [lifetimes, lifetimesOfAll_eq, lifetimesOfOption_eq]

@[simp] theorem lifetimes_scalar (s : Shape) : (scalar s).lifetimes = [] := by
  simp [scalar, lifetimes_mk]

@[simp] theorem lifetimes_pointerTo : (pointerTo t).lifetimes = t.lifetimes := by
  simp [pointerTo, lifetimes_mk]

@[simp] theorem lifetimes_refTo : (refTo t isMut).lifetimes = t.lifetimes := by
  simp [refTo, lifetimes_mk]

theorem lifetimes_refWithLifetime (present : name ≠ []) :
    (refWithLifetime name t isMut).lifetimes = name :: t.lifetimes := by
  simp [refWithLifetime, lifetimes_mk, present]

@[simp] theorem lifetimes_arrayOf : (arrayOf t).lifetimes = t.lifetimes := by
  simp [arrayOf, lifetimes_mk]

@[simp] theorem lifetimes_tupleOf : (tupleOf ts).lifetimes = ts.flatMap lifetimes := by
  simp [tupleOf, lifetimes_mk]

@[simp] theorem lifetimes_structNamed : (structNamed name).lifetimes = [] := by
  simp [structNamed, lifetimes_mk]

@[simp] theorem lifetimes_enumNamed : (enumNamed name).lifetimes = [] := by
  simp [enumNamed, lifetimes_mk]

@[simp] theorem lifetimes_functionOf :
    (functionOf ts t).lifetimes = ts.flatMap lifetimes ++ t.lifetimes := by
  simp [functionOf, lifetimes_mk]

end Ty

def RValue.lifetimes : RValue → List Text
  | cast _ target => target.lifetimes
  | use _ | ref _ | binary .. | unary .. | aggregate .. | len _ | discriminant _ | unknown => []

def Statement.lifetimes : Statement → List Text
  | assign _ src => src.lifetimes
  | drop _ | nop | unknown => []

end Mir

namespace Source

open Mir Text

def lifetimesIn (tokens : List Token) : List Text :=
  tokens.filterMap fun t => if t.kind = .lifetime then some t.text else none

theorem lifetimesIn_append (tokens more : List Token) :
    lifetimesIn (tokens ++ more) = lifetimesIn tokens ++ lifetimesIn more :=
  List.filterMap_append

theorem lifetimesIn_eq_nil {tokens : List Token} (others : ∀ t ∈ tokens, t.kind ≠ .lifetime) :
    lifetimesIn tokens = [] := by
  rw [lifetimesIn, List.filterMap_eq_nil_iff]
  intro t member
  rw [if_neg (others t member)]

namespace Grammar

open scoped Computability

def LifetimeFree (grammar : Language Token) : Prop := ∀ line ∈ grammar, ∀ t ∈ line, t.kind ≠ .lifetime

namespace LifetimeFree

variable {first second : Language Token}

theorem one : LifetimeFree 1 := by
  rintro line rfl
  simp

theorem add (left : LifetimeFree first) (right : LifetimeFree second) : LifetimeFree (first + second) := by
  rintro line (derived | derived)
  · exact left line derived
  · exact right line derived

theorem mul (left : LifetimeFree first) (right : LifetimeFree second) : LifetimeFree (first * second) := by
  intro line derived
  obtain ⟨a, inFirst, b, inSecond, rfl⟩ := Language.mem_mul.mp derived
  exact List.forall_mem_append.mpr ⟨left a inFirst, right b inSecond⟩

theorem kstar (each : LifetimeFree first) : LifetimeFree first∗ := by
  intro line derived
  obtain ⟨lines, rfl, members⟩ := Language.mem_kstar.mp derived
  intro t inside
  obtain ⟨part, member, last⟩ := List.mem_flatten.mp inside
  exact each part (members part member) t last

theorem word (text : Text) : LifetimeFree (word text) := by
  rintro line ⟨t, rfl, isWord⟩
  exact List.forall_mem_singleton.mpr (kind_of_isWord isWord).2.2

theorem kind {k : TokenKind} (other : k ≠ .lifetime) : LifetimeFree (kind k) := by
  rintro line ⟨t, rfl, rfl⟩
  exact List.forall_mem_singleton.mpr other

theorem place : LifetimeFree place := by
  rintro line ⟨t, digits, rfl, isIdent, -⟩
  rw [List.forall_mem_singleton, isIdent]
  simp

theorem constant : LifetimeFree constant :=
  .add (.add (.add (.add (.add (.kind (by simp)) (.kind (by simp))) (.kind (by simp))) (.word _))
    (.word _)) (.mul (.word _) (.word _))

theorem operand : LifetimeFree operand :=
  .add (.add (.mul (.word _) place) (.mul (.word _) place)) (.mul (.word _) constant)

theorem operands : LifetimeFree operands :=
  .add one (.mul (.mul operand (.kstar (.mul (.word _) operand))) (.add one (.word _)))

end LifetimeFree

end Grammar

/-- What a reader makes of made tokens, told by the value and the lifetimes among the tokens that
it takes. -/
def Yields {α : Type} (good : α → List Text → Prop) (tokens : List Token)
    (outcome : Option (α × List Token)) : Prop :=
  Made tokens → ∀ x ∈ outcome, ∃ line, tokens = line ++ x.2 ∧ good x.1 (lifetimesIn line)

namespace Yields

variable {α β γ : Type} {good : α → List Text → Prop} {fine : β → List Text → Prop}
  {tokens : List Token}

theorem none : Yields good tokens none := by simp [Yields]

theorem some {value : α} (holds : good value []) : Yields good tokens (some (value, tokens)) := by
  intro _ x isSome
  obtain rfl := Option.mem_some_iff.mp isSome
  exact ⟨[], rfl, holds⟩

theorem built {found : Option α} (holds : ∀ value ∈ found, good value []) :
    Yields good tokens (found.map fun value => (value, tokens)) := by
  intro _ x isSome
  obtain ⟨value, known, rfl⟩ := Option.map_eq_some_iff.mp isSome
  exact ⟨[], rfl, holds value known⟩

theorem cons {t : Token} {outcome : Option (α × List Token)} (other : t.kind ≠ .lifetime)
    (later : Yields good tokens outcome) : Yields good (t :: tokens) outcome := by
  intro made x isSome
  obtain ⟨line, cut, holds⟩ := later made.tail x isSome
  refine ⟨t :: line, by rw [List.cons_append, ← cut], ?_⟩
  have same : lifetimesIn (t :: line) = lifetimesIn line := by simp [lifetimesIn, other]
  rwa [same]

theorem bind {first : Option (α × List Token)} {next : α × List Token → Option (β × List Token)}
    (given : Yields good tokens first)
    (step : ∀ x ∈ first, ∀ used, good x.1 used →
      Yields (fun y more => fine y (used ++ more)) x.2 (next x)) :
    Yields fine tokens (first.bind next) := by
  intro made y isSome
  obtain ⟨x, taken, later⟩ := Option.bind_eq_some_iff.mp isSome
  obtain ⟨line, cut, holds⟩ := given made x taken
  have madeRest : Made x.2 := fun t member => made t (cut ▸ List.mem_append_right line member)
  obtain ⟨more, cutRest, result⟩ := step x taken _ holds madeRest y later
  refine ⟨line ++ more, ?_, ?_⟩
  · rw [cut, cutRest, List.append_assoc]
  · rw [lifetimesIn_append]
    exact result

/-- A reader behind one that takes no lifetime. -/
theorem skip {first : Option (α × List Token)} {next : α × List Token → Option (β × List Token)}
    (given : Yields (fun _ used => used = []) tokens first)
    (step : ∀ x ∈ first, Yields fine x.2 (next x)) : Yields fine tokens (first.bind next) := by
  refine given.bind fun x taken used empty => ?_
  subst empty
  exact step x taken

theorem map {first : Option (α × List Token)} {finish : α × List Token → β × List Token}
    (given : Yields good tokens first) (leaves : ∀ x, (finish x).2 = x.2)
    (step : ∀ x ∈ first, ∀ used, good x.1 used → fine (finish x).1 used) :
    Yields fine tokens (first.map finish) := by
  intro made y isSome
  obtain ⟨x, taken, rfl⟩ := Option.map_eq_some_iff.mp isSome
  obtain ⟨line, cut, holds⟩ := given made x taken
  exact ⟨line, by rw [leaves, cut], step x taken _ holds⟩

theorem lookup {found : Option γ} {next : γ → Option (β × List Token)}
    (step : ∀ x ∈ found, Yields fine tokens (next x)) : Yields fine tokens (found.bind next) := by
  intro made y isSome
  obtain ⟨x, known, later⟩ := Option.bind_eq_some_iff.mp isSome
  exact step x known made y later

theorem ite {c : Prop} [Decidable c] {yes no : Option (α × List Token)}
    (then_ : c → Yields good tokens yes) (else_ : ¬ c → Yields good tokens no) :
    Yields good tokens (if c then yes else no) := by
  split
  · exact then_ ‹c›
  · exact else_ ‹¬ c›

/-- A reader whose tokens are derived from a grammar without lifetimes. -/
theorem of_takes {grammar : Language Token} {outcome : Option (α × List Token)}
    (takes : Takes grammar tokens outcome)
    (free : Grammar.LifetimeFree grammar) (value : ∀ x ∈ outcome, good x.1 []) :
    Yields good tokens outcome := by
  intro _ x isSome
  obtain ⟨line, derived, cut, _⟩ := takes x isSome
  exact ⟨line, cut, lifetimesIn_eq_nil (free line derived) ▸ value x isSome⟩

end Yields

section Types

def FaithfulType (t : Ty) (used : List Text) : Prop :=
  (∀ name ∈ t.names, name.IsNormal) ∧ used = t.lifetimes

def FaithfulTypes (ts : List Ty) (used : List Text) : Prop :=
  (∀ name ∈ ts.flatMap Ty.names, name.IsNormal) ∧ used = ts.flatMap Ty.lifetimes

variable {tokens : List Token}

theorem yields_expect (word : Text) :
    Yields (fun _ used => used = []) tokens (taken? (expect word tokens)) :=
  .of_takes (takes_expect word tokens) (.word word) fun _ _ => rfl

theorem yields_ident :
    Yields (fun _ used => used = []) tokens (taken? (expectKind .ident tokens)) :=
  .of_takes (takes_expectKind (by simp) tokens) (.kind (by simp)) fun _ _ => rfl

theorem yields_behind {α : Type} {good : α → List Text → Prop} {word : Text}
    {outcome : Option (α × List Token)} (isNext : nextIsWord word tokens)
    (later : Yields good tokens.tail outcome) : Yields good tokens outcome := by
  obtain ⟨t, rest, rfl, isWord⟩ := nextIsWord_iff.mp isNext
  exact later.cons (Grammar.kind_of_isWord isWord).2.2

theorem yields_word {α : Type} {good : α → List Text → Prop} {word : Text} {value : α}
    (isNext : nextIsWord word tokens) (holds : good value []) :
    Yields good tokens (some (value, tokens.tail)) :=
  yields_behind isNext (.some holds)

theorem faithful_parenthesized {elems : List Ty} {trailing : Bool} {used : List Text}
    (faithful : FaithfulTypes elems used) : FaithfulType (parenthesized elems trailing) used := by
  unfold parenthesized
  split
  · simpa [FaithfulTypes, FaithfulType] using faithful
  · simpa [FaithfulTypes, FaithfulType] using faithful

theorem faithful_scalar {s : Shape} (isNamed : s.scalarName?.isSome) :
    FaithfulType (.scalar s) [] := by
  simp [FaithfulType, Ty.names_scalar isNamed]

theorem faithful_refOf {t : Ty} {lifetime : Text} {used : List Text} (isMut : Bool)
    (faithful : FaithfulType t used) :
    FaithfulType (refOf lifetime isMut t) (if lifetime = [] then used else lifetime :: used) := by
  unfold refOf
  by_cases none_ : lifetime = []
  · simpa [none_, FaithfulType] using faithful
  · simpa [none_, FaithfulType, Ty.lifetimes_refWithLifetime] using faithful

/-- The lifetime of a reference is the one that is written, if there is one. -/
theorem cutLifetime_spec (made : Made tokens) : ∃ line, tokens = line ++ (cutLifetime tokens).2 ∧
    lifetimesIn line = if (cutLifetime tokens).1 = [] then [] else [(cutLifetime tokens).1] := by
  cases tokens with
  | nil => exact ⟨[], rfl, rfl⟩
  | cons t rest =>
      by_cases isLifetime : t.kind = .lifetime
      · have valid := (made t (List.mem_cons_self ..)).lifetime isLifetime
        have present : t.text ≠ [] := by
          intro empty
          rw [empty] at valid
          exact absurd valid (by decide)
        exact ⟨[t], by simp [cutLifetime, isLifetime],
          by simp [cutLifetime, isLifetime, lifetimesIn, present]⟩
      · exact ⟨[], by simp [cutLifetime, isLifetime], by simp [cutLifetime, isLifetime, lifetimesIn]⟩

theorem cutWord_spec (word : Text) (tokens : List Token) :
    ∃ line, tokens = line ++ (cutWord word tokens).2 ∧ lifetimesIn line = [] := by
  rw [cutWord_eq]
  by_cases isNext : nextIsWord word tokens
  · obtain ⟨t, rest, rfl, isWord⟩ := nextIsWord_iff.mp isNext
    refine ⟨[t], by simp [isNext], lifetimesIn_eq_nil ?_⟩
    exact Grammar.LifetimeFree.word word [t] ⟨t, rfl, isWord⟩
  · exact ⟨[], by simp [isNext], rfl⟩

section Below

-- What is known of the type reader for fewer tokens.
variable {bound : Nat} (types : ∀ tokens : List Token, tokens.length < bound →
  Yields FaithfulType tokens (taken? (takeType tokens))) (tokens : List Token)
include types

theorem yields_types (short : tokens.length < bound) :
    Yields (fun elems : List Ty × Bool => FaithfulTypes elems.1) tokens
      (taken? (takeTypes tokens)) := by
  induction size : tokens.length using Nat.strong_induction_on generalizing tokens with
  | h n ih =>
      rw [taken?_takeTypes]
      refine (types tokens short).bind fun x taken used faithful => ?_
      have shorter := shorter_of_taken taken
      have tailShorter := List.length_tail (l := x.2)
      have alone : FaithfulTypes [x.1] (used ++ []) := by
        simpa [FaithfulTypes, FaithfulType] using faithful
      refine .ite (fun comma => .ite (fun _ => yields_word comma alone) fun _ => ?_) fun _ =>
        .some alone
      · refine yields_behind comma ?_
        refine (ih _ (by omega) x.2.tail (by omega) rfl).map (fun _ => rfl) ?_
        intro y _ more others
        obtain ⟨names, lifetimes⟩ := others
        refine ⟨?_, ?_⟩
        · rw [List.flatMap_cons]
          exact List.forall_mem_append.mpr ⟨faithful.1, names⟩
        · rw [List.flatMap_cons, ← lifetimes, faithful.2]

theorem yields_params (short : tokens.length < bound) :
    Yields FaithfulTypes tokens (taken? (takeParams tokens)) := by
  rw [taken?_takeParams]
  refine .ite (fun closed => yields_word closed (by simp [FaithfulTypes])) fun _ => ?_
  refine (yields_types types tokens short).bind fun x _ used faithful => ?_
  refine (yields_expect ")").map (fun _ => rfl) fun y _ more empty => ?_
  rw [empty, List.append_nil]
  exact faithful

theorem yields_parenthesized (short : tokens.length < bound) :
    Yields FaithfulType tokens (parenthesized? tokens) := by
  unfold parenthesized?
  refine .ite (fun closed => yields_word closed (faithful_scalar rfl)) fun _ => ?_
  refine (yields_types types tokens short).bind fun x _ used faithful => ?_
  refine (yields_expect ")").map (fun _ => rfl) fun y _ more empty => ?_
  rw [empty, List.append_nil]
  exact faithful_parenthesized faithful

theorem yields_function (short : tokens.length < bound) :
    Yields FaithfulType tokens (function? tokens) := by
  have faithful : ∀ {params : List Ty} {result : Ty} {used more : List Text},
      FaithfulTypes params used → FaithfulType result more →
      FaithfulType (.functionOf params result) (used ++ more) := by
    intro params result used more inputs output
    refine ⟨?_, ?_⟩
    · rw [Ty.names_functionOf]
      exact List.forall_mem_append.mpr ⟨inputs.1, output.1⟩
    · rw [Ty.lifetimes_functionOf, inputs.2, output.2]
  unfold function?
  refine (yields_expect "(").skip fun x opened => ?_
  have openedShorter := shorter_of_taken opened
  refine (yields_params types x.2 (by omega)).bind fun y taken inputs given => ?_
  have shorter := shorter_of_taken taken
  have tailShorter := List.length_tail (l := y.2)
  refine .ite (fun arrow => yields_behind arrow ?_) fun _ =>
    .some (faithful given (faithful_scalar rfl))
  exact (types y.2.tail (by omega)).map (fun _ => rfl) fun z _ more output => faithful given output

theorem yields_reference (short : tokens.length < bound) :
    Yields FaithfulType tokens ((taken? (takeType (cutWord "mut" (cutLifetime tokens).2).2)).map
      fun x => (refOf (cutLifetime tokens).1 (cutWord "mut" (cutLifetime tokens).2).1 x.1, x.2)) := by
  intro made y isSome
  obtain ⟨x, taken, rfl⟩ := Option.map_eq_some_iff.mp isSome
  obtain ⟨front, cut, lifetime⟩ := cutLifetime_spec made
  obtain ⟨middle, cutMut, noLifetime⟩ := cutWord_spec "mut" (cutLifetime tokens).2
  have lifetimeShort := cutLifetime_length_le tokens
  have mutShort := cutWord_length_le "mut" (cutLifetime tokens).2
  have madeRest : Made (cutWord "mut" (cutLifetime tokens).2).2 := fun t member => by
    refine made t ?_
    rw [cut, cutMut]
    exact List.mem_append_right _ (List.mem_append_right _ member)
  obtain ⟨line, cutElem, faithful⟩ := types _ (by omega) madeRest x taken
  refine ⟨front ++ (middle ++ line), ?_, ?_⟩
  · rw [List.append_assoc, List.append_assoc, ← cutElem, ← cutMut, ← cut]
  · have total : lifetimesIn (front ++ (middle ++ line)) =
        if (cutLifetime tokens).1 = [] then lifetimesIn line
        else (cutLifetime tokens).1 :: lifetimesIn line := by
      rw [lifetimesIn_append, lifetimesIn_append, lifetime, noLifetime]
      split_ifs <;> rfl
    rw [total]
    exact faithful_refOf _ faithful

end Below

theorem yields_type (tokens : List Token) :
    Yields FaithfulType tokens (taken? (takeType tokens)) := by
  induction size : tokens.length using Nat.strong_induction_on generalizing tokens with
  | h n ih =>
      cases tokens with
      | nil =>
          rw [taken?_takeType_nil]
          exact .none
      | cons t rest =>
          have types : ∀ more : List Token, more.length < n →
              Yields FaithfulType more (taken? (takeType more)) := fun more shorter =>
            ih more.length shorter more rfl
          have short : rest.length < n := by simp at size; omega
          have behind : ∀ {word : Text} {good : Ty → List Text → Prop}
              {outcome : Option (Ty × List Token)}, t.isWord word → Yields good rest outcome →
              Yields good (t :: rest) outcome := fun isWord later =>
            later.cons (Grammar.kind_of_isWord isWord).2.2
          rw [taken?_takeType]
          -- the first token tells which type it is; only a reference takes a lifetime of its own
          refine .ite (fun opened => behind opened (yields_parenthesized types rest short))
            fun _ => ?_
          refine .ite (fun never => behind never (.some (faithful_scalar rfl))) fun _ => ?_
          refine .ite (fun star => behind star ((types rest short).map (fun _ => rfl) ?_))
            fun _ => ?_
          · intro x _ used faithful
            simpa [FaithfulType] using faithful
          refine .ite (fun amp => behind amp (yields_reference types rest short)) fun _ => ?_
          refine .ite (fun bracket => behind bracket ?_) fun _ => ?_
          · refine (types rest short).bind fun x _ used faithful => ?_
            refine (yields_expect "]").map (fun _ => rfl) fun y _ more empty => ?_
            rw [empty, List.append_nil]
            simpa [FaithfulType] using faithful
          refine .ite (fun _ => .none) fun isIdent => ?_
          have other : t.kind ≠ .lifetime := by
            rw [not_not.mp isIdent]
            simp
          refine .ite (fun _ => (yields_function types rest short).cons other) fun _ => ?_
          refine .ite (fun _ => .cons other (yields_ident.map (fun _ => rfl) ?_)) fun _ => ?_
          · intro x _ used empty
            simp [empty, FaithfulType, isNormal_normalize]
          -- a lone word is a scalar or the name of a struct
          refine .cons other (.some ?_)
          cases known : Shape.ofScalarName? t.text with
          | none => simp [FaithfulType, isNormal_normalize]
          | some s =>
              have isNamed : s.scalarName? = some t.text := by simpa using List.find?_some known
              exact faithful_scalar (by rw [isNamed]; rfl)

end Types

section Values

open Grammar

variable {tokens : List Token}

def FaithfulValue (value : RValue) (used : List Text) : Prop :=
  (∀ name ∈ value.names, name.IsNormal) ∧ used = value.lifetimes

theorem yields_local : Yields (fun _ used => used = []) tokens (taken? (takeLocal tokens)) :=
  .of_takes (takes_local tokens) .place fun _ _ => rfl

theorem yields_parenLocal :
    Yields (fun _ used => used = []) tokens (taken? (takeParenLocal tokens)) := by
  rw [taken?_takeParenLocal]
  refine (yields_expect "(").skip fun x _ => yields_local.skip fun y _ => ?_
  exact (yields_expect ")").map (fun _ => rfl) fun _ _ _ empty => empty

theorem yields_operand : Yields (fun _ used => used = []) tokens (taken? (takeOperand tokens)) :=
  .of_takes (takes_operand tokens) .operand fun _ _ => rfl

theorem yields_operands :
    Yields (fun _ used => used = []) tokens (taken? (takeOperands tokens)) :=
  .of_takes (takes_operands tokens) (.mul (.word _) (.mul .operands (.word _))) fun _ _ => rfl

theorem yields_aggregate (head : Text) :
    Yields FaithfulValue tokens (taken? (takeAggregate tokens head)) := by
  have plain : ∀ {head : AggregateHead} {elems : List Operand} {used : List Text}, used = [] →
      (∀ name ∈ head.names, name.IsNormal) → FaithfulValue (.aggregate head elems) used :=
    fun empty normal => ⟨normal, empty⟩
  rw [taken?_takeAggregate]
  refine .ite (fun _ => yields_operands.map (fun _ => rfl) fun _ _ _ empty =>
    plain empty (by simp [AggregateHead.names])) fun _ => ?_
  refine .ite (fun _ => yields_operands.map (fun _ => rfl) fun _ _ _ empty =>
    plain empty (by simp [AggregateHead.names])) fun _ => ?_
  refine .ite (fun _ => ?_) fun _ => ?_
  · refine yields_ident.skip fun x _ => ?_
    exact yields_operands.map (fun _ => rfl) fun _ _ _ empty =>
      plain empty (by simp [AggregateHead.names, isNormal_normalize])
  · refine yields_ident.skip fun x _ => (yields_expect "::").skip fun y _ => ?_
    have number : Yields (fun _ used => used = []) y.2 (taken? (expectKind .int y.2)) :=
      .of_takes (takes_expectKind (by simp) y.2) (.kind (by simp)) fun _ _ => rfl
    refine number.skip fun z _ => .lookup fun variant _ => ?_
    exact yields_operands.map (fun _ => rfl) fun _ _ _ empty =>
      plain empty (by simp [AggregateHead.names, isNormal_normalize])

theorem yields_namedValue (head : Token) :
    Yields FaithfulValue tokens (taken? (takeNamedValue head tokens)) := by
  rw [taken?_takeNamedValue]
  refine .ite (fun _ => ?_) fun _ => ?_
  · refine yields_operand.skip fun x _ => (yields_expect "as").skip fun y _ => ?_
    exact (yields_type y.2).map (fun _ => rfl) fun _ _ _ faithful => faithful
  refine .ite (fun _ => yields_parenLocal.map (fun _ => rfl) fun _ _ _ empty =>
    ⟨by simp [RValue.names], empty⟩) fun _ => ?_
  refine .ite (fun _ => yields_parenLocal.map (fun _ => rfl) fun _ _ _ empty =>
    ⟨by simp [RValue.names], empty⟩) fun _ => ?_
  refine .ite (fun _ => yields_aggregate head.text) fun _ => ?_
  refine .ite (fun _ => ?_) fun _ => ?_
  · refine yields_operands.skip fun x _ => .built fun value built => ?_
    unfold unary? at built
    split at built
    · obtain rfl := Option.some.inj built
      exact ⟨by simp [RValue.names], rfl⟩
    · simp at built
  · refine .lookup fun op known => yields_operands.skip fun x _ => .built fun value built => ?_
    unfold binary? at built
    split at built
    · obtain rfl := Option.some.inj built
      exact ⟨by simp [RValue.names], rfl⟩
    · simp at built

theorem yields_rvalue : Yields FaithfulValue tokens (taken? (takeRValue tokens)) := by
  rw [taken?_takeRValue]
  refine .ite (fun amp => yields_behind amp (yields_local.map (fun _ => rfl) fun _ _ _ empty =>
    ⟨by simp [RValue.names], empty⟩)) fun _ => ?_
  refine .ite (fun _ => yields_operand.map (fun _ => rfl) fun _ _ _ empty =>
    ⟨by simp [RValue.names], empty⟩) fun _ => ?_
  refine yields_ident.skip fun x _ => ?_
  exact (yields_namedValue x.1).map (fun _ => rfl) fun _ _ _ faithful => faithful

theorem yields_statement : Yields (fun (s : Statement) used =>
    (∀ name ∈ s.names, name.IsNormal) ∧ used = s.lifetimes) tokens
      (taken? (takeStatement tokens)) := by
  rw [taken?_takeStatement]
  refine .ite (fun nop => yields_word nop ⟨by simp [Statement.names], rfl⟩) fun _ => ?_
  refine .ite (fun drops => yields_behind drops (yields_parenLocal.map (fun _ => rfl)
    fun _ _ _ empty => ⟨by simp [Statement.names], empty⟩)) fun _ => ?_
  refine yields_local.skip fun x _ => (yields_expect "=").skip fun y _ => ?_
  exact yields_rvalue.map (fun _ => rfl) fun _ _ _ faithful => faithful

theorem call_names (labels : Labels) {dst : Option LocalId} {x : Terminator × List Token}
    (taken : x ∈ taken? (takeCall labels dst tokens)) : ∀ name ∈ x.1.names, name.IsNormal := by
  rw [taken?_takeCall] at taken
  simp only [Option.mem_def, Option.bind_eq_some_iff, Option.map_eq_some_iff] at taken
  obtain ⟨func, -, args, -, target, -, rfl⟩ := taken
  simp [Terminator.names, isNormal_normalize]

theorem terminator_names (labels : Labels) {x : Terminator × List Token}
    (taken : x ∈ taken? (takeTerminator labels tokens)) : ∀ name ∈ x.1.names, name.IsNormal := by
  rw [taken?_takeTerminator] at taken
  split_ifs at taken
  · obtain rfl := Option.mem_some_iff.mp taken
    simp [Terminator.names]
  · obtain rfl := Option.mem_some_iff.mp taken
    simp [Terminator.names]
  · obtain ⟨target, -, rfl⟩ := Option.map_eq_some_iff.mp taken
    simp [Terminator.names]
  · rw [taken?_takeSwitch] at taken
    simp only [Option.mem_def, Option.bind_eq_some_iff, Option.map_eq_some_iff] at taken
    obtain ⟨-, -, -, -, -, -, -, -, -, -, -, -, -, -, rfl⟩ := taken
    simp [Terminator.names]
  · rw [taken?_takeAssert] at taken
    simp only [Option.mem_def, Option.bind_eq_some_iff, Option.map_eq_some_iff] at taken
    obtain ⟨-, -, -, -, -, -, -, -, -, -, -, -, -, -, -, -, rfl⟩ := taken
    simp [Terminator.names]
  · rw [taken?_takeCallLine] at taken
    split_ifs at taken
    · simp only [Option.mem_def, Option.bind_eq_some_iff, Option.map_eq_some_iff] at taken
      obtain ⟨dst, -, y, stored, rfl⟩ := taken
      exact call_names labels stored
    · exact call_names labels taken

end Values

section Lines

def lineLifetimes (line : Text) : List Text := lifetimesIn ((lex line).toOption.getD [])

/-- Nothing stands behind the mark at the end of a line. -/
theorem lifetimesIn_atEnd {line front left : List Token} {stop : Token}
    (cut : line ++ [stop] = front ++ left) (atEnd : (peek left).kind = .eof)
    (solid : ∀ t ∈ line, t.kind ≠ .eof) : lifetimesIn left = [] := by
  cases left with
  | nil => rfl
  | cons t more =>
      have ends : t.kind = .eof := atEnd
      cases more with
      | nil => simp [lifetimesIn, ends]
      | cons u others =>
          have inside : line = front ++ (t :: (u :: others).dropLast) := by
            have same := congrArg List.dropLast cut
            rwa [List.dropLast_concat, List.dropLast_append_cons, List.dropLast_cons_of_ne_nil
              (List.cons_ne_nil u others)] at same
          exact absurd ends (solid t (inside ▸ by simp))

/-- What an accepted line gives has the lifetimes of the whole line. -/
theorem yields_line {α : Type} {good : α → List Text → Prop}
    {take : (tokens : List Token) → Take α tokens} {src : Text} {value : α}
    (yields : ∀ tokens, Yields good tokens (taken? (take tokens)))
    (parsed : parseLine take src = .ok value) : good value (lineLifetimes src) := by
  obtain ⟨tokens, left, lexed, taken, atEnd⟩ := (parseLine_ok_iff take src value).mp parsed
  obtain ⟨line, stop, rfl, ends, -, scanned⟩ :=
    lexFrom_shape (fun _ member => mem_codePoints member) lexed
  obtain ⟨front, cut, holds⟩ := yields _ (lex_made lexed) _ taken
  have nothing := lifetimesIn_atEnd cut atEnd fun t member => (scanned t member).solid
  have whole : lineLifetimes src = lifetimesIn front := by
    rw [lineLifetimes, lexed, Except.toOption, Option.getD_some, cut, lifetimesIn_append, nothing,
      List.append_nil]
  rw [whole]
  exact holds

theorem parseType_faithful {src : Text} {t : Ty} (parsed : parseType src = .ok t) :
    FaithfulType t (lineLifetimes src) :=
  yields_line yields_type parsed

theorem parseStatement_faithful {src : Text} {s : Statement} (parsed : parseStatement src = .ok s) :
    (∀ name ∈ s.names, name.IsNormal) ∧ lineLifetimes src = s.lifetimes :=
  yields_line (fun _ => yields_statement) parsed

theorem parseTerminator_names {labels : Labels} {src : Text} {t : Terminator}
    (parsed : parseTerminator labels src = .ok t) : ∀ name ∈ t.names, name.IsNormal := by
  obtain ⟨tokens, left, -, taken, -⟩ := (parseLine_ok_iff _ src t).mp parsed
  exact terminator_names labels taken

theorem isLifetime_of_mem_line {src name : Text} (member : name ∈ lineLifetimes src) :
    isLifetime name := by
  cases lexed : lex src with
  | error fault => simp [lineLifetimes, lexed, Except.toOption, lifetimesIn] at member
  | ok tokens =>
      rw [lineLifetimes, lexed, Except.toOption, Option.getD_some, lifetimesIn,
        List.mem_filterMap] at member
      obtain ⟨t, inside, found⟩ := member
      obtain ⟨isLifetime, same⟩ := Option.ite_none_right_eq_some.mp found
      exact Option.some.inj same ▸ (lex_made lexed t inside).lifetime isLifetime

end Lines

end Source

end BorrowChecker
