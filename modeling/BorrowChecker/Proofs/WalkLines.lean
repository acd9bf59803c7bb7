import BorrowChecker.Proofs.Walk
import Mathlib

/-!
The readers of types, statements, terminators and bounds as walks, each beside the reader that it
follows. Reading a line never leaves the tokens of the line, and each call and each round of a loop
begins further on than the one that wants it.
-/

namespace BorrowChecker

namespace Source

open Mir

namespace Walk

variable {line rest : List Token} {index : Nat}

/-! ## Types -/

def lifetime : Walk Text := do
  if (← look 0).kind = .lifetime then return (← next).text
  else return []

mutual

/-- A type. Each type inside it begins behind the token that it begins with. -/
def typeFrom (line : List Token) (start : Nat) : Except Halt (Ty × Nat) :=
  (do
    if ← accept "(" then
      if ← accept ")" then return .unit
      else
        let elems ← onward line start fun index _ => typesFrom line index
        expect ")"
        return parenthesized elems.1 elems.2
    else if ← accept "!" then return .scalar .never
    else if ← accept "*" then
      let elem ← onward line start fun index _ => typeFrom line index
      return .pointerTo elem
    else if ← accept "&" then
      let lifetime ← lifetime
      let isMut ← accept "mut"
      let elem ← onward line start fun index _ => typeFrom line index
      return refOf lifetime isMut elem
    else if ← accept "[" then
      let elem ← onward line start fun index _ => typeFrom line index
      expect "]"
      return .arrayOf elem
    else
      let name ← expectKind .ident
      if name.text = "fn" then
        expect "("
        let params ← onward line start fun index _ => paramsFrom line index
        if ← accept "->" then
          let result ← onward line start fun index _ => typeFrom line index
          return .functionOf params result
        else return .functionOf params .unit
      else if name.text = "enum" then
        let name ← expectKind .ident
        return .enumNamed name.text.normalize
      else
        match Shape.ofScalarName? name.text with
        | some s => return .scalar s
        | none => return .structNamed name.text.normalize : Walk Ty) line start
termination_by (line.length - start, 0)

def typesFrom (line : List Token) (start : Nat) : Except Halt ((List Ty × Bool) × Nat) := do
  let first ← typeFrom line start
  (do
    if ← accept "," then
      if ← sees ")" then return ([first.1], true)
      else
        let more ← onward line start fun index _ => typesFrom line index
        return (first.1 :: more.1, more.2)
    else return ([first.1], false) : Walk (List Ty × Bool)) line first.2
termination_by (line.length - start, 1)

def paramsFrom (line : List Token) (start : Nat) : Except Halt (List Ty × Nat) := do
  let closed ← sees ")" line start
  if closed.1 then
    (do
      expect ")"
      return [] : Walk (List Ty)) line start
  else
    let params ← typesFrom line start
    (do
      expect ")"
      return params.1.1 : Walk (List Ty)) line params.2
termination_by (line.length - start, 2)

end

/-- The tokens behind a lifetime, if there is one. -/
theorem Before.lifetime_eq (before : Before line index rest) :
    ∃ next, lifetime line index = .ok ((cutLifetime rest).1, next) ∧
      Before line next (cutLifetime rest).2 := by
  obtain ⟨t, more, rfl⟩ := List.exists_cons_of_ne_nil before.ended.ne_nil
  simp only [cutLifetime]
  unfold lifetime
  rw [bind_ok (before.look_eq 0 rfl)]
  by_cases isLifetime : t.kind = .lifetime
  · have solid : t.kind ≠ .eof := by simp [isLifetime]
    rw [if_pos isLifetime, if_pos isLifetime, bind_ok (before.next_eq solid)]
    exact ⟨index + 1, rfl, before.tail solid⟩
  · rw [if_neg isLifetime, if_neg isLifetime]
    exact ⟨index, rfl, before⟩

theorem Before.accept_eq (before : Before line index rest) (word : Text) :
    ∃ next, accept word line index = .ok ((cutWord word rest).1, next) ∧
      Before line next (cutWord word rest).2 := by
  obtain ⟨t, more, rfl⟩ := List.exists_cons_of_ne_nil before.ended.ne_nil
  rw [cutWord, accept?]
  by_cases isWord : t.isWord word
  · rw [if_pos isWord]
    exact ⟨index + 1, before.accept_found isWord, before.tail (Grammar.kind_of_isWord isWord).2.1⟩
  · rw [if_neg isWord]
    exact ⟨index, before.accept_missing isWord, before⟩

structure FollowTypes (line rest : List Token) : Prop where
  type : ∀ index, Before line index rest → Follows line (typeFrom line index) (takeType rest)
  types : ∀ index, Before line index rest → Follows line (typesFrom line index) (takeTypes rest)
  params : ∀ index, Before line index rest → Follows line (paramsFrom line index) (takeParams rest)

section Types

-- The readers call one another on fewer tokens only, so this is all that an induction gives them.
variable (shorter : ∀ more : List Token, more.length < rest.length → FollowTypes line more)

include shorter

theorem onward_type {next : Nat} {more : List Token} (before : Before line index rest)
    (behind : Before line next more) (fewer : more.length < rest.length) :
    Follows line (onward line index (fun index _ => typeFrom line index) line next)
      (takeType more) :=
  .onward before behind fewer ((shorter more fewer).type next behind)

theorem typeFrom_follows (before : Before line index rest) :
    Follows line (typeFrom line index) (takeType rest) := by
  obtain ⟨t, more, rfl⟩ := List.exists_cons_of_ne_nil before.ended.ne_nil
  have fewer : more.length < (t :: more).length := Nat.lt_succ_self _
  rw [typeFrom, takeType]
  refine .isWord before (fun behind => ?_) ?_
  · refine .ifAccept behind (fun closed next behind => .pure behind rfl) ?_
    have elems := (shorter more fewer).types (index + 1) behind
    refine .bind (.onward before behind fewer elems) fun elems next behind => ?_
    refine .expect behind fun closed next behind => ?_
    exact .pure behind rfl
  refine .isWord before (fun behind => .pure behind rfl) ?_
  refine .isWord before (fun behind => ?_) ?_
  · refine .bind (onward_type shorter before behind fewer) fun elem next behind => ?_
    exact .pure behind rfl
  refine .isWord before (fun behind => ?_) ?_
  · obtain ⟨named, lifetime, behind⟩ := behind.lifetime_eq
    obtain ⟨marked, isMut, behind⟩ := behind.accept_eq "mut"
    rw [bind_ok lifetime, bind_ok isMut]
    have left := Nat.le_trans (cutWord_length_le "mut" _) (cutLifetime_length_le more)
    refine .bind (onward_type shorter before behind (Nat.lt_succ_of_le left))
      fun elem next behind => ?_
    exact .pure behind rfl
  refine .isWord before (fun behind => ?_) ?_
  · refine .bind (onward_type shorter before behind fewer) fun elem next behind => ?_
    refine .expect behind fun closed next behind => ?_
    exact .pure behind rfl
  refine .name before fun behind => ?_
  split
  · refine .expect behind fun opened next behind => ?_
    have inside := Nat.lt_succ_of_lt opened.shorter
    have params := (shorter opened.rest inside).params next behind
    refine .bind (.onward before behind inside params) fun params next behind => ?_
    refine .ifNext behind (fun arrow found next behind => ?_) fun missing => ?_
    · have within := Nat.lt_trans (params.andThen arrow).shorter inside
      simp only [found]
      refine .bind (onward_type shorter before behind within) fun result next behind => ?_
      exact .pure behind rfl
    · simp only [missing]
      exact .pure behind rfl
  split
  · refine .bind (.expectKind behind (by simp)) fun name next behind => ?_
    exact .pure behind rfl
  cases Shape.ofScalarName? t.text with
  | some s => exact .pure behind rfl
  | none => exact .pure behind rfl

theorem typesFrom_follows (here : ∀ index, Before line index rest →
    Follows line (typeFrom line index) (takeType rest)) (before : Before line index rest) :
    Follows line (typesFrom line index) (takeTypes rest) := by
  rw [typesFrom, takeTypes]
  refine .andThen (here index before) fun first next _ behind => ?_
  refine .ifNext behind (fun comma found next behind => ?_) fun missing => ?_
  · have within := (first.andThen comma).shorter
    simp only [found]
    rw [bind_ok behind.sees_next]
    split
    · exact .pure behind rfl
    · have others := (shorter comma.rest within).types next behind
      refine .bind (.onward before behind within others) fun others next behind => ?_
      exact .pure behind rfl
  · simp only [missing]
    exact .pure behind rfl

omit shorter in
theorem paramsFrom_follows (here : ∀ index, Before line index rest →
    Follows line (typesFrom line index) (takeTypes rest)) (before : Before line index rest) :
    Follows line (paramsFrom line index) (takeParams rest) := by
  rw [paramsFrom, takeParams, before.sees_next]
  change Follows line (if _ then _ else _) _
  split
  · refine .expect before fun closed next behind => ?_
    exact .pure behind rfl
  · refine .andThen (here index before) fun params next _ behind => ?_
    refine .expect behind fun closed next behind => ?_
    exact .pure behind rfl

end Types

theorem followTypes (line rest : List Token) : FollowTypes line rest := by
  induction size : rest.length using Nat.strong_induction_on generalizing rest with
  | h n ih =>
      have shorter : ∀ more : List Token, more.length < rest.length → FollowTypes line more :=
        fun more fewer => ih more.length (size ▸ fewer) more rfl
      have type : ∀ index, Before line index rest →
          Follows line (typeFrom line index) (takeType rest) :=
        fun index before => typeFrom_follows shorter before
      have types : ∀ index, Before line index rest →
          Follows line (typesFrom line index) (takeTypes rest) :=
        fun index before => typesFrom_follows shorter type before
      exact ⟨type, types, fun index before => paramsFrom_follows types before⟩

theorem type_follows (before : Before line index rest) :
    Follows line (typeFrom line index) (takeType rest) :=
  (followTypes line rest).type index before

/-! ## Operands and values -/

def place : Walk LocalId := do
  let t ← look 0
  if t.kind = .ident ∧ t.text.startsWith "_" then
    match Text.toNat? (t.text.drop 1) with
    | some n =>
      if n < 0x80000000 then
        let _ ← next
        return (n : Int)
      else refuse (.badLocal t)
    | none => refuse (.badLocal t)
  else refuse (.expectedLocal t)

theorem place_follows (before : Before line index rest) :
    Follows line (place line index) (takeLocal rest) := by
  obtain ⟨t, more, rfl⟩ := List.exists_cons_of_ne_nil before.ended.ne_nil
  unfold place
  rw [takeLocal, bind_ok (before.look_eq 0 rfl)]
  split
  · rename_i isLocal
    have solid : t.kind ≠ .eof := by simp [isLocal.1]
    cases Text.toNat? (t.text.drop 1) with
    | none => exact .refused _
    | some n =>
        dsimp only
        split
        · rw [bind_ok (before.next_eq solid)]
          exact .pure (before.tail solid) rfl
        · exact .refused _
  · exact .refused _

def parenPlace : Walk LocalId := do
  expect "("
  let id ← place
  expect ")"
  return id

theorem parenPlace_follows (before : Before line index rest) :
    Follows line (parenPlace line index) (takeParenLocal rest) := by
  refine .expect before fun opened next behind => ?_
  refine .bind (place_follows behind) fun id next behind => ?_
  refine .expect behind fun closed next behind => ?_
  exact .pure behind rfl

def constant : Walk Const := do
  let t ← look 0
  if t.kind = .int ∨ t.kind = .float then
    let _ ← next
    check (numberConst t)
  else if t.kind = .string then
    let _ ← next
    return .str t.text
  else if ← accept "true" then return .bool true
  else if ← accept "false" then return .bool false
  else if ← accept "(" then
    expect ")"
    return .unit
  else refuse (.expectedConstant t)

theorem constant_follows (before : Before line index rest) :
    Follows line (constant line index) (takeConst rest) := by
  obtain ⟨t, more, rfl⟩ := List.exists_cons_of_ne_nil before.ended.ne_nil
  unfold constant
  rw [takeConst, bind_ok (before.look_eq 0 rfl)]
  split
  · rename_i isNumber
    have solid : t.kind ≠ .eof := by
      rcases isNumber with isInt | isFloat
      · simp [isInt]
      · simp [isFloat]
    rw [bind_ok (before.next_eq solid), ← bind_pure (check (numberConst t))]
    refine .check fun value => ?_
    exact .pure (before.tail solid) rfl
  split
  · rename_i isString
    have solid : t.kind ≠ .eof := by simp [isString]
    rw [bind_ok (before.next_eq solid)]
    exact .pure (before.tail solid) rfl
  refine .isWord before (fun behind => .pure behind rfl) ?_
  refine .isWord before (fun behind => .pure behind rfl) ?_
  refine .isWord before (fun behind => ?_) (.refused _)
  refine .expect behind fun closed next behind => ?_
  exact .pure behind rfl

def operand : Walk Operand := do
  if ← accept "copy" then return .copy (← place)
  else if ← accept "move" then return .move (← place)
  else if ← accept "const" then return .const (← constant)
  else refuse (.expectedOperand (← look 0))

theorem operand_follows (before : Before line index rest) :
    Follows line (operand line index) (takeOperand rest) := by
  unfold operand takeOperand
  refine .ifAccept before (fun word next behind => ?_) ?_
  · exact .bind (place_follows behind) fun id next behind => .pure behind rfl
  refine .ifAccept before (fun word next behind => ?_) ?_
  · exact .bind (place_follows behind) fun id next behind => .pure behind rfl
  refine .ifAccept before (fun word next behind => ?_) ?_
  · exact .bind (constant_follows behind) fun value next behind => .pure behind rfl
  exact .refuse before

def operandsFrom (line : List Token) (start : Nat) : Except Halt (List Operand × Nat) :=
  (do
    if ← accept ")" then return []
    else
      let first ← operand
      if ← accept "," then
        let more ← onward line start fun index _ => operandsFrom line index
        return first :: more
      else
        expect ")"
        return [first] : Walk (List Operand)) line start
termination_by line.length - start

theorem operandsFrom_follows (before : Before line index rest) :
    Follows line (operandsFrom line index) (takeOperandsTail rest) := by
  -- The next round begins behind an operand and a comma, so there are fewer tokens left for it.
  induction size : rest.length using Nat.strong_induction_on generalizing rest index with
  | h n ih =>
      rw [operandsFrom, takeOperandsTail]
      refine .ifAccept before (fun closed next behind => ?_) ?_
      · exact .pure behind rfl
      refine .bind (operand_follows before) fun first next behind => ?_
      refine .ifNext behind (fun comma found next behind => ?_) fun missing => ?_
      · have within := (first.andThen comma).shorter
        simp only [found]
        refine .bind (.onward before behind within (ih _ (size ▸ within) behind rfl))
          fun others next behind => ?_
        exact .pure behind rfl
      · simp only [missing]
        refine .expect behind fun closed next behind => ?_
        exact .pure behind rfl

def operands : Walk (List Operand) := do
  expect "("
  operandsFrom

theorem operands_follows (before : Before line index rest) :
    Follows line (operands line index) (takeOperands rest) := by
  refine .expect before fun opened next behind => ?_
  exact .last (operandsFrom_follows behind) fun _ => ⟨rfl, rfl⟩

def aggregate (head : Text) : Walk RValue := do
  if head = "tuple" then return .aggregate .tuple (← operands)
  else if head = "array" then return .aggregate .array (← operands)
  else
    let name ← expectKind .ident
    if head = "struct" then return .aggregate (.struct name.text.normalize) (← operands)
    else
      expect "::"
      let variant ← check (variantOf (← expectKind .int))
      return .aggregate (.enum name.text.normalize variant) (← operands)

theorem aggregate_follows (head : Text) (before : Before line index rest) :
    Follows line (aggregate head line index) (takeAggregate rest head) := by
  unfold aggregate takeAggregate
  split
  · exact .bind (operands_follows before) fun elems next behind => .pure behind rfl
  split
  · exact .bind (operands_follows before) fun elems next behind => .pure behind rfl
  refine .bind (.expectKind before (by simp)) fun name next behind => ?_
  split
  · exact .bind (operands_follows behind) fun elems next behind => .pure behind rfl
  refine .expect behind fun sep next behind => ?_
  refine .bind (.expectKind behind (by simp)) fun number next behind => ?_
  refine .check fun variant => ?_
  exact .bind (operands_follows behind) fun elems next behind => .pure behind rfl

def namedValue (head : Token) : Walk RValue := do
  if head.text = "cast" then
    let value ← operand
    expect "as"
    return .cast value (← typeFrom)
  else if head.text = "len" then return .len (← parenPlace)
  else if head.text = "discriminant" then return .discriminant (← parenPlace)
  else if head.text = "tuple" ∨ head.text = "array" ∨ head.text = "struct" ∨ head.text = "enum" then
    aggregate head.text
  else if head.text = "Neg" ∨ head.text = "Not" then
    match ← operands with
    | [op] => return .unary (if head.text = "Not" then .not else .neg) op
    | _ => refuse (.takesOne head)
  else
    match BinaryOp.ofName? head.text with
    | some op =>
      match ← operands with
      | [left, right] => return .binary op left right
      | _ => refuse (.takesTwo head)
    | none => refuse (.unknownValue head)

theorem namedValue_follows (head : Token) (before : Before line index rest) :
    Follows line (namedValue head line index) (takeNamedValue head rest) := by
  unfold namedValue takeNamedValue
  split
  · refine .bind (operand_follows before) fun value next behind => ?_
    refine .expect behind fun word next behind => ?_
    exact .bind (type_follows behind) fun target next behind => .pure behind rfl
  split
  · exact .bind (parenPlace_follows before) fun id next behind => .pure behind rfl
  split
  · exact .bind (parenPlace_follows before) fun id next behind => .pure behind rfl
  split
  · exact aggregate_follows head.text before
  split
  · refine .bind (operands_follows before) fun ops next behind => ?_
    rcases ops with ⟨_ | ⟨op, _ | ⟨_, _⟩⟩, left, shorter⟩
    · exact .refused _
    · exact .pure behind rfl
    · exact .refused _
  cases BinaryOp.ofName? head.text with
  | none => exact .refused _
  | some op =>
      refine .bind (operands_follows before) fun ops next behind => ?_
      rcases ops with ⟨_ | ⟨first, _ | ⟨second, _ | ⟨_, _⟩⟩⟩, left, shorter⟩
      · exact .refused _
      · exact .refused _
      · exact .pure behind rfl
      · exact .refused _

def rvalue : Walk RValue := do
  if ← accept "&" then return .ref (← place)
  else if (← sees "copy") || (← sees "move") || (← sees "const") then return .use (← operand)
  else
    let head ← expectKind .ident
    namedValue head

theorem rvalue_follows (before : Before line index rest) :
    Follows line (rvalue line index) (takeRValue rest) := by
  unfold rvalue takeRValue
  refine .ifAccept before (fun amp next behind => ?_) ?_
  · exact .bind (place_follows behind) fun id next behind => .pure behind rfl
  rw [bind_ok before.sees_next, bind_ok before.sees_next, bind_ok before.sees_next]
  simp only [Bool.or_eq_true, or_assoc]
  split
  · exact .bind (operand_follows before) fun value next behind => .pure behind rfl
  refine .bind (.expectKind before (by simp)) fun head next behind => ?_
  exact .last (namedValue_follows head.value behind) fun _ => ⟨rfl, rfl⟩

def statement : Walk Statement := do
  if ← accept "nop" then return .nop
  else if ← accept "drop" then return .drop (← parenPlace)
  else
    let dst ← place
    expect "="
    return .assign dst (← rvalue)

theorem statement_follows (before : Before line index rest) :
    Follows line (statement line index) (takeStatement rest) := by
  unfold statement takeStatement
  refine .ifAccept before (fun word next behind => ?_) ?_
  · exact .pure behind rfl
  refine .ifAccept before (fun word next behind => ?_) ?_
  · exact .bind (parenPlace_follows behind) fun id next behind => .pure behind rfl
  refine .bind (place_follows before) fun dst next behind => ?_
  refine .expect behind fun sign next behind => ?_
  exact .bind (rvalue_follows behind) fun src next behind => .pure behind rfl

/-! ## Terminators -/

variable (labels : Labels)

def block : Walk BlockId := do
  let label ← expectKind .ident
  match labels label.text with
  | some id => return id
  | none =>
    match numberedBlock? label.text with
    | some id => return id
    | none => refuse (.unknownBlock label)

theorem block_follows (before : Before line index rest) :
    Follows line (block labels line index) (takeBlock labels rest) := by
  refine .bind (.expectKind before (by simp)) fun label next behind => ?_
  cases labels label.value.text with
  | some id => exact .pure behind rfl
  | none =>
      cases numberedBlock? label.value.text with
      | some id => exact .pure behind rfl
      | none => exact .refused _

def target : Walk BlockId := do
  expect "->"
  block labels

theorem target_follows (before : Before line index rest) :
    Follows line (target labels line index) (takeTarget labels rest) := by
  refine .expect before fun arrow next behind => ?_
  exact .last (block_follows labels behind) fun _ => ⟨rfl, rfl⟩

/-- A round for each case of a switch; the fallback ends them. -/
def casesFrom (line : List Token) (start : Nat) :
    Except Halt ((List SwitchCase × BlockId) × Nat) :=
  (do
    if ← accept "otherwise" then
      expect ":"
      return ([], ← block labels)
    else
      let value ← check (caseValue (← expectKind .int))
      expect ":"
      let target ← block labels
      expect ","
      let more ← onward line start fun index _ => casesFrom line index
      return (⟨value, target⟩ :: more.1, more.2) : Walk (List SwitchCase × BlockId)) line start
termination_by line.length - start

theorem casesFrom_follows (before : Before line index rest) :
    Follows line (casesFrom labels line index) (takeCases labels rest) := by
  induction size : rest.length using Nat.strong_induction_on generalizing rest index with
  | h n ih =>
      rw [casesFrom, takeCases]
      refine .ifAccept before (fun word next behind => ?_) ?_
      · refine .expect behind fun colon next behind => ?_
        exact .bind (block_follows labels behind) fun id next behind => .pure behind rfl
      refine .bind (.expectKind before (by simp)) fun number next behind => ?_
      refine .check fun value => ?_
      refine .expect behind fun colon next behind => ?_
      refine .bind (block_follows labels behind) fun id next behind => ?_
      refine .expect behind fun comma next behind => ?_
      have within := (number.andThen (colon.andThen (id.andThen comma))).shorter
      refine .bind (.onward before behind within (ih _ (size ▸ within) behind rfl))
        fun others next behind => ?_
      exact .pure behind rfl

def switch : Walk Terminator := do
  expect "("
  let discr ← operand
  expect ")"
  expect "->"
  expect "["
  let cases ← casesFrom labels
  expect "]"
  return .switchInt discr cases.1 cases.2

theorem switch_follows (before : Before line index rest) :
    Follows line (switch labels line index) (takeSwitch labels rest) := by
  refine .expect before fun opened next behind => ?_
  refine .bind (operand_follows behind) fun discr next behind => ?_
  refine .expect behind fun closed next behind => ?_
  refine .expect behind fun arrow next behind => ?_
  refine .expect behind fun bracket next behind => ?_
  refine .bind (casesFrom_follows labels behind) fun cases next behind => ?_
  refine .expect behind fun ended next behind => ?_
  exact .pure behind rfl

def truth : Walk Bool := do
  if ← accept "true" then return true
  else if ← accept "false" then return false
  else refuse (.expectedTruth (← look 0))

theorem truth_follows (before : Before line index rest) :
    Follows line (truth line index) (takeTruth rest) := by
  unfold truth takeTruth
  refine .ifAccept before (fun word next behind => ?_) ?_
  · exact .pure behind rfl
  refine .ifAccept before (fun word next behind => ?_) ?_
  · exact .pure behind rfl
  exact .refuse before

def assertion : Walk Terminator := do
  expect "("
  let cond ← operand
  expect ","
  let expected ← truth
  expect ","
  let msg ← expectKind .string
  expect ")"
  return .assert cond expected msg.text (← target labels)

theorem assertion_follows (before : Before line index rest) :
    Follows line (assertion labels line index) (takeAssert labels rest) := by
  refine .expect before fun opened next behind => ?_
  refine .bind (operand_follows behind) fun cond next behind => ?_
  refine .expect behind fun comma next behind => ?_
  refine .bind (truth_follows behind) fun expected next behind => ?_
  refine .expect behind fun comma next behind => ?_
  refine .bind (.expectKind behind (by simp)) fun msg next behind => ?_
  refine .expect behind fun closed next behind => ?_
  exact .bind (target_follows labels behind) fun id next behind => .pure behind rfl

def call (dst : Option LocalId) : Walk Terminator := do
  let func ← expectKind .ident
  let args ← operands
  return .call func.text.normalize args dst (← target labels)

theorem call_follows (dst : Option LocalId) (before : Before line index rest) :
    Follows line (call labels dst line index) (takeCall labels dst rest) := by
  refine .bind (.expectKind before (by simp)) fun func next behind => ?_
  refine .bind (operands_follows behind) fun args next behind => ?_
  exact .bind (target_follows labels behind) fun id next behind => .pure behind rfl

/-- A call. Only here is a token looked at that is not at the cursor. -/
def callLine : Walk Terminator := do
  let t ← look 0
  if t.kind = .ident ∧ t.text.startsWith "_" then
    if (← look 1).text = "=" then
      let dst ← place
      let _ ← next
      call labels (some dst)
    else call labels none
  else call labels none

theorem takeLocal_rest {t : Token} {dst : Taken LocalId (t :: rest)}
    (read : takeLocal (t :: rest) = .ok dst) : dst.rest = rest := by
  have taken := taken?_takeLocal t rest
  rw [read, taken?_ok] at taken
  obtain ⟨_, _, same⟩ := Option.map_eq_some_iff.mp taken.symm
  exact (congrArg Prod.snd same).symm

theorem callLine_follows (before : Before line index rest) :
    Follows line (callLine labels line index) (takeCallLine labels rest) := by
  obtain ⟨t, more, rfl⟩ := List.exists_cons_of_ne_nil before.ended.ne_nil
  unfold callLine takeCallLine
  rw [bind_ok (before.look_eq 0 rfl)]
  by_cases isLocal : t.kind = .ident ∧ t.text.startsWith "_"
  · have solid : t.kind ≠ .eof := by simp [isLocal.1]
    -- A name is not the mark of the end, so that there is a token behind it.
    obtain ⟨u, others, rfl⟩ := List.exists_cons_of_ne_nil (before.tail solid).ended.ne_nil
    rw [if_pos isLocal, bind_ok (before.look_eq 1 rfl)]
    by_cases isSign : u.text = "="
    · have stored : hasDestination (t :: u :: others) := by simp [hasDestination, isLocal, isSign]
      rw [if_pos isSign, if_pos stored]
      refine .andThen (place_follows before) fun dst next read behind => ?_
      obtain ⟨id, left, shorter⟩ := dst
      obtain rfl : left = u :: others := takeLocal_rest read
      have present : u.text ≠ [] := by
        rw [isSign]
        decide
      have isOther := behind.ended.solid_of_text present
      change Follows line ((Walk.next >>= fun _ => call labels (some id)) line next) _
      rw [bind_ok (behind.next_eq isOther)]
      exact .last (call_follows labels (some id) (behind.tail isOther)) fun _ => ⟨rfl, rfl⟩
    · have direct : ¬ hasDestination (t :: u :: others) := by simp [hasDestination, isSign]
      rw [if_neg isSign, if_neg direct]
      exact call_follows labels none before
  · have direct : ¬ hasDestination (t :: more) := by
      cases more with
      | nil => simp [hasDestination]
      | cons u others =>
          simp only [hasDestination, Bool.and_eq_true, beq_iff_eq]
          exact fun stored => isLocal stored.1
    rw [if_neg isLocal, if_neg direct]
    exact call_follows labels none before

def terminator : Walk Terminator := do
  if ← accept "return" then return .ret
  else if ← accept "unreachable" then return .unreachable
  else if ← accept "goto" then return .goto (← target labels)
  else if ← accept "switchInt" then switch labels
  else if ← accept "assert" then assertion labels
  else callLine labels

theorem terminator_follows (before : Before line index rest) :
    Follows line (terminator labels line index) (takeTerminator labels rest) := by
  unfold terminator takeTerminator
  refine .ifAccept before (fun word next behind => ?_) ?_
  · exact .pure behind rfl
  refine .ifAccept before (fun word next behind => ?_) ?_
  · exact .pure behind rfl
  refine .ifAccept before (fun word next behind => ?_) ?_
  · exact .bind (target_follows labels behind) fun id next behind => .pure behind rfl
  refine .ifAccept before (fun word next behind => ?_) ?_
  · exact .last (switch_follows labels behind) fun _ => ⟨rfl, rfl⟩
  refine .ifAccept before (fun word next behind => ?_) ?_
  · exact .last (assertion_follows labels behind) fun _ => ⟨rfl, rfl⟩
  exact callLine_follows labels before

/-! ## Lines -/

def bound : Walk Bound := do
  let name ← expectKind .lifetime
  expect ":"
  let outlives ← expectKind .lifetime
  return ⟨name.text, outlives.text⟩

theorem bound_follows (before : Before line index rest) :
    Follows line (bound line index) (takeBound rest) := by
  refine .bind (.expectKind before (by simp)) fun name next behind => ?_
  refine .expect behind fun colon next behind => ?_
  refine .bind (.expectKind behind (by simp)) fun outlives next behind => ?_
  exact .pure behind rfl

theorem parse_eq {α : Type} {walk : Walk α} {take : (tokens : List Token) → Take α tokens}
    (follows : ∀ line, Before line 0 line → Follows line (walk line 0) (take line)) (src : Text) :
    parse walk src = (parseLine take src).mapError .refused := by
  unfold parse parseLine
  cases lexed : lex src with
  | error fault => rfl
  | ok line =>
      have whole := follows line ⟨rfl, ended_of_lex lexed⟩
      change (walk line 0 >>= _) >>= _ = (take line >>= _).mapError _
      generalize walk line 0 = walked at whole ⊢
      generalize take line = read at whole ⊢
      cases whole with
      | refused fault => rfl
      | value taken before =>
          change (expectEnd line _ >>= _) >>= _ = (Source.expectEnd taken.rest >>= _).mapError _
          rw [before.expectEnd_eq]
          cases Source.expectEnd taken.rest <;> rfl

end Walk

/-- Reading by a cursor gives what the readers of a line give, for all bytes and all labels: a value
or a fault. Nothing behind the mark of the end is looked at, the cursor is not moved over the mark,
and each call and each round of a loop begins further on than the one that wants it. -/
theorem walks_stay_inside (labels : Labels) (src : Text) :
    Walk.parse Walk.typeFrom src = (parseType src).mapError .refused ∧
      Walk.parse Walk.statement src = (parseStatement src).mapError .refused ∧
      Walk.parse (Walk.terminator labels) src = (parseTerminator labels src).mapError .refused ∧
      Walk.parse Walk.bound src = (parseBound src).mapError .refused :=
  ⟨Walk.parse_eq (fun _ before => Walk.type_follows before) src,
    Walk.parse_eq (fun _ before => Walk.statement_follows before) src,
    Walk.parse_eq (fun _ before => Walk.terminator_follows labels before) src,
    Walk.parse_eq (fun _ before => Walk.bound_follows before) src⟩

-- It is the mark of the end that keeps the look ahead in the line.
example : Walk.terminator noLabels [⟨.ident, "_0", 0⟩] 0 = .error (.beyond 1) := rfl

end Source

end BorrowChecker
