import BorrowChecker.Proofs.Grammar
import Mathlib

/-!
Walking along a line of tokens with a cursor. The cursor is an index, so it can leave the line, and
what is read again and again need not move it: both are endings of their own here, beside the faults
of the line. A walk follows a reader when it ends as the reader does, with the cursor before the
tokens that the reader leaves; then it stays in the line and always moves on.
-/

namespace BorrowChecker

namespace Source

open Mir Text

inductive Halt where
  | refused (fault : Fault)
  /-- A token was asked for where none is, or the cursor was moved over the mark of the end. -/
  | beyond (index : Nat)
  /-- A call or a round of a loop began no further on than the one that wants it. -/
  | stalled (index : Nat)
deriving DecidableEq, Repr

/-- A walk along a line of tokens. Its state is the index of the token that comes next. -/
abbrev Walk (α : Type) := ReaderT (List Token) (StateT Nat (Except Halt)) α

namespace Walk

variable {α β : Type}

def look (ahead : Nat) : Walk Token := fun tokens index =>
  match tokens[index + ahead]? with
  | some t => .ok (t, index)
  | none => .error (.beyond (index + ahead))

/-- Moves the cursor over a token, which the mark of the end may not be. -/
def advance : Walk Unit := do
  if (← look 0).kind = .eof then throw (.beyond ((← get) + 1))
  else modify (· + 1)

def refuse (fault : Fault) : Walk α := throw (.refused fault)

def check (checked : Except Fault α) : Walk α :=
  match checked with
  | .ok value => return value
  | .error fault => refuse fault

/-- Takes the token at the cursor. The mark of the end stays where it is. -/
def next : Walk Token := do
  let t ← look 0
  if t.kind = .eof then return t
  else
    advance
    return t

def sees (word : Text) : Walk Bool := return (← look 0).isWord word

def accept (word : Text) : Walk Bool := do
  if ← sees word then
    advance
    return true
  else return false

def expect (word : Text) : Walk Unit := do
  if ← accept word then return ()
  else refuse (.expected word (← look 0))

def expectKind (kind : TokenKind) : Walk Token := do
  let t ← look 0
  if t.kind = kind then next else refuse (.unexpected t)

def expectEnd : Walk Unit := do
  let t ← look 0
  if t.kind = .eof then return () else refuse (.trailing t)

/-- Reads again from the cursor on, which must have moved since the call or the round that wants
this began. -/
def onward (line : List Token) (start : Nat)
    (again : (index : Nat) → start < index ∧ index < line.length → Except Halt (α × Nat)) :
    Walk α :=
  fun _ index =>
    if further : start < index ∧ index < line.length then again index further
    else .error (.stalled index)

def parse (walk : Walk α) (src : Text) : Except Halt α := do
  let line ← (lex src).mapError .refused
  let walked ← (do
    let value ← walk
    expectEnd
    return value : Walk α) line 0
  return walked.1

theorem bind_ok {walk : Walk α} {after : α → Walk β} {line : List Token} {index next : Nat}
    {value : α} (walked : walk line index = .ok (value, next)) :
    (walk >>= after) line index = after value line next := by
  change (walk line index >>= fun x => after x.1 line x.2) = _
  rw [walked]
  rfl

/-! ## Where the cursor is -/

/-- Tokens up to the mark of the end, which is the last of them and the only one of its kind. -/
inductive Ended : List Token → Prop
  | mark {t : Token} : t.kind = .eof → t.text = [] → Ended [t]
  | cons {t : Token} {rest : List Token} : t.kind ≠ .eof → Ended rest → Ended (t :: rest)

structure Before (line : List Token) (index : Nat) (rest : List Token) : Prop where
  left : line.drop index = rest
  ended : Ended rest

variable {line rest more : List Token} {index start : Nat} {t : Token}

theorem ended_of_lex {src : Text} (lexed : lex src = .ok line) : Ended line := by
  obtain ⟨body, stop, rfl, isEnd, empty, scanned⟩ :=
    lexFrom_shape (fun _ member => mem_codePoints member) lexed
  clear lexed
  induction body with
  | nil => exact .mark isEnd empty
  | cons t body ih =>
      have front := List.forall_mem_cons.mp scanned
      exact .cons front.1.solid (ih front.2)

theorem Ended.ne_nil (ended : Ended rest) : rest ≠ [] := by
  cases ended <;> simp

theorem Ended.of_cons (ended : Ended (t :: rest)) (solid : t.kind ≠ .eof) : Ended rest := by
  cases ended with
  | mark isEnd _ => exact absurd isEnd solid
  | cons _ later => exact later

theorem Ended.solid_of_text (ended : Ended (t :: rest)) (present : t.text ≠ []) :
    t.kind ≠ .eof := by
  cases ended with
  | mark _ empty => exact absurd empty present
  | cons solid _ => exact solid

namespace Before

theorem length_eq (before : Before line index rest) : rest.length = line.length - index := by
  rw [← before.left, List.length_drop]

theorem inside (before : Before line index rest) : index < line.length := by
  have present := List.length_pos_iff.mpr before.ended.ne_nil
  have length := before.length_eq
  omega

/-- Fewer tokens are left where the cursor is further on. -/
theorem further (before : Before line start rest) (later : Before line index more)
    (shorter : more.length < rest.length) : start < index := by
  have first := before.length_eq
  have second := later.length_eq
  omega

theorem tail (before : Before line index (t :: rest)) (solid : t.kind ≠ .eof) :
    Before line (index + 1) rest := by
  refine ⟨?_, before.ended.of_cons solid⟩
  rw [← List.drop_drop, before.left, List.drop_one, List.tail_cons]

theorem look_eq (before : Before line index rest) (ahead : Nat) {u : Token}
    (found : rest[ahead]? = some u) : look ahead line index = .ok (u, index) := by
  rw [← before.left, List.getElem?_drop] at found
  simp only [look, found]

theorem advance_eq (before : Before line index (t :: rest)) (solid : t.kind ≠ .eof) :
    advance line index = .ok ((), index + 1) := by
  unfold advance
  rw [bind_ok (before.look_eq 0 rfl), if_neg solid]
  rfl

theorem next_eq (before : Before line index (t :: rest)) (solid : t.kind ≠ .eof) :
    next line index = .ok (t, index + 1) := by
  unfold next
  rw [bind_ok (before.look_eq 0 rfl), if_neg solid, bind_ok (before.advance_eq solid)]
  rfl

theorem sees_eq (before : Before line index (t :: rest)) (word : Text) :
    sees word line index = .ok (t.isWord word, index) := by
  unfold sees
  rw [bind_ok (before.look_eq 0 rfl)]
  rfl

theorem sees_next (before : Before line index rest) {word : Text} :
    sees word line index = .ok (nextIsWord word rest, index) := by
  obtain ⟨t, more, rfl⟩ := List.exists_cons_of_ne_nil before.ended.ne_nil
  exact before.sees_eq word

theorem accept_found (before : Before line index (t :: rest)) {word : Text}
    (isWord : t.isWord word) : accept word line index = .ok (true, index + 1) := by
  unfold accept
  rw [bind_ok (before.sees_eq word), if_pos isWord,
    bind_ok (before.advance_eq (Grammar.kind_of_isWord isWord).2.1)]
  rfl

theorem accept_missing (before : Before line index (t :: rest)) {word : Text}
    (other : ¬ t.isWord word) : accept word line index = .ok (false, index) := by
  unfold accept
  rw [bind_ok (before.sees_eq word), if_neg other]
  rfl

theorem expectKind_found (before : Before line index (t :: rest)) (solid : t.kind ≠ .eof) :
    expectKind t.kind line index = .ok (t, index + 1) := by
  unfold expectKind
  rw [bind_ok (before.look_eq 0 rfl), if_pos rfl, before.next_eq solid]

theorem expectKind_other (before : Before line index (t :: rest)) {kind : TokenKind}
    (other : t.kind ≠ kind) : expectKind kind line index = .error (.refused (.unexpected t)) := by
  unfold expectKind
  rw [bind_ok (before.look_eq 0 rfl), if_neg other]
  rfl

theorem expectEnd_eq (before : Before line index rest) :
    expectEnd line index =
      ((Source.expectEnd rest).mapError .refused).map fun _ => ((), index) := by
  obtain ⟨t, more, rfl⟩ := List.exists_cons_of_ne_nil before.ended.ne_nil
  have here : peek (t :: more) = t := rfl
  unfold expectEnd Source.expectEnd
  rw [bind_ok (before.look_eq 0 rfl), here]
  by_cases isEnd : t.kind = .eof
  · rw [if_pos isEnd, if_pos isEnd]
    rfl
  · rw [if_neg isEnd, if_neg isEnd]
    rfl

end Before

/-! ## Walks beside readers -/

inductive Follows (line : List Token) {tokens : List Token} :
    Except Halt (α × Nat) → Take α tokens → Prop
  | value (taken : Taken α tokens) {index : Nat} : Before line index taken.rest →
      Follows line (.ok (taken.value, index)) (.ok taken)
  | refused (fault : Fault) : Follows line (.error (.refused fault)) (.error fault)

namespace Follows

variable {tokens : List Token} {word : Text}

theorem pure {taken : Taken α tokens} {value : α} (before : Before line index taken.rest)
    (same : taken.value = value) :
    Follows line ((Pure.pure value : Walk α) line index) (.ok taken) := by
  subst same
  exact .value taken before

theorem andThen {walked : Except Halt (α × Nat)} {after : α × Nat → Except Halt (β × Nat)}
    {read : Take α rest} {then_ : Taken α rest → Take β tokens} (first : Follows line walked read)
    (each : ∀ (taken : Taken α rest) (next : Nat), read = .ok taken → Before line next taken.rest →
      Follows line (after (taken.value, next)) (then_ taken)) :
    Follows line (walked >>= after) (read >>= then_) := by
  cases first with
  | value taken before => exact each taken _ rfl before
  | refused fault => exact .refused fault

theorem bind {walk : Walk α} {after : α → Walk β} {read : Take α rest}
    {then_ : Taken α rest → Take β tokens} (first : Follows line (walk line index) read)
    (each : ∀ (taken : Taken α rest) (next : Nat), Before line next taken.rest →
      Follows line (after taken.value line next) (then_ taken)) :
    Follows line ((walk >>= after) line index) (read >>= then_) :=
  andThen first fun taken next _ before => each taken next before

/-- A reader that hands on what another one gives. -/
theorem last {walked : Except Halt (α × Nat)} {read : Take α rest}
    {finish : Taken α rest → Taken α tokens} (follows : Follows line walked read)
    (same : ∀ taken, (finish taken).value = taken.value ∧ (finish taken).rest = taken.rest) :
    Follows line walked (read >>= fun taken => Pure.pure (finish taken)) := by
  cases follows with
  | refused fault => exact .refused fault
  | value taken before =>
      obtain ⟨value, left⟩ := same taken
      rw [← left] at before
      exact .pure before value

/-- A fault that names the token at the cursor. -/
theorem refuse {fault : Token → Fault} (before : Before line index rest) :
    Follows line ((do Walk.refuse (fault (← look 0)) : Walk α) line index)
      (.error (fault (peek rest)) : Take α tokens) := by
  obtain ⟨t, more, rfl⟩ := List.exists_cons_of_ne_nil before.ended.ne_nil
  rw [bind_ok (before.look_eq 0 rfl)]
  exact .refused (fault t)

theorem check {checked : Except Fault α} {after : α → Walk β} {then_ : α → Take β tokens}
    (each : ∀ value, Follows line (after value line index) (then_ value)) :
    Follows line ((Walk.check checked >>= after) line index) (checked >>= then_) := by
  cases checked with
  | error fault => exact .refused fault
  | ok value => exact each value

/-- A choice by the token at the cursor. -/
theorem isWord {yes no : Walk α} {here there : Take α tokens}
    (before : Before line index (t :: rest))
    (found : Before line (index + 1) rest → Follows line (yes line (index + 1)) here)
    (missing : Follows line (no line index) there) :
    Follows line ((do if ← Walk.accept word then yes else no : Walk α) line index)
      (if t.isWord word then here else there) := by
  split
  · rename_i isWord
    rw [bind_ok (before.accept_found isWord), if_pos rfl]
    exact found (before.tail (Grammar.kind_of_isWord isWord).2.1)
  · rename_i other
    rw [bind_ok (before.accept_missing other), if_neg Bool.false_ne_true]
    exact missing

theorem accept {after : Bool → Walk α} {read : Take α tokens} (before : Before line index rest)
    (found : ∀ taken, accept? word rest = some taken → ∀ next, Before line next taken.rest →
      Follows line (after true line next) read)
    (missing : accept? word rest = none → Follows line (after false line index) read) :
    Follows line ((Walk.accept word >>= after) line index) read := by
  obtain ⟨t, more, rfl⟩ := List.exists_cons_of_ne_nil before.ended.ne_nil
  by_cases isWord : t.isWord word
  · rw [bind_ok (before.accept_found isWord)]
    refine found (.first t) ?_ _ (before.tail (Grammar.kind_of_isWord isWord).2.1)
    rw [accept?, if_pos isWord]
  · rw [bind_ok (before.accept_missing isWord)]
    refine missing ?_
    rw [accept?, if_neg isWord]

/-- A choice by whether a reader accepts a word. -/
theorem ifNext {yes no : Walk α} {read : Take α tokens} (before : Before line index rest)
    (found : ∀ taken, accept? word rest = some taken → ∀ next, Before line next taken.rest →
      Follows line (yes line next) read)
    (missing : accept? word rest = none → Follows line (no line index) read) :
    Follows line ((do if ← Walk.accept word then yes else no : Walk α) line index) read := by
  refine .accept before (fun taken isNext next behind => ?_) fun isOther => ?_
  · rw [if_pos rfl]
    exact found taken isNext next behind
  · rw [if_neg Bool.false_ne_true]
    exact missing isOther

/-- The same choice made by both. -/
theorem ifAccept {yes no : Walk α} {here : Taken Token rest → Take α tokens} {there : Take α tokens}
    (before : Before line index rest)
    (found : ∀ (taken : Taken Token rest) (next : Nat), Before line next taken.rest →
      Follows line (yes line next) (here taken))
    (missing : Follows line (no line index) there) :
    Follows line ((do if ← Walk.accept word then yes else no : Walk α) line index)
      (match accept? word rest with
        | some taken => here taken
        | none => there) := by
  refine .ifNext before (fun taken isNext next behind => ?_) fun isOther => ?_
  · rw [isNext]
    exact found taken next behind
  · rw [isOther]
    exact missing

theorem expect {after : Unit → Walk β} {then_ : Taken Token rest → Take β tokens}
    (before : Before line index rest)
    (each : ∀ (taken : Taken Token rest) (next : Nat), Before line next taken.rest →
      Follows line (after () line next) (then_ taken)) :
    Follows line ((Walk.expect word >>= after) line index) (Source.expect word rest >>= then_) := by
  unfold Walk.expect
  rw [bind_assoc]
  refine .accept before (fun taken found next later => ?_) fun missing => ?_
  · simp only [Source.expect, found]
    exact each taken next later
  · simp only [Source.expect, missing]
    obtain ⟨t, more, rfl⟩ := List.exists_cons_of_ne_nil before.ended.ne_nil
    rw [if_neg Bool.false_ne_true, bind_assoc, bind_ok (before.look_eq 0 rfl)]
    exact .refused _

theorem expectKind {kind : TokenKind} (before : Before line index rest) (solid : kind ≠ .eof) :
    Follows line (Walk.expectKind kind line index) (Source.expectKind kind rest) := by
  obtain ⟨t, more, rfl⟩ := List.exists_cons_of_ne_nil before.ended.ne_nil
  rw [Source.expectKind]
  split
  · rename_i same
    subst same
    rw [before.expectKind_found solid]
    exact .value (.first t) (before.tail solid)
  · rename_i other
    rw [before.expectKind_other other]
    exact .refused _

/-- A name at the cursor, and what is read behind it. -/
theorem name {after : Token → Walk α} {read : Take α tokens}
    (before : Before line index (t :: rest))
    (each : Before line (index + 1) rest → Follows line (after t line (index + 1)) read) :
    Follows line ((Walk.expectKind .ident >>= after) line index)
      (if t.kind ≠ .ident then .error (.unexpected t) else read) := by
  split
  · rename_i other
    change Follows line (Walk.expectKind .ident line index >>= fun x => after x.1 line x.2) _
    rw [before.expectKind_other other]
    exact .refused _
  · rename_i same
    rw [not_not] at same
    have solid : t.kind ≠ .eof := by simp [same]
    have found := before.expectKind_found solid
    rw [same] at found
    rw [bind_ok found]
    exact each (before.tail solid)

/-- What is read again follows its reader when fewer tokens are left than where it is wanted. -/
theorem onward {again : Nat → Except Halt (α × Nat)} {read : Take α tokens}
    (before : Before line start rest) (later : Before line index more)
    (shorter : more.length < rest.length) (follows : Follows line (again index) read) :
    Follows line (Walk.onward line start (fun index _ => again index) line index) read := by
  rw [Walk.onward, dif_pos ⟨before.further later shorter, later.inside⟩]
  exact follows

end Follows

end Walk

end Source

end BorrowChecker
