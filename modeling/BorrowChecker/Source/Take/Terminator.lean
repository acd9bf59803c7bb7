import BorrowChecker.Source.Take.Value

/-!
Terminators from tokens. A target is a label that the line's surroundings know, or `bb` and a
number.
-/

namespace BorrowChecker

namespace Source

open Mir

abbrev Labels := Text → Option BlockId

def noLabels : Labels := fun _ => none

/-- A block written `bb` and a number that fits in thirty-one bits. -/
def numberedBlock? (text : Text) : Option BlockId :=
  match Text.cutStart "bb" text with
  | none => none
  | some digits =>
    match Text.toNat? digits with
    | some n => if n < 0x80000000 then some n else none
    | none => none

def takeBlock (labels : Labels) (tokens : List Token) : Take BlockId tokens := do
  let label ← expectKind .ident tokens
  match labels label.value.text with
  | some id => return label.map fun _ => id
  | none =>
    match numberedBlock? label.value.text with
    | some id => return label.map fun _ => id
    | none => .error (.unknownBlock label.value)

def takeTarget (labels : Labels) (tokens : List Token) : Take BlockId tokens := do
  let arrow ← expect "->" tokens
  let target ← takeBlock labels arrow.rest
  return arrow.andThen target

def caseValue (t : Token) : Except Fault Int64 :=
  match Text.readSigned 64 t.text with
  | .ok v => .ok (Int64.ofInt v)
  | .error fault => .error (.number t.pos fault)

def takeCases (labels : Labels) (tokens : List Token) :
    Take (List SwitchCase × BlockId) tokens :=
  match accept? "otherwise" tokens with
  | some word => do
    let colon ← expect ":" word.rest
    let target ← takeBlock labels colon.rest
    return word.andThen (colon.andThen (target.map fun id => ([], id)))
  | none => do
    let number ← expectKind .int tokens
    let value ← caseValue number.value
    let colon ← expect ":" number.rest
    let target ← takeBlock labels colon.rest
    let comma ← expect "," target.rest
    have bound : comma.rest.length < tokens.length :=
      (number.andThen (colon.andThen (target.andThen comma))).shorter
    let more ← takeCases labels comma.rest
    return ⟨(⟨value, target.value⟩ :: more.value.1, more.value.2), more.rest,
      Nat.lt_trans more.shorter bound⟩
termination_by tokens.length

def takeSwitch (labels : Labels) (tokens : List Token) : Take Terminator tokens := do
  let opened ← expect "(" tokens
  let discr ← takeOperand opened.rest
  let closed ← expect ")" discr.rest
  let arrow ← expect "->" closed.rest
  let bracket ← expect "[" arrow.rest
  let cases ← takeCases labels bracket.rest
  let ended ← expect "]" cases.rest
  return opened.andThen (discr.andThen (closed.andThen (arrow.andThen (bracket.andThen
    (cases.andThen (ended.map fun _ => .switchInt discr.value cases.value.1 cases.value.2))))))

def takeTruth (tokens : List Token) : Take Bool tokens :=
  match accept? "true" tokens with
  | some word => .ok (word.map fun _ => true)
  | none =>
    match accept? "false" tokens with
    | some word => .ok (word.map fun _ => false)
    | none => .error (.expectedTruth (peek tokens))

def takeAssert (labels : Labels) (tokens : List Token) : Take Terminator tokens := do
  let opened ← expect "(" tokens
  let cond ← takeOperand opened.rest
  let comma ← expect "," cond.rest
  let expected ← takeTruth comma.rest
  let comma₂ ← expect "," expected.rest
  let msg ← expectKind .string comma₂.rest
  let closed ← expect ")" msg.rest
  let target ← takeTarget labels closed.rest
  return opened.andThen (cond.andThen (comma.andThen (expected.andThen (comma₂.andThen
    (msg.andThen (closed.andThen (target.map
      (.assert cond.value expected.value msg.value.text))))))))

def takeCall (labels : Labels) (dst : Option LocalId) (tokens : List Token) :
    Take Terminator tokens := do
  let func ← expectKind .ident tokens
  let args ← takeOperands func.rest
  let target ← takeTarget labels args.rest
  return func.andThen (args.andThen (target.map
    (.call func.value.text.normalize args.value dst)))

/-- Whether a call with a destination starts here: a name that begins like a local, and then a
token whose text is an equals sign. -/
def hasDestination : List Token → Bool
  | t :: u :: _ => t.kind == .ident && t.text.startsWith "_" && u.text == ("=" : Text)
  | _ => false

def takeCallLine (labels : Labels) (tokens : List Token) : Take Terminator tokens :=
  if hasDestination tokens then do
    let dst ← takeLocal tokens
    match dst with
    | ⟨place, rest, shorter⟩ =>
      let call ← takeCall labels (some place) (rest.drop 1)
      return ⟨call.value, call.rest, by
        have := call.shorter
        simp only [List.length_drop] at this
        omega⟩
  else takeCall labels none tokens

def takeTerminator (labels : Labels) (tokens : List Token) : Take Terminator tokens :=
  match accept? "return" tokens with
  | some word => .ok (word.map fun _ => .ret)
  | none =>
  match accept? "unreachable" tokens with
  | some word => .ok (word.map fun _ => .unreachable)
  | none =>
  match accept? "goto" tokens with
  | some word => do
    let target ← takeTarget labels word.rest
    return word.andThen (target.map .goto)
  | none =>
  match accept? "switchInt" tokens with
  | some word => do
    let switch ← takeSwitch labels word.rest
    return word.andThen switch
  | none =>
  match accept? "assert" tokens with
  | some word => do
    let assert ← takeAssert labels word.rest
    return word.andThen assert
  | none => takeCallLine labels tokens

end Source

end BorrowChecker
