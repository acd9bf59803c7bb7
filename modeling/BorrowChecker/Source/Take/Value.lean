import BorrowChecker.Source.Take.Type
import BorrowChecker.Mir.Body

/-!
Operands, values and statements from tokens.
-/

namespace BorrowChecker

namespace Source

open Mir

/-- A local such as `_7`. Its number fits in thirty-one bits. -/
def takeLocal : (tokens : List Token) → Take LocalId tokens
  | [] => .error (.expectedLocal (peek []))
  | t :: _ =>
    if t.kind = .ident ∧ t.text.startsWith "_" then
      match Text.toNat? (t.text.drop 1) with
      | some n =>
        if n < 0x80000000 then .ok (.first (n : Int)) else .error (.badLocal t)
      | none => .error (.badLocal t)
    else .error (.expectedLocal t)

def takeParenLocal (tokens : List Token) : Take LocalId tokens := do
  let opened ← expect "(" tokens
  let place ← takeLocal opened.rest
  let closed ← expect ")" place.rest
  return opened.andThen (place.andThen (closed.map fun _ => place.value))

def numberConst (t : Token) : Except Fault Const :=
  if t.kind = .int then
    match Text.readSigned 64 t.text with
    | .ok v => .ok (.int (Int64.ofInt v))
    | .error fault => .error (.number t.pos fault)
  else
    match Double.read t.text with
    | .ok v => .ok (.float v)
    | .error fault => .error (.number t.pos fault)

def takeConst : (tokens : List Token) → Take Const tokens
  | [] => .error (.expectedConstant (peek []))
  | t :: rest =>
    if t.kind = .int ∨ t.kind = .float then do
      let value ← numberConst t
      return .first value
    else if t.kind = .string then .ok (.first (.str t.text))
    else if t.isWord "true" then .ok (.first (.bool true))
    else if t.isWord "false" then .ok (.first (.bool false))
    else if t.isWord "(" then do
      let closed ← expect ")" rest
      return ⟨.unit, closed.rest, Nat.lt_succ_of_lt closed.shorter⟩
    else .error (.expectedConstant t)

def takeOperand (tokens : List Token) : Take Operand tokens :=
  match accept? "copy" tokens with
  | some word => do
    let place ← takeLocal word.rest
    return word.andThen (place.map .copy)
  | none =>
    match accept? "move" tokens with
    | some word => do
      let place ← takeLocal word.rest
      return word.andThen (place.map .move)
    | none =>
      match accept? "const" tokens with
      | some word => do
        let value ← takeConst word.rest
        return word.andThen (value.map .const)
      | none => .error (.expectedOperand (peek tokens))

def takeOperandsTail (tokens : List Token) : Take (List Operand) tokens :=
  match accept? ")" tokens with
  | some closed => .ok (closed.map fun _ => [])
  | none => do
    let first ← takeOperand tokens
    match accept? "," first.rest with
    | some comma =>
      have bound : comma.rest.length < tokens.length := (first.andThen comma).shorter
      let more ← takeOperandsTail comma.rest
      return ⟨first.value :: more.value, more.rest, Nat.lt_trans more.shorter bound⟩
    | none =>
      let closed ← expect ")" first.rest
      return first.andThen (closed.map fun _ => [first.value])
termination_by tokens.length

def takeOperands (tokens : List Token) : Take (List Operand) tokens := do
  let opened ← expect "(" tokens
  let ops ← takeOperandsTail opened.rest
  return opened.andThen ops

def variantOf (t : Token) : Except Fault UInt32 :=
  match Text.readUnsigned 64 t.text with
  | .error fault => .error (.number t.pos fault)
  | .ok v => if v < 0x100000000 then .ok v.toUInt32 else .error (.variantTooLarge t)

def takeAggregate (tokens : List Token) (head : Text) : Take RValue tokens :=
  if head = "tuple" then do
    let elems ← takeOperands tokens
    return elems.map (.aggregate .tuple)
  else if head = "array" then do
    let elems ← takeOperands tokens
    return elems.map (.aggregate .array)
  else do
    let name ← expectKind .ident tokens
    if head = "struct" then
      let elems ← takeOperands name.rest
      return name.andThen (elems.map (.aggregate (.struct name.value.text.normalize)))
    else
      let sep ← expect "::" name.rest
      let number ← expectKind .int sep.rest
      let variant ← variantOf number.value
      let elems ← takeOperands number.rest
      return name.andThen (sep.andThen (number.andThen
        (elems.map (.aggregate (.enum name.value.text.normalize variant)))))

def takeNamedValue (head : Token) (tokens : List Token) : Take RValue tokens :=
  if head.text = "cast" then do
    let value ← takeOperand tokens
    let word ← expect "as" value.rest
    let target ← takeType word.rest
    return value.andThen (word.andThen (target.map (.cast value.value)))
  else if head.text = "len" then do
    let place ← takeParenLocal tokens
    return place.map .len
  else if head.text = "discriminant" then do
    let place ← takeParenLocal tokens
    return place.map .discriminant
  else if head.text = "tuple" ∨ head.text = "array" ∨ head.text = "struct" ∨ head.text = "enum" then
    takeAggregate tokens head.text
  else if head.text = "Neg" ∨ head.text = "Not" then do
    let ops ← takeOperands tokens
    match ops.value with
    | [op] => return ops.map fun _ => .unary (if head.text = "Not" then .not else .neg) op
    | _ => .error (.takesOne head)
  else
    match BinaryOp.ofName? head.text with
    | some op => do
      let ops ← takeOperands tokens
      match ops.value with
      | [left, right] => return ops.map fun _ => .binary op left right
      | _ => .error (.takesTwo head)
    | none => .error (.unknownValue head)

def takeRValue (tokens : List Token) : Take RValue tokens :=
  match accept? "&" tokens with
  | some amp => do
    let place ← takeLocal amp.rest
    return amp.andThen (place.map .ref)
  | none =>
    if nextIsWord "copy" tokens ∨ nextIsWord "move" tokens ∨ nextIsWord "const" tokens then do
      let value ← takeOperand tokens
      return value.map .use
    else do
      let head ← expectKind .ident tokens
      let value ← takeNamedValue head.value head.rest
      return head.andThen value

def takeStatement (tokens : List Token) : Take Statement tokens :=
  match accept? "nop" tokens with
  | some word => .ok (word.map fun _ => .nop)
  | none =>
    match accept? "drop" tokens with
    | some word => do
      let place ← takeParenLocal word.rest
      return word.andThen (place.map .drop)
    | none => do
      let dst ← takeLocal tokens
      let eq ← expect "=" dst.rest
      let src ← takeRValue eq.rest
      return dst.andThen (eq.andThen (src.map (.assign dst.value)))

end Source

end BorrowChecker
