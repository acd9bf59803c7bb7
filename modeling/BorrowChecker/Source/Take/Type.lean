import BorrowChecker.Source.Take
import BorrowChecker.Mir.Type
import BorrowChecker.Text.Normal

/-!
Types from tokens. Names of structs and enums are put in composed form.
-/

namespace BorrowChecker

namespace Source

open Mir

/-- The lifetime of a reference; empty when none is written. -/
def cutLifetime (tokens : List Token) : Text × List Token :=
  match tokens with
  | [] => ([], [])
  | t :: rest => if t.kind = .lifetime then (t.text, rest) else ([], t :: rest)

theorem cutLifetime_length_le (tokens : List Token) :
    (cutLifetime tokens).2.length ≤ tokens.length := by
  cases tokens with
  | nil => simp [cutLifetime]
  | cons t rest =>
    simp only [cutLifetime]
    split <;> simp

def cutWord (word : Text) (tokens : List Token) : Bool × List Token :=
  match accept? word tokens with
  | some taken => (true, taken.rest)
  | none => (false, tokens)

theorem cutWord_length_le (word : Text) (tokens : List Token) :
    (cutWord word tokens).2.length ≤ tokens.length := by
  unfold cutWord
  split
  next taken _ => exact Nat.le_of_lt taken.shorter
  next => exact Nat.le_refl _

def refOf (lifetime : Text) (isMut : Bool) (elem : Ty) : Ty :=
  if lifetime.isEmpty then .refTo elem isMut else .refWithLifetime lifetime elem isMut

/-- One type in parentheses is that type; a comma makes it a tuple. -/
def parenthesized (elems : List Ty) (trailingComma : Bool) : Ty :=
  match elems, trailingComma with
  | [t], false => t
  | _, _ => .tupleOf elems

mutual

def takeType (tokens : List Token) : Take Ty tokens :=
  match tokens with
  | [] => .error (.unexpected (peek []))
  | t :: rest =>
    if t.isWord "(" then
      match accept? ")" rest with
      | some closed => .ok ⟨.unit, closed.rest, by have := closed.shorter; simp; omega⟩
      | none => do
        let elems ← takeTypes rest
        let closed ← expect ")" elems.rest
        return ⟨parenthesized elems.value.1 elems.value.2, closed.rest, by
          have := elems.shorter
          have := closed.shorter
          simp; omega⟩
    else if t.isWord "!" then .ok (.first (.scalar .never))
    else if t.isWord "*" then do
      let elem ← takeType rest
      return ⟨.pointerTo elem.value, elem.rest, by have := elem.shorter; simp; omega⟩
    else if t.isWord "&" then
      match hLifetime : cutLifetime rest with
      | (lifetime, afterLifetime) =>
        match hMut : cutWord "mut" afterLifetime with
        | (isMut, afterMut) => do
          have bound : afterMut.length ≤ rest.length := by
            have first := cutLifetime_length_le rest
            have second := cutWord_length_le "mut" afterLifetime
            rw [hLifetime] at first
            rw [hMut] at second
            exact Nat.le_trans second first
          let elem ← takeType afterMut
          return ⟨refOf lifetime isMut elem.value, elem.rest, by
            have := elem.shorter
            simp; omega⟩
    else if t.isWord "[" then do
      let elem ← takeType rest
      let closed ← expect "]" elem.rest
      return ⟨.arrayOf elem.value, closed.rest, by
        have := elem.shorter
        have := closed.shorter
        simp; omega⟩
    else if t.kind ≠ .ident then .error (.unexpected t)
    else if t.text = "fn" then do
      let opened ← expect "(" rest
      have inside : opened.rest.length < rest.length := opened.shorter
      let params ← takeParams opened.rest
      match accept? "->" params.rest with
      | some arrow => do
        have bound : arrow.rest.length ≤ rest.length := by
          have := opened.shorter
          have := params.shorter
          have := arrow.shorter
          omega
        let result ← takeType arrow.rest
        return ⟨.functionOf params.value result.value, result.rest, by
          have := result.shorter
          simp; omega⟩
      | none =>
        return ⟨.functionOf params.value .unit, params.rest, by
          have := opened.shorter
          have := params.shorter
          simp; omega⟩
    else if t.text = "enum" then do
      let name ← expectKind .ident rest
      return ⟨.enumNamed name.value.text.normalize, name.rest, by
        have := name.shorter
        simp; omega⟩
    else
      match Shape.ofScalarName? t.text with
      | some s => .ok (.first (.scalar s))
      | none => .ok (.first (.structNamed t.text.normalize))
termination_by (tokens.length, 0)

/-- At least one type, with commas between and perhaps one at the end. -/
def takeTypes (tokens : List Token) : Take (List Ty × Bool) tokens := do
  let first ← takeType tokens
  match accept? "," first.rest with
  | none => return first.map fun t => ([t], false)
  | some comma =>
    if nextIsWord ")" comma.rest then
      return ⟨([first.value], true), comma.rest, (first.andThen comma).shorter⟩
    else
      have bound : comma.rest.length < tokens.length := (first.andThen comma).shorter
      let more ← takeTypes comma.rest
      return ⟨(first.value :: more.value.1, more.value.2), more.rest,
        Nat.lt_trans more.shorter bound⟩
termination_by (tokens.length, 1)

def takeParams (tokens : List Token) : Take (List Ty) tokens :=
  if nextIsWord ")" tokens then do
    let closed ← expect ")" tokens
    return closed.map fun _ => []
  else do
    let params ← takeTypes tokens
    let closed ← expect ")" params.rest
    return params.andThen (closed.map fun _ => params.value.1)
termination_by (tokens.length, 2)

end

end Source

end BorrowChecker
