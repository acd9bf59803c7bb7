import BorrowChecker.Source.Lexer

/-!
Taking things from the front of a token list. Whatever is taken leaves fewer tokens than there
were, so every reader built from these ends.
-/

namespace BorrowChecker

namespace Source

structure Taken (α : Type) (tokens : List Token) where
  value : α
  rest : List Token
  shorter : rest.length < tokens.length

namespace Taken

variable {α β : Type} {tokens : List Token}

def first (value : α) {t : Token} {rest : List Token} : Taken α (t :: rest) :=
  ⟨value, rest, Nat.lt_succ_self _⟩

def map (f : α → β) (t : Taken α tokens) : Taken β tokens := ⟨f t.value, t.rest, t.shorter⟩

/-- Something taken from what the first left was taken from the whole. -/
def andThen (first : Taken α tokens) (second : Taken β first.rest) : Taken β tokens :=
  ⟨second.value, second.rest, Nat.lt_trans second.shorter first.shorter⟩

end Taken

abbrev Take (α : Type) (tokens : List Token) := Except Fault (Taken α tokens)

def peek (tokens : List Token) : Token := tokens.headD ⟨.eof, [], 0⟩

namespace Token

/-- Whether a token is a given symbol or keyword. A string with the same text is neither. -/
def isWord (word : Text) (t : Token) : Bool :=
  (t.kind == .punct || t.kind == .ident) && t.text == word

end Token

def nextIsWord (word : Text) (tokens : List Token) : Bool := (peek tokens).isWord word

def accept? (word : Text) : (tokens : List Token) → Option (Taken Token tokens)
  | [] => none
  | t :: _ => if t.isWord word then some (.first t) else none

def expect (word : Text) (tokens : List Token) : Take Token tokens :=
  match accept? word tokens with
  | some taken => .ok taken
  | none => .error (.expected word (peek tokens))

def expectKind (kind : TokenKind) : (tokens : List Token) → Take Token tokens
  | [] => .error (.unexpected (peek []))
  | t :: _ => if t.kind = kind then .ok (.first t) else .error (.unexpected t)

def expectEnd (tokens : List Token) : Except Fault Unit :=
  if (peek tokens).kind = .eof then .ok () else .error (.trailing (peek tokens))

end Source

end BorrowChecker
