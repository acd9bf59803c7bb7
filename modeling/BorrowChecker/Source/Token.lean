import BorrowChecker.Number.Integer

/-!
Tokens of one line of source, and what can be wrong with a line.
-/

namespace BorrowChecker

namespace Source

inductive TokenKind where
  | eof
  | ident
  | int
  | float
  | string
  | lifetime
  | punct
deriving DecidableEq, Repr

def TokenKind.print : TokenKind → Text
  | eof => "eof"
  | ident => "ident"
  | int => "int"
  | float => "float"
  | string => "string"
  | lifetime => "lifetime"
  | punct => "punct"

/-- A token with the offset of its first byte. The text of a string is what it is written for, that
of a lifetime its name without the apostrophe. -/
structure Token where
  kind : TokenKind
  text : Text
  pos : Nat
deriving DecidableEq, Repr

namespace Token

def shown (t : Token) : Text :=
  match t.kind with
  | .eof => "end of input"
  | .lifetime => 39 :: t.text
  | .string | .ident | .int | .float | .punct => Quoted.encode t.text

end Token

/-- What is wrong with a line. Every fault stands at an offset, mostly that of the token it names. -/
inductive Fault where
  | emptyLifetime (pos : Nat)
  | badString (pos : Nat)
  | unexpectedCharacter (pos : Nat) (char : Nat)
  | expected (wanted : Text) (found : Token)
  | unexpected (found : Token)
  | trailing (found : Token)
  | expectedLocal (found : Token)
  | badLocal (found : Token)
  | expectedOperand (found : Token)
  | expectedConstant (found : Token)
  | expectedTruth (found : Token)
  | takesOne (head : Token)
  | takesTwo (head : Token)
  | unknownValue (head : Token)
  | unknownBlock (label : Token)
  | number (pos : Nat) (fault : NumberFault)
  | variantTooLarge (variant : Token)
deriving DecidableEq, Repr

namespace Fault

def pos : Fault → Nat
  | emptyLifetime pos | badString pos | unexpectedCharacter pos _ | number pos _ => pos
  | expected _ t | unexpected t | trailing t | expectedLocal t | badLocal t | expectedOperand t
  | expectedConstant t | expectedTruth t | takesOne t | takesTwo t | unknownValue t
  | unknownBlock t | variantTooLarge t => t.pos

def reason : Fault → Text
  | emptyLifetime _ => "empty lifetime name"
  | badString _ => "bad string literal: invalid syntax"
  | unexpectedCharacter _ char => "unexpected " ++ Quoted.encodeChar char
  | expected wanted t => "expected " ++ Quoted.encode wanted ++ ", found " ++ t.shown
  | unexpected t => "unexpected " ++ t.shown
  | trailing t => "trailing " ++ t.shown
  | expectedLocal t => "expected local, found " ++ t.shown
  | badLocal t => "bad local " ++ Quoted.encode t.text
  | expectedOperand t => "expected operand, found " ++ t.shown
  | expectedConstant t => "expected constant, found " ++ t.shown
  | expectedTruth t => "expected true or false, found " ++ t.shown
  | takesOne t => t.text ++ " takes one operand"
  | takesTwo t => t.text ++ " takes two operands"
  | unknownValue t => "unknown rvalue " ++ Quoted.encode t.text
  | unknownBlock t => "unknown block " ++ Quoted.encode t.text
  | number _ fault => fault.message
  | variantTooLarge _ => "variant out of range"

def message (f : Fault) : Text := "offset " ++ Text.ofNat f.pos ++ ": " ++ f.reason

end Fault

end Source

end BorrowChecker
