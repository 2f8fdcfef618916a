import LoxLexis.Number.Display
import LoxLexis.Token.Kind

/-!
# Tokens

A token is a piece of source text with its kind, the line it ends on, and the value it denotes if
it denotes one.

## Main definitions

* `Literal` — the value of a token: a number or a text
* `Token` — kind, lexeme, literal and line
* `Token.display` — a token on a line of the token dump
* `Token.quotedForm` — a token with all its fields, texts quoted
* `Token.agree` — equality of tokens, with numbers compared as numbers
-/

namespace LoxLexis

/-- The value a token denotes. -/
inductive Literal
  | number (value : Binary64)
  /-- The text between two quotes. -/
  | text (value : Text)
  deriving DecidableEq

namespace Literal

def display : Literal → Text
  | .number value => value.display
  | .text value => value

/-- A literal with texts quoted. -/
def quotedForm : Literal → Text
  | .number value => value.display
  | .text value => Text.quoted value

/-- Equality of literals: numbers as numbers, texts as texts. -/
def agree : Literal → Literal → Bool
  | .number v, .number w => v.numericallyEqual w
  | .text v, .text w => v = w
  | _, _ => false

end Literal

/-- A piece of source text that has a kind. -/
@[ext]
structure Token where
  kind : Kind
  /-- The text as it stands in the source. -/
  lexeme : Text
  /-- The value the text denotes, if it denotes one. -/
  literal : Option Literal
  /-- The line on which the text ends, counted from one. -/
  line : Int
  deriving DecidableEq

namespace Token

/-- The token that closes every completed scan. -/
def endOfFile (line : Int) : Token where
  kind := .endOfFile
  lexeme := []
  literal := none
  line := line

/-- A token as the dump shows it: kind, lexeme and literal between single spaces. -/
def display (t : Token) : Text :=
  t.kind.name ++ ' ' :: t.lexeme ++ ' ' :: t.literal.elim "null".toList Literal.display

/-- A token with all its fields; a missing literal is left out. -/
def quotedForm (t : Token) : Text :=
  "Token(".toList ++ t.kind.name ++ ", ".toList ++ Text.quoted t.lexeme ++
    t.literal.elim [] (fun l => ", ".toList ++ l.quotedForm) ++
    ", ".toList ++ Text.ofInt t.line ++ ")".toList

/-- Equality of tokens: all four fields, with numbers compared as numbers. -/
def agree (a b : Token) : Bool :=
  a.kind = b.kind && a.lexeme = b.lexeme && a.line = b.line &&
    match a.literal, b.literal with
    | none, none => true
    | some l, some m => l.agree m
    | _, _ => false

/-- The answer to an attempt at changing a field of a token, which never succeeds. -/
def refusal (field : Text) : Text := "cannot assign to field ".toList ++ Text.quoted field

end Token

end LoxLexis
