import LoxLexis.Text.Quoted

/-!
# Kinds of tokens

Each token has one of twenty-two kinds.  A kind has a name and a place in the list, and can be
looked up by both;
most kinds are told by one character, or by one character and a following equals sign.

## Main definitions

* `Kind` — the kinds of tokens
* `Kind.name`, `Kind.position` — how a kind is written and counted
* `Kind.ofName`, `Kind.ofPosition` — the kind with a name or place
* `Kind.single?` — the kind of a character that is always a token by itself
* `Kind.operator?` — the kinds of an operator without and with an equals sign after it
-/

namespace LoxLexis

/-- The kinds of tokens, in the order of their places. -/
inductive Kind
  | leftParen | rightParen | leftBrace | rightBrace
  | comma | dot | minus | plus | semicolon | star | slash
  | bang | bangEqual | equal | equalEqual | less | lessEqual | greater | greaterEqual
  | string | number
  | endOfFile
  deriving DecidableEq

namespace Kind

/-- All kinds in order. -/
def all : List Kind :=
  [leftParen, rightParen, leftBrace, rightBrace, comma, dot, minus, plus, semicolon, star, slash,
    bang, bangEqual, equal, equalEqual, less, lessEqual, greater, greaterEqual,
    string, number, endOfFile]

def name (k : Kind) : Text :=
  String.toList <|
    match k with
    | leftParen => "LEFT_PAREN"
    | rightParen => "RIGHT_PAREN"
    | leftBrace => "LEFT_BRACE"
    | rightBrace => "RIGHT_BRACE"
    | comma => "COMMA"
    | dot => "DOT"
    | minus => "MINUS"
    | plus => "PLUS"
    | semicolon => "SEMICOLON"
    | star => "STAR"
    | slash => "SLASH"
    | bang => "BANG"
    | bangEqual => "BANG_EQUAL"
    | equal => "EQUAL"
    | equalEqual => "EQUAL_EQUAL"
    | less => "LESS"
    | lessEqual => "LESS_EQUAL"
    | greater => "GREATER"
    | greaterEqual => "GREATER_EQUAL"
    | string => "STRING"
    | number => "NUMBER"
    | endOfFile => "EOF"

/-- The place of a kind among all kinds, counted from one. -/
def position (k : Kind) : Nat := all.idxOf k + 1

/-- Why a look-up finds no kind. -/
inductive Unknown
  | name (name : Text)
  | position (position : Int)
  deriving DecidableEq

def Unknown.message : Unknown → Text
  | .name t => Text.quoted t
  | .position n => Text.ofInt n ++ " is not a valid TokenType".toList

/-- The kind with a name. -/
def ofName (name : Text) : Except Unknown Kind :=
  (all.find? fun k => k.name = name).elim (.error (.name name)) .ok

/-- The kind at a place. -/
def ofPosition (n : Int) : Except Unknown Kind :=
  (all.find? fun k => (k.position : Int) = n).elim (.error (.position n)) .ok

/-- The kind of a character that is always a token by itself. -/
def single? : Char → Option Kind
  | '(' => some leftParen
  | ')' => some rightParen
  | '\x7b' => some leftBrace
  | '\x7d' => some rightBrace
  | ',' => some comma
  | '.' => some dot
  | '-' => some minus
  | '+' => some plus
  | ';' => some semicolon
  | '*' => some star
  | _ => none

/-- The kinds of an operator character by itself and of the operator it forms with an equals sign
directly after it. -/
def operator? : Char → Option (Kind × Kind)
  | '!' => some (bang, bangEqual)
  | '=' => some (equal, equalEqual)
  | '<' => some (less, lessEqual)
  | '>' => some (greater, greaterEqual)
  | _ => none

end Kind

end LoxLexis
