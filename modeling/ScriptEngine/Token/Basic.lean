import ScriptEngine.Number
import ScriptEngine.Source
import ScriptEngine.Text.Quoted

/-!
# Tokens

A token is a lexeme and the position of its first character. A lexeme is a name, a constant or a symbol; the end of the
text is one too, so that it has a position.
-/

namespace ScriptEngine

/-! ## Literals -/

/-- A constant of a program. -/
inductive Literal where
  | int (n : Int64)
  | float (x : Float)
  | bool (b : Bool)
  | str (s : String)
  | null
deriving Repr

/-- How a truth value is spelled. -/
def boolText (b : Bool) : String := if b then "True" else "False"

/-- A literal as it is shown in messages: strings are quoted. -/
def Literal.text : Literal → String
  | .int n => toString n.toInt
  | .float x => Number.floatText x
  | .bool b => boolText b
  | .str s => Text.quote s
  | .null => "None"

/-!
## Symbols

A symbol is a token with one spelling: an operator, a bracket, a separator or a keyword. Keywords are
spelled with letters and are told from names as whole words; all others are punctuation, of which the
longest that fits is read.
-/

/-- The tokens with a fixed spelling. -/
inductive Symbol where
  | plus | minus | star | slash | percent
  | equal | notEqual | greater | less | greaterEqual | lessEqual
  | shiftLeft | shiftRight | andAnd | orOr
  | ampersand | pipe | caret | bang | tilde
  | openParen | closeParen | openBracket | closeBracket | openBrace | closeBrace
  | comma | colon | semicolon | assign
  | kwIf | kwElse | kwWhile | kwLet | kwFn | kwReturn | kwBreak | kwContinue
deriving DecidableEq, Repr

namespace Symbol

/-- The characters of a symbol. -/
def chars : Symbol → List Char
  | plus => ['+'] | minus => ['-'] | star => ['*'] | slash => ['/'] | percent => ['%']
  | equal => ['=', '='] | notEqual => ['!', '='] | greater => ['>'] | less => ['<']
  | greaterEqual => ['>', '='] | lessEqual => ['<', '=']
  | shiftLeft => ['<', '<'] | shiftRight => ['>', '>']
  | andAnd => ['&', '&'] | orOr => ['|', '|']
  | ampersand => ['&'] | pipe => ['|'] | caret => ['^'] | bang => ['!'] | tilde => ['~']
  | openParen => ['('] | closeParen => [')'] | openBracket => ['['] | closeBracket => [']']
  | openBrace => ['\x7b'] | closeBrace => ['\x7d']
  | comma => [','] | colon => [':'] | semicolon => [';'] | assign => ['=']
  | kwIf => ['i', 'f'] | kwElse => ['e', 'l', 's', 'e'] | kwWhile => ['w', 'h', 'i', 'l', 'e']
  | kwLet => ['l', 'e', 't'] | kwFn => ['f', 'n'] | kwReturn => ['r', 'e', 't', 'u', 'r', 'n']
  | kwBreak => ['b', 'r', 'e', 'a', 'k']
  | kwContinue => ['c', 'o', 'n', 't', 'i', 'n', 'u', 'e']

def text (s : Symbol) : String := String.ofList s.chars

/-- The symbols spelled with letters. -/
def keywords : List Symbol :=
  [kwIf, kwElse, kwWhile, kwLet, kwFn, kwReturn, kwBreak, kwContinue]

/-- The other symbols; those of two characters come before the ones that they start with. -/
def punctuation : List Symbol :=
  [equal, notEqual, greaterEqual, lessEqual, shiftLeft, shiftRight, andAnd, orOr,
    assign, greater, less, ampersand, pipe, plus, minus, star, slash, percent, caret, bang, tilde,
    openParen, closeParen, openBracket, closeBracket, openBrace, closeBrace,
    comma, colon, semicolon]

/-- The keyword spelled by a whole word. -/
def keyword? (word : List Char) : Option Symbol :=
  keywords.find? fun s => s.chars == word

/-- The punctuation at the front of a text. -/
def leading? (cs : List Char) : Option Symbol :=
  punctuation.find? fun s => s.chars.isPrefixOf cs

theorem mem_keywords_or_punctuation (s : Symbol) : s ∈ keywords ∨ s ∈ punctuation := by
  cases s <;> decide

theorem chars_length_le_of_leading? {cs : List Char} {s : Symbol} (h : leading? cs = some s) :
    s.chars.length ≤ cs.length := by
  have := List.find?_some h
  exact (List.isPrefixOf_iff_prefix.mp this).length_le

end Symbol

/-! ## Lexemes -/

/-- What a token says. -/
inductive Lexeme where
  | eof
  | name (s : String)
  | constant (l : Literal)
  | symbol (s : Symbol)
deriving Repr

/-- What a grammar rule can ask for: the end, any name, any constant, or one symbol. -/
inductive TokenKind where
  | eof
  | name
  | constant
  | symbol (s : Symbol)
deriving DecidableEq, Repr

/-- A lexeme and where it starts. -/
structure Token where
  lexeme : Lexeme
  position : Position
deriving Repr

/-- How a kind of token is named in messages. -/
def TokenKind.text : TokenKind → String
  | .eof => "EOF"
  | .name => "identifier"
  | .constant => "constant"
  | .symbol s => s.text

namespace Lexeme

def kind : Lexeme → TokenKind
  | .eof => .eof
  | .name _ => .name
  | .constant _ => .constant
  | .symbol s => .symbol s

def text : Lexeme → String
  | .eof => "EOF"
  | .name s => s
  | .constant l => l.text
  | .symbol s => s.text

/-- How many steps of a parser a lexeme is worth: none for the end, two for `>>`, which can be used
in two halves, and one for every other. -/
def weight : Lexeme → Nat
  | .eof => 0
  | .symbol .shiftRight => 2
  | _ => 1

theorem eq_eof_of_kind {l : Lexeme} (h : l.kind = .eof) : l = .eof := by
  cases l with
  | eof => rfl
  | name s => cases h
  | constant c => cases h
  | symbol s => cases h

/-- Only the end weighs nothing. -/
theorem weight_pos {l : Lexeme} (h : l.kind ≠ .eof) : 0 < l.weight := by
  unfold weight
  split <;> simp_all [kind]

/-- A symbol weighs no more than it has characters. -/
theorem weight_symbol_le (s : Symbol) : (Lexeme.symbol s).weight ≤ s.chars.length := by
  cases s <;> decide

end Lexeme

namespace Token

def kind (t : Token) : TokenKind := t.lexeme.kind

def text (t : Token) : String := t.lexeme.text

end Token

end ScriptEngine
