import ScriptEngine.Parser.Basic
import ScriptEngine.Syntax.Stmt

/-!
# The rules of the grammar

Each rule reads what it names from the front of the tokens. The token ahead decides which form of it is read.
-/

namespace ScriptEngine

variable [Alphabet]

/-!
## Where constructs start and go on

For each kind of token: which constructs it can start, which it can continue, and with what priority.
-/

namespace TokenKind

/-- The kinds that start a statement of a form of its own. -/
def startsStmt : TokenKind → Bool
  | .symbol s =>
    s ∈ [Symbol.semicolon, .openBrace, .kwLet, .kwIf, .kwWhile, .kwReturn, .kwBreak, .kwContinue]
  | _ => false

def startsFactor : TokenKind → Bool
  | .name | .constant => true
  | .symbol s => s = .openParen || (UnaryOp.ofSymbol? s).isSome
  | .eof => false

def continuesFactor (k : TokenKind) : Bool := k == .symbol .openBracket

def binaryOp? : TokenKind → Option BinaryOp
  | .symbol s => BinaryOp.ofSymbol? s
  | _ => none

/-- How tightly a kind binds to the expression before it. -/
def priority? (k : TokenKind) : Option Priority :=
  if k.continuesFactor then some .index else k.binaryOp?.map BinaryOp.priority

end TokenKind

/-!
## Reading types

    type ::= name ( `<` ( type ( `,` type )* )? `>` )? ( `[` `]` )*

Each pair of brackets makes a list of what stands before it. A `>>` closes two argument lists: the
inner one takes its first half.
-/

namespace Parser

open Outcome

/-- Whether the token ahead closes an argument list. -/
def closesArguments (p : Parser) : Bool := p.sees .greater || p.sees .shiftRight

/-- Closes an argument list with `>`, or with the first half of `>>`. -/
def closeArguments (p : Parser) : Outcome Unit p true :=
  if h : p.sees .shiftRight then .ok () p.splitShift (size_splitShift_lt h)
  else (p.require .greater).map fun _ => ()

/-- Pairs of brackets after the type `t`. -/
def listSuffixes (t : Ty) (p : Parser) : Outcome Ty p false :=
  if p.sees .openBracket then relax <|
    (p.require .openBracket).andThen fun _ q _ =>
    (q.require .closeBracket).andThen fun _ r _ =>
    listSuffixes (.list t) r
  else done t p
termination_by p.size

mutual

/-- A type. Pairs of brackets after it belong to it unless `bp` binds as tightly as they do. -/
def type (bp : Priority) (p : Parser) : Outcome Ty p true :=
  (typeName p).andThen fun t q _ =>
  if bp < .index then listSuffixes t q else done t q
termination_by 2 * p.size + 1

/-- A type name with its arguments, if it has any. -/
def typeName (p : Parser) : Outcome Ty p true :=
  (p.takeName p.unexpected).andThen fun n q _ =>
  if q.sees .less then relax <|
    (q.require .less).andThen fun _ r _ =>
    if r.closesArguments then r.closeArguments.map fun _ => .template n []
    else
      (typeArguments r).andThen fun ts s _ =>
      s.closeArguments.map fun _ => .template n ts
  else done (.basic n) q
termination_by 2 * p.size

/-- One or more types with commas between them. -/
def typeArguments (p : Parser) : Outcome (List Ty) p true :=
  (type .default p).andThen fun t q _ =>
  if q.sees .comma then relax <|
    (q.require .comma).andThen fun _ r _ =>
    (typeArguments r).map fun ts => t :: ts
  else done [t] q
termination_by 2 * p.size + 2

end

/-!
## Reading expressions

    expr   ::= factor ( binary-operator factor )*
    factor ::= prefix-operator factor | atom ( `[` expr `]` )*
    atom   ::= constant | name | `(` expr `)`

A chain of factors is folded by the priorities of its operators. A prefix operator applies to a whole
factor with its indices.
-/

open Outcome

/-- The binary operator ahead, if it binds tighter than `bp`. -/
def operator? (bp : Priority) (p : Parser) : Option BinaryOp :=
  match p.current.lexeme with
  | .symbol s => (BinaryOp.ofSymbol? s).filter fun op => decide (bp < op.priority)
  | _ => none

mutual

/-- An expression whose operators all bind tighter than `bp`. -/
def expr (bp : Priority) (p : Parser) : Outcome Expr p true :=
  (factor p).andThen fun first q _ =>
  (chain bp q).map fun rest => (Spine.ofChain first rest).toExpr
termination_by 2 * p.size + 1

/-- Operators that bind tighter than `bp`, each with the factor after it. -/
def chain (bp : Priority) (p : Parser) : Outcome (List (BinaryOp × Expr)) p false :=
  match p.operator? bp with
  | some op => relax <|
    p.take.andThen fun _ q _ =>
    (factor q).andThen fun e r _ =>
    (chain bp r).map fun rest => (op, e) :: rest
  | none => done [] p
termination_by 2 * p.size

def factor (p : Parser) : Outcome Expr p true :=
  match p.current.lexeme with
  | .constant l => p.take.andThen fun _ q _ => suffixes (.constant l) q
  | .name n => p.take.andThen fun _ q _ => suffixes (.var n) q
  | .symbol s =>
    match UnaryOp.ofSymbol? s with
    | some op => p.take.andThen fun _ q _ => (factor q).map fun e => .unary op e
    | none =>
      if s = .openParen then
        p.take.andThen fun _ q _ =>
        (expr .default q).andThen fun e r _ =>
        (r.require .closeParen).andThen fun _ s _ =>
        suffixes e s
      else fail p.unexpected p
  | .eof => fail p.unexpected p
termination_by 2 * p.size

/-- Indices in brackets after the expression `e`. -/
def suffixes (e : Expr) (p : Parser) : Outcome Expr p false :=
  if p.sees .openBracket then relax <|
    (p.require .openBracket).andThen fun _ q _ =>
    (expr .default q).andThen fun i r _ =>
    (r.require .closeBracket).andThen fun _ s _ =>
    suffixes (.index e i) s
  else done e p
termination_by 2 * p.size

end

/-!
## Reading statements

    stmt  ::= `;` | block
            | `let` decl ( `,` decl )* `;`
            | `if` expr block ( `else` `if` expr block )* ( `else` block )?
            | `while` expr block
            | `return` expr? `;` | `break` `;` | `continue` `;`
            | expr ( `=` expr )? `;`
    block ::= `{` stmt* `}`
    decl  ::= name `:` type ( `=` expr )?

Except for the last form, the first token tells which one it is.
-/

open Outcome

def decl (p : Parser) : Outcome Decl p true :=
  (p.takeName (p.expected "identifier during variable declaration")).andThen fun n q _ =>
  (q.require .colon).andThen fun _ r _ =>
  (r.type .default).andThen fun t s _ =>
  if s.sees .assign then relax <|
    (s.require .assign).andThen fun _ u _ =>
    (u.expr .default).map fun e => ⟨n, t, some e⟩
  else done ⟨n, t, none⟩ s

/-- One or more names of a `let` with commas between them. -/
def decls (p : Parser) : Outcome (List Decl) p true :=
  p.decl.andThen fun d q _ =>
  if q.sees .comma then relax <|
    (q.require .comma).andThen fun _ r _ =>
    (decls r).map fun ds => d :: ds
  else done [d] q
termination_by p.size

def letStmt (p : Parser) : Outcome Stmt p true :=
  (p.require .kwLet).andThen fun _ q _ =>
  q.decls.andThen fun ds r _ =>
  (r.require .semicolon).map fun _ => .declare ds

def returnStmt (p : Parser) : Outcome Stmt p true :=
  (p.require .kwReturn).andThen fun _ q _ =>
  if q.sees .semicolon then (q.require .semicolon).map fun _ => .ret none
  else
    (q.expr .default).andThen fun e r _ =>
    (r.require .semicolon).map fun _ => .ret (some e)

/-- A keyword and a semicolon, which make the statement `s`. -/
def keywordStmt (keyword : Symbol) (s : Stmt) (p : Parser) : Outcome Stmt p true :=
  (p.require keyword).andThen fun _ q _ =>
  (q.require .semicolon).map fun _ => s

/-- An expression or an assignment. -/
def simpleStmt (p : Parser) : Outcome Stmt p true :=
  (p.expr .default).andThen fun e q _ =>
  if q.sees .assign then
    (q.require .assign).andThen fun _ r _ =>
    (r.expr .default).andThen fun v s _ =>
    (s.require .semicolon).map fun _ => .assign e v
  else (q.require .semicolon).map fun _ => .expr e

mutual

def stmt (p : Parser) : Outcome Stmt p true :=
  match p.current.lexeme with
  | .symbol .semicolon => (p.require .semicolon).map fun _ => .noop
  | .symbol .openBrace => (block p).map fun body => .block body
  | .symbol .kwLet => p.letStmt
  | .symbol .kwIf =>
    (p.require .kwIf).andThen fun _ q _ =>
    (arm q).map fun branches => .branch branches
  | .symbol .kwWhile =>
    (p.require .kwWhile).andThen fun _ q _ =>
    (q.expr .default).andThen fun e r _ =>
    (block r).map fun body => .loop e body
  | .symbol .kwReturn => p.returnStmt
  | .symbol .kwBreak => p.keywordStmt .kwBreak .break
  | .symbol .kwContinue => p.keywordStmt .kwContinue .continue
  | _ => p.simpleStmt
termination_by 3 * p.size + 1

/-- The condition and body of an `if`, and all that follows it. -/
def arm (p : Parser) : Outcome Branches p true :=
  (p.expr .default).andThen fun e q _ =>
  (block q).andThen fun body r _ =>
  (elses r).map fun rest => .arm e body rest
termination_by 3 * p.size

/-- What may follow the body of an `if`. -/
def elses (p : Parser) : Outcome Branches p false :=
  if p.sees .kwElse then relax <|
    (p.require .kwElse).andThen fun _ q _ =>
    if q.sees .kwIf then (q.require .kwIf).andThen fun _ r _ => arm r
    else (block q).map fun body => .otherwise body
  else done (.otherwise []) p
termination_by 3 * p.size

def block (p : Parser) : Outcome (List Stmt) p true :=
  (p.require .openBrace).andThen fun _ q _ =>
  (stmts q).andThen fun body r _ =>
  (r.require .closeBrace).map fun _ => body
termination_by 3 * p.size

/-- Statements up to a closing brace, which has to come before the end of the text. -/
def stmts (p : Parser) : Outcome (List Stmt) p false :=
  if p.sees .closeBrace then done [] p
  else if p.hasTokens then relax <|
    (stmt p).andThen fun s q _ =>
    (stmts q).map fun rest => s :: rest
  else fail p.unexpected p
termination_by 3 * p.size + 2

end

/-- Statements up to the end of the text. -/
def stmtsToEnd (p : Parser) : Outcome (List Stmt) p false :=
  if p.hasTokens then relax <|
    p.stmt.andThen fun s q _ =>
    (stmtsToEnd q).map fun rest => s :: rest
  else done [] p
termination_by p.size

end Parser

/-!
## Reading programs

A program is read to the end of its text, and so is an expression that stands by itself. The rules of
the grammar can also be applied one at a time to a parser, which keeps its place after an error.
-/

namespace Parser

def readType (bp : Priority) : EStateM Error Parser Ty := fun p => (p.type bp).result

def readExpr (bp : Priority) : EStateM Error Parser Expr := fun p => (p.expr bp).result

def readFactor : EStateM Error Parser Expr := fun p => p.factor.result

def readStmt : EStateM Error Parser Stmt := fun p => p.stmt.result

def readBlock : EStateM Error Parser (List Stmt) := fun p => p.block.result

def readProgram : EStateM Error Parser (List Stmt) := fun p => p.stmtsToEnd.result

/-- Runs a rule of the grammar from the start of a text. -/
def onText {α : Type} (rule : EStateM Error Parser α) (source : String) : Except Error α :=
  match ofText source with
  | .error e => .error e
  | .ok p =>
    match rule p with
    | .ok a _ => .ok a
    | .error e _ => .error e

/-- Reads an expression and then the end. -/
def readWholeExpr : EStateM Error Parser Expr := fun p =>
  match readExpr .default p with
  | .ok e q => if q.hasTokens then .error q.unexpected q else .ok e q
  | .error e q => .error e q

end Parser

/-- The statements of a program. -/
def parse (source : String) : Except Error (List Stmt) := Parser.onText Parser.readProgram source

/-- The expression that a text consists of. -/
def parseExpr (source : String) : Except Error Expr := Parser.onText Parser.readWholeExpr source

end ScriptEngine
