import ScriptEngine.Parser.Rules

/-!
# Rules with a record of what they do

A rule of the grammar takes tokens and applies rules; a loop is a rule that applies itself. Here the rules are written
down once more, so that what each of them takes and applies is recorded on the way, also when it fails. They take the
token ahead without looking whether it is the end.
-/

namespace ScriptEngine.Parser

open Outcome

variable [Alphabet]

/-- The rules of the grammar. -/
inductive Rule where
  | type (bp : Priority)
  | typeName
  | typeArguments
  | listSuffixes (t : Ty)
  | expr (bp : Priority)
  | chain (bp : Priority)
  | factor
  | suffixes (e : Expr)
  | decl
  | decls
  | letStmt
  | returnStmt
  | keywordStmt (keyword : Symbol) (s : Stmt)
  | simpleStmt
  | stmt
  | arm
  | elses
  | block
  | stmts
  | stmtsToEnd

namespace Rule

/-- What a rule reads. -/
abbrev Value : Rule → Type
  | .type _ | .typeName | .listSuffixes _ => Ty
  | .typeArguments => List Ty
  | .expr _ | .factor | .suffixes _ => Expr
  | .chain _ => List (BinaryOp × Expr)
  | .decl => Decl
  | .decls => List Decl
  | .letStmt | .returnStmt | .keywordStmt _ _ | .simpleStmt | .stmt => Stmt
  | .arm | .elses => Branches
  | .block | .stmts | .stmtsToEnd => List Stmt

/-- Whether a rule has read something when it yields a value. -/
def reads : Rule → Bool
  | .listSuffixes _ | .chain _ | .suffixes _ | .elses | .stmts | .stmtsToEnd => false
  | _ => true

def outcome : (r : Rule) → (p : Parser) → Outcome r.Value p r.reads
  | .type bp, p => p.type bp
  | .typeName, p => p.typeName
  | .typeArguments, p => p.typeArguments
  | .listSuffixes t, p => p.listSuffixes t
  | .expr bp, p => p.expr bp
  | .chain bp, p => p.chain bp
  | .factor, p => p.factor
  | .suffixes e, p => p.suffixes e
  | .decl, p => p.decl
  | .decls, p => p.decls
  | .letStmt, p => p.letStmt
  | .returnStmt, p => p.returnStmt
  | .keywordStmt keyword s, p => p.keywordStmt keyword s
  | .simpleStmt, p => p.simpleStmt
  | .stmt, p => p.stmt
  | .arm, p => p.arm
  | .elses, p => p.elses
  | .block, p => p.block
  | .stmts, p => p.stmts
  | .stmtsToEnd, p => p.stmtsToEnd

def run (r : Rule) : EStateM Error Parser r.Value := fun p => (r.outcome p).result

/-- As long as it has read nothing, a rule applies only rules of lower rank. -/
@[simp] def rank : Rule → Nat
  | .stmts | .stmtsToEnd => 4
  | .stmt => 3
  | .typeArguments | .simpleStmt | .arm => 2
  | .type _ | .expr _ | .decls => 1
  | _ => 0

end Rule

/-- What is recorded: the token ahead of a parser is taken, or a rule is applied to a parser. -/
inductive Event where
  | takes (p : Parser)
  | applies (r : Rule) (p : Parser)

/-- What was done, and what came of it. -/
structure Course (α : Type) where
  events : List Event
  result : EStateM.Result Error Parser α

/-- A part of a rule, recorded from the parser on to which it is applied. -/
def Recorded (α : Type) : Type := Parser → Course α

namespace Recorded

variable {α β : Type}

protected def pure (a : α) : Recorded α := fun p => ⟨[], .ok a p⟩

protected def bind (x : Recorded α) (f : α → Recorded β) : Recorded β := fun p =>
  match (x p).result with
  | .ok a q => ⟨(x p).events ++ (f a q).events, (f a q).result⟩
  | .error e q => ⟨(x p).events, .error e q⟩

instance : Monad Recorded where
  pure := Recorded.pure
  bind := Recorded.bind

def ahead : Recorded Parser := fun p => ⟨[], .ok p p⟩

def fail (e : Error) : Recorded α := fun p => ⟨[], .error e p⟩

/-- Takes the token ahead, be it the end. -/
def take : Recorded Token := fun p => ⟨[.takes p], advance p⟩

/-- Uses the first half of a `>>`, which is not taken by that. -/
def halve : Recorded Unit := fun p => ⟨[], .ok () p.splitShift⟩

def apply (r : Rule) : Recorded r.Value := fun p => ⟨[.applies r p], r.run p⟩

def require (s : Symbol) : Recorded Token := do
  let p ← ahead
  if p.sees s then take else fail (p.expected s.text)

def takeName (e : Error) : Recorded String := do
  let p ← ahead
  match p.current.lexeme with
  | .name n => (fun _ => n) <$> take
  | _ => fail e

def closeArguments : Recorded Unit := do
  let p ← ahead
  if p.sees .shiftRight then halve else (fun _ => ()) <$> require .greater

/-- The rules. Where one applies another, the record says so, and what comes of it is what the other rule reads. -/
def ofRule : (r : Rule) → Recorded r.Value
  | .type bp => do
    let t ← apply .typeName
    if bp < .index then apply (.listSuffixes t) else pure t
  | .typeName => do
    let p ← ahead
    let n ← takeName p.unexpected
    let p ← ahead
    if p.sees .less then
      let _ ← require .less
      let p ← ahead
      if p.closesArguments then (fun _ => .template n []) <$> closeArguments
      else
        let ts ← apply .typeArguments
        (fun _ => .template n ts) <$> closeArguments
    else pure (.basic n)
  | .typeArguments => do
    let t ← apply (.type .default)
    let p ← ahead
    if p.sees .comma then
      let _ ← require .comma
      (fun ts => t :: ts) <$> apply .typeArguments
    else pure [t]
  | .listSuffixes t => do
    let p ← ahead
    if p.sees .openBracket then
      let _ ← require .openBracket
      let _ ← require .closeBracket
      apply (.listSuffixes (.list t))
    else pure t
  | .expr bp => do
    let first ← apply .factor
    (fun rest => (Spine.ofChain first rest).toExpr) <$> apply (.chain bp)
  | .chain bp => do
    let p ← ahead
    match p.operator? bp with
    | some op =>
      let _ ← take
      let e ← apply .factor
      (fun rest => (op, e) :: rest) <$> apply (.chain bp)
    | none => pure []
  | .factor => do
    let p ← ahead
    match p.current.lexeme with
    | .constant l =>
      let _ ← take
      apply (.suffixes (.constant l))
    | .name n =>
      let _ ← take
      apply (.suffixes (.var n))
    | .symbol s =>
      match UnaryOp.ofSymbol? s with
      | some op =>
        let _ ← take
        (fun e => .unary op e) <$> apply .factor
      | none =>
        if s = .openParen then
          let _ ← take
          let e ← apply (.expr .default)
          let _ ← require .closeParen
          apply (.suffixes e)
        else fail p.unexpected
    | .eof => fail p.unexpected
  | .suffixes e => do
    let p ← ahead
    if p.sees .openBracket then
      let _ ← require .openBracket
      let i ← apply (.expr .default)
      let _ ← require .closeBracket
      apply (.suffixes (.index e i))
    else pure e
  | .decl => do
    let p ← ahead
    let n ← takeName (p.expected "identifier during variable declaration")
    let _ ← require .colon
    let t ← apply (.type .default)
    let p ← ahead
    if p.sees .assign then
      let _ ← require .assign
      (fun e => ⟨n, t, some e⟩) <$> apply (.expr .default)
    else pure ⟨n, t, none⟩
  | .decls => do
    let d ← apply .decl
    let p ← ahead
    if p.sees .comma then
      let _ ← require .comma
      (fun ds => d :: ds) <$> apply .decls
    else pure [d]
  | .letStmt => do
    let _ ← require .kwLet
    let ds ← apply .decls
    (fun _ => .declare ds) <$> require .semicolon
  | .returnStmt => do
    let _ ← require .kwReturn
    let p ← ahead
    if p.sees .semicolon then (fun _ => .ret none) <$> require .semicolon
    else
      let e ← apply (.expr .default)
      (fun _ => .ret (some e)) <$> require .semicolon
  | .keywordStmt keyword s => do
    let _ ← require keyword
    (fun _ => s) <$> require .semicolon
  | .simpleStmt => do
    let e ← apply (.expr .default)
    let p ← ahead
    if p.sees .assign then
      let _ ← require .assign
      let v ← apply (.expr .default)
      (fun _ => .assign e v) <$> require .semicolon
    else (fun _ => .expr e) <$> require .semicolon
  | .stmt => do
    let p ← ahead
    match p.current.lexeme with
    | .symbol .semicolon => (fun _ => .noop) <$> require .semicolon
    | .symbol .openBrace => (fun body => .block body) <$> apply .block
    | .symbol .kwLet => apply .letStmt
    | .symbol .kwIf =>
      let _ ← require .kwIf
      (fun branches => .branch branches) <$> apply .arm
    | .symbol .kwWhile =>
      let _ ← require .kwWhile
      let e ← apply (.expr .default)
      (fun body => .loop e body) <$> apply .block
    | .symbol .kwReturn => apply .returnStmt
    | .symbol .kwBreak => apply (.keywordStmt .kwBreak .break)
    | .symbol .kwContinue => apply (.keywordStmt .kwContinue .continue)
    | _ => apply .simpleStmt
  | .arm => do
    let e ← apply (.expr .default)
    let body ← apply .block
    (fun rest => .arm e body rest) <$> apply .elses
  | .elses => do
    let p ← ahead
    if p.sees .kwElse then
      let _ ← require .kwElse
      let p ← ahead
      if p.sees .kwIf then
        let _ ← require .kwIf
        apply .arm
      else (fun body => .otherwise body) <$> apply .block
    else pure (.otherwise [])
  | .block => do
    let _ ← require .openBrace
    let body ← apply .stmts
    (fun _ => body) <$> require .closeBrace
  | .stmts => do
    let p ← ahead
    if p.sees .closeBrace then pure []
    else if p.hasTokens then
      let s ← apply .stmt
      (fun rest => s :: rest) <$> apply .stmts
    else fail p.unexpected
  | .stmtsToEnd => do
    let p ← ahead
    if p.hasTokens then
      let s ← apply .stmt
      (fun rest => s :: rest) <$> apply .stmtsToEnd
    else pure []

end Recorded

end ScriptEngine.Parser
