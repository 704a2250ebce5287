import ScriptEngine.Parser.Rules
import ScriptEngine.Proofs.Syntax.Folding
import ScriptEngine.Syntax.Stmt

/-!
# The grammar

The productions of the language as relations between a sequence of lexemes and the tree that it makes.
They say nothing about the order of reading, about lookahead or about positions.
-/

namespace ScriptEngine.Grammar

/-! ## Types -/

mutual

/-- Types: `name ( < ( type ( , type )* )? > )? ( [ ] )*`. -/
inductive IsType : List Lexeme → Ty → Prop where
  | plain (n : String) : IsType [.name n] (.basic n)
  | empty (n : String) :
      IsType [.name n, .symbol .less, .symbol .greater] (.template n [])
  | applied (n : String) {ls : List Lexeme} {ts : List Ty} : IsTypes ls ts →
      IsType (.name n :: .symbol .less :: (ls ++ [.symbol .greater])) (.template n ts)
  | list {ls : List Lexeme} {t : Ty} : IsType ls t →
      IsType (ls ++ [.symbol .openBracket, .symbol .closeBracket]) (.list t)

/-- The arguments of a type: `type ( , type )*`. -/
inductive IsTypes : List Lexeme → List Ty → Prop where
  | last {ls : List Lexeme} {t : Ty} : IsType ls t → IsTypes ls [t]
  | more {ls ms : List Lexeme} {t : Ty} {ts : List Ty} : IsType ls t → IsTypes ms ts →
      IsTypes (ls ++ .symbol .comma :: ms) (t :: ts)

end

/-- What the lexemes of a type may be taken for: a `>>` may stand for two `>`, which then close two
argument lists, as nothing else in a type has a `>`. -/
inductive Reading : List Lexeme → List Lexeme → Prop where
  | nil : Reading [] []
  | same (l : Lexeme) {ls ms : List Lexeme} : Reading ls ms → Reading (l :: ls) (l :: ms)
  | halves {ls ms : List Lexeme} : Reading ls ms →
      Reading (.symbol .shiftRight :: ls) (.symbol .greater :: .symbol .greater :: ms)

/-! ## Expressions -/

mutual

/-- Expressions: `factor ( binary-operator factor )*`, folded by priority. -/
inductive IsExpr : List Lexeme → Expr → Prop where
  | chain {ls ms : List Lexeme} {first e : Expr} {chain : List (BinaryOp × Expr)} :
      IsFactor ls first → IsChain ms chain → Folds first chain e → IsExpr (ls ++ ms) e

/-- The rest of an expression: `( binary-operator factor )*`. -/
inductive IsChain : List Lexeme → List (BinaryOp × Expr) → Prop where
  | nil : IsChain [] []
  | cons (op : BinaryOp) {ls ms : List Lexeme} {e : Expr} {chain : List (BinaryOp × Expr)} :
      IsFactor ls e → IsChain ms chain →
      IsChain (.symbol op.symbol :: (ls ++ ms)) ((op, e) :: chain)

/-- Factors: `prefix-operator factor | primary`. -/
inductive IsFactor : List Lexeme → Expr → Prop where
  | unary (op : UnaryOp) {ls : List Lexeme} {e : Expr} : IsFactor ls e →
      IsFactor (.symbol op.symbol :: ls) (.unary op e)
  | primary {ls : List Lexeme} {e : Expr} : IsPrimary ls e → IsFactor ls e

/-- Atoms with their indices: `( constant | name | ( expr ) ) ( [ expr ] )*`. -/
inductive IsPrimary : List Lexeme → Expr → Prop where
  | constant (l : Literal) : IsPrimary [.constant l] (.constant l)
  | var (n : String) : IsPrimary [.name n] (.var n)
  | group {ls : List Lexeme} {e : Expr} : IsExpr ls e →
      IsPrimary (.symbol .openParen :: (ls ++ [.symbol .closeParen])) e
  | index {ls ms : List Lexeme} {e i : Expr} : IsPrimary ls e → IsExpr ms i →
      IsPrimary (ls ++ .symbol .openBracket :: (ms ++ [.symbol .closeBracket])) (.index e i)

end

/-! ## Statements -/

/-- One name of a `let`: `name : type ( = expr )?`, where a `>>` in the type may close two argument
lists. -/
inductive IsDecl : List Lexeme → Decl → Prop where
  | plain (n : String) {ls ks : List Lexeme} {t : Ty} : Reading ls ks → IsType ks t →
      IsDecl (.name n :: .symbol .colon :: ls) ⟨n, t, none⟩
  | init (n : String) {ls ks ms : List Lexeme} {t : Ty} {e : Expr} :
      Reading ls ks → IsType ks t → IsExpr ms e →
      IsDecl (.name n :: .symbol .colon :: (ls ++ .symbol .assign :: ms)) ⟨n, t, some e⟩

/-- The names of a `let`: `decl ( , decl )*`. -/
inductive IsDecls : List Lexeme → List Decl → Prop where
  | last {ls : List Lexeme} {d : Decl} : IsDecl ls d → IsDecls ls [d]
  | more {ls ms : List Lexeme} {d : Decl} {ds : List Decl} : IsDecl ls d → IsDecls ms ds →
      IsDecls (ls ++ .symbol .comma :: ms) (d :: ds)

mutual

inductive IsStmt : List Lexeme → Stmt → Prop where
  | noop : IsStmt [.symbol .semicolon] .noop
  | block {ls : List Lexeme} {body : List Stmt} : IsBlock ls body → IsStmt ls (.block body)
  | declare {ls : List Lexeme} {ds : List Decl} : IsDecls ls ds →
      IsStmt (.symbol .kwLet :: (ls ++ [.symbol .semicolon])) (.declare ds)
  | branch {ls : List Lexeme} {branches : Branches} : IsBranches ls branches →
      IsStmt (.symbol .kwIf :: ls) (.branch branches)
  | loop {ls ms : List Lexeme} {e : Expr} {body : List Stmt} : IsExpr ls e → IsBlock ms body →
      IsStmt (.symbol .kwWhile :: (ls ++ ms)) (.loop e body)
  | ret : IsStmt [.symbol .kwReturn, .symbol .semicolon] (.ret none)
  | retValue {ls : List Lexeme} {e : Expr} : IsExpr ls e →
      IsStmt (.symbol .kwReturn :: (ls ++ [.symbol .semicolon])) (.ret (some e))
  | break : IsStmt [.symbol .kwBreak, .symbol .semicolon] .break
  | continue : IsStmt [.symbol .kwContinue, .symbol .semicolon] .continue
  | expr {ls : List Lexeme} {e : Expr} : IsExpr ls e → IsStmt (ls ++ [.symbol .semicolon]) (.expr e)
  | assign {ls ms : List Lexeme} {e v : Expr} : IsExpr ls e → IsExpr ms v →
      IsStmt (ls ++ .symbol .assign :: (ms ++ [.symbol .semicolon])) (.assign e v)

/-- What stands after an `if`: `expr block ( else if expr block )* ( else block )?` -/
inductive IsBranches : List Lexeme → Branches → Prop where
  | last {ls ms : List Lexeme} {e : Expr} {body : List Stmt} : IsExpr ls e → IsBlock ms body →
      IsBranches (ls ++ ms) (.arm e body (.otherwise []))
  | otherwise {ls ms ns : List Lexeme} {e : Expr} {body rest : List Stmt} :
      IsExpr ls e → IsBlock ms body → IsBlock ns rest →
      IsBranches (ls ++ (ms ++ .symbol .kwElse :: ns)) (.arm e body (.otherwise rest))
  | elseIf {ls ms ns : List Lexeme} {e : Expr} {body : List Stmt} {rest : Branches} :
      IsExpr ls e → IsBlock ms body → IsBranches ns rest →
      IsBranches (ls ++ (ms ++ .symbol .kwElse :: .symbol .kwIf :: ns)) (.arm e body rest)

/-- Statements in braces. -/
inductive IsBlock : List Lexeme → List Stmt → Prop where
  | braces {ls : List Lexeme} {body : List Stmt} : IsStmts ls body →
      IsBlock (.symbol .openBrace :: (ls ++ [.symbol .closeBrace])) body

inductive IsStmts : List Lexeme → List Stmt → Prop where
  | nil : IsStmts [] []
  | cons {ls ms : List Lexeme} {s : Stmt} {rest : List Stmt} : IsStmt ls s → IsStmts ms rest →
      IsStmts (ls ++ ms) (s :: rest)

end

/-- Programs: statements and then the end. -/
inductive IsProgram : List Lexeme → List Stmt → Prop where
  | toEnd {ls : List Lexeme} {body : List Stmt} : IsStmts ls body → IsProgram (ls ++ [.eof]) body

end ScriptEngine.Grammar
