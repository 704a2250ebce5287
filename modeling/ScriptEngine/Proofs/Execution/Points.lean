import ScriptEngine.Execution
import ScriptEngine.Typing

/-!
# The points of a run

A point of a run is an expression that is evaluated on the way, with the store and the scope that it is
evaluated in. Beside them stands the type scope that the check looks the expression up in: the check
passes each point once, the run may pass it never, or once in every round of a loop.
-/

namespace ScriptEngine

/-- An expression that is evaluated, where it is evaluated and where it is checked. -/
structure Point where
  expr : Expr
  store : Store
  scope : ScopeId
  types : TypeScopes
  typeScope : ScopeId

/-- Whether the right operand of an operator is evaluated after the left one gave `v`. -/
def needsRight (op : BinaryOp) (v : Value) (σ : Store) : Prop :=
  (op = .and → σ.isTruthy v = true) ∧ (op = .or → σ.isTruthy v = false)

/-- The points that the evaluation of an expression passes. -/
inductive ExprPasses (p : Point) (G : TypeScopes) (j i : ScopeId) : Expr → Store → Prop where
  | here {e : Expr} {σ : Store} : p = ⟨e, σ, i, G, j⟩ → ExprPasses p G j i e σ
  | operand {op : UnaryOp} {e : Expr} {σ : Store} : ExprPasses p G j i e σ →
      ExprPasses p G j i (.unary op e) σ
  | left {op : BinaryOp} {l r : Expr} {σ : Store} : ExprPasses p G j i l σ →
      ExprPasses p G j i (.binary op l r) σ
  | right {op : BinaryOp} {l r : Expr} {v : Value} {σ σ₁ : Store} : eval i l σ = .ok v σ₁ →
      needsRight op v σ₁ → ExprPasses p G j i r σ₁ → ExprPasses p G j i (.binary op l r) σ
  | base {b k : Expr} {σ : Store} : ExprPasses p G j i b σ → ExprPasses p G j i (.index b k) σ
  | index {b k : Expr} {v : Value} {σ σ₁ : Store} : eval i b σ = .ok v σ₁ → ExprPasses p G j i k σ₁ →
      ExprPasses p G j i (.index b k) σ

inductive DeclsPass (p : Point) (j i : ScopeId) : List Decl → TypeScopes → Store → Prop where
  | here {d : Decl} {ds : List Decl} {e : Expr} {G : TypeScopes} {σ : Store} : d.value = some e →
      ExprPasses p G j i e σ → DeclsPass p j i (d :: ds) G σ
  | next {d : Decl} {ds : List Decl} {v : Value} {G : TypeScopes} {σ σ₁ : Store} :
      evalOptional i d.value σ = .ok v σ₁ →
      DeclsPass p j i ds (G.define j d.name d.type) (σ₁.mapScopes (·.define i d.name v)) →
      DeclsPass p j i (d :: ds) G σ

mutual

/-- The points that a run of a statement passes. -/
inductive StmtPasses (rounds : Nat) (p : Point) :
    ScopeId → ScopeId → Stmt → TypeScopes → Store → Prop where
  | block {j i : ScopeId} {b : List Stmt} {G : TypeScopes} {σ : Store} :
      BlockPasses rounds p (G.child j).1 (σ.child i).1 b (G.child j).2 (σ.child i).2 →
      StmtPasses rounds p j i (.block b) G σ
  | expr {j i : ScopeId} {e : Expr} {G : TypeScopes} {σ : Store} : ExprPasses p G j i e σ →
      StmtPasses rounds p j i (.expr e) G σ
  | branch {j i : ScopeId} {bs : Branches} {G : TypeScopes} {σ : Store} :
      BranchesPass rounds p j i bs G σ → StmtPasses rounds p j i (.branch bs) G σ
  | condition {j i : ScopeId} {c : Expr} {b : List Stmt} {G : TypeScopes} {σ : Store} :
      ExprPasses p G j i c σ → StmtPasses rounds p j i (.loop c b) G σ
  | body {j i : ScopeId} {c : Expr} {b : List Stmt} {G : TypeScopes} {σ σ₁ : Store} :
      test i c σ = .ok true σ₁ →
      BlockPasses rounds p (G.child j).1 (σ₁.child i).1 b (G.child j).2 (σ₁.child i).2 →
      StmtPasses rounds p j i (.loop c b) G σ
  | again {j i : ScopeId} {c : Expr} {b : List Stmt} {signal : Option Signal} {G : TypeScopes}
      {σ σ₁ σ₂ : Store} : test i c σ = .ok true σ₁ →
      runBlock rounds (σ₁.child i).1 b (σ₁.child i).2 = .ok signal σ₂ →
      signal = none ∨ signal = some .continue → StmtPasses rounds p j i (.loop c b) G σ₂ →
      StmtPasses rounds p j i (.loop c b) G σ
  | declare {j i : ScopeId} {ds : List Decl} {G : TypeScopes} {σ : Store} : DeclsPass p j i ds G σ →
      StmtPasses rounds p j i (.declare ds) G σ
  | value {j i : ScopeId} {target e : Expr} {G : TypeScopes} {σ : Store} : ExprPasses p G j i e σ →
      StmtPasses rounds p j i (.assign target e) G σ
  | base {j i : ScopeId} {b k e : Expr} {v : Value} {G : TypeScopes} {σ σ₁ : Store} :
      eval i e σ = .ok v σ₁ → ExprPasses p G j i b σ₁ →
      StmtPasses rounds p j i (.assign (.index b k) e) G σ
  | index {j i : ScopeId} {b k e : Expr} {v w : Value} {G : TypeScopes} {σ σ₁ σ₂ : Store} :
      eval i e σ = .ok v σ₁ → eval i b σ₁ = .ok w σ₂ → ExprPasses p G j i k σ₂ →
      StmtPasses rounds p j i (.assign (.index b k) e) G σ
  | ret {j i : ScopeId} {e : Expr} {G : TypeScopes} {σ : Store} : ExprPasses p G j i e σ →
      StmtPasses rounds p j i (.ret (some e)) G σ

inductive BranchesPass (rounds : Nat) (p : Point) :
    ScopeId → ScopeId → Branches → TypeScopes → Store → Prop where
  | condition {j i : ScopeId} {c : Expr} {b : List Stmt} {rest : Branches} {G : TypeScopes} {σ : Store} :
      ExprPasses p G j i c σ → BranchesPass rounds p j i (.arm c b rest) G σ
  | body {j i : ScopeId} {c : Expr} {b : List Stmt} {rest : Branches} {G : TypeScopes} {σ σ₁ : Store} :
      test i c σ = .ok true σ₁ →
      BlockPasses rounds p (G.child j).1 (σ₁.child i).1 b (G.child j).2 (σ₁.child i).2 →
      BranchesPass rounds p j i (.arm c b rest) G σ
  | rest {j i : ScopeId} {c : Expr} {b : List Stmt} {rest : Branches} {r : Option Ty}
      {G G₁ : TypeScopes} {σ σ₁ : Store} : test i c σ = .ok false σ₁ →
      checkBlock (G.child j).1 none b (G.child j).2 = .ok r G₁ → BranchesPass rounds p j i rest G₁ σ₁ →
      BranchesPass rounds p j i (.arm c b rest) G σ
  | otherwise {j i : ScopeId} {b : List Stmt} {G : TypeScopes} {σ : Store} :
      BlockPasses rounds p (G.child j).1 (σ.child i).1 b (G.child j).2 (σ.child i).2 →
      BranchesPass rounds p j i (.otherwise b) G σ

inductive BlockPasses (rounds : Nat) (p : Point) :
    ScopeId → ScopeId → List Stmt → TypeScopes → Store → Prop where
  | head {j i : ScopeId} {st : Stmt} {rest : List Stmt} {G : TypeScopes} {σ : Store} :
      StmtPasses rounds p j i st G σ → BlockPasses rounds p j i (st :: rest) G σ
  | tail {j i : ScopeId} {st : Stmt} {rest : List Stmt} {r : Option Ty} {G G₁ : TypeScopes}
      {σ σ₁ : Store} : checkStmt j st G = .ok r G₁ → runStmt rounds i st σ = .ok none σ₁ →
      BlockPasses rounds p j i rest G₁ σ₁ → BlockPasses rounds p j i (st :: rest) G σ

end

end ScriptEngine
