import ScriptEngine.Execution
import ScriptEngine.Proofs.Scope.Mirror
import ScriptEngine.Proofs.Syntax.Names
import ScriptEngine.Proofs.Tandem

/-!
# Runs in mirrored scopes

A program that is run in two stores whose scopes mirror each other, and whose lists are the same, does the same in
both: the runs read equal values, decide alike and end alike, and the stores that they leave mirror each other
again. All that is asked is that the mirror is about the names in the program, and that a scope in which the
program declares names itself is changed together with its counterpart.
-/

namespace ScriptEngine

/-! ## What depends on the lists alone -/

namespace Store

variable {σ τ : Store}

theorem items_congr (h : τ.lists = σ.lists) (l : ListId) : τ.items l = σ.items l := by
  unfold items
  rw [h]

theorem isTruthy_congr (h : τ.lists = σ.lists) (v : Value) : τ.isTruthy v = σ.isTruthy v := by
  cases v <;> simp only [isTruthy, items_congr h]

theorem equalWithin_congr (h : τ.lists = σ.lists) (depth : Nat) (v w : Value) :
    τ.equalWithin depth v w = σ.equalWithin depth v w := by
  induction depth generalizing v w with
  | zero => cases v <;> cases w <;> rfl
  | succ depth ih =>
      have hin : τ.equalWithin depth = σ.equalWithin depth := funext₂ ih
      cases v <;> cases w <;> simp only [equalWithin, items_congr h, hin]

theorem equal_congr (h : τ.lists = σ.lists) (v w : Value) : τ.equal v w = σ.equal v w := by
  unfold equal
  rw [h, equalWithin_congr h]

end Store

/-- The scopes mirror each other, and the rest is the same. -/
structure Mirror.Stores (M : Mirror Value FunctionId) (σ τ : Store) : Prop where
  scopes : M.holds σ.scopes τ.scopes
  lists : τ.lists = σ.lists
  functions : τ.functions = σ.functions

namespace Mirror

variable {M : Mirror Value FunctionId} {σ τ : Store} {i j : ScopeId}

theorem Stores.newList (h : M.Stores σ τ) (items : Array Value) :
    (σ.newList items).1 = (τ.newList items).1 ∧ M.Stores (σ.newList items).2 (τ.newList items).2 := by
  simp only [Store.newList, h.lists, true_and]
  exact ⟨h.scopes, rfl, h.functions⟩

theorem Stores.setItem (h : M.Stores σ τ) (l : ListId) (n : Nat) (v : Value) :
    M.Stores (σ.setItem l n v) (τ.setItem l n v) := by
  simp only [Store.setItem, h.lists]
  exact ⟨h.scopes, rfl, h.functions⟩

theorem Stores.mapScopes {f g : Scopes Value FunctionId → Scopes Value FunctionId} (h : M.Stores σ τ)
    (hfg : M.holds (f σ.scopes) (g τ.scopes)) : M.Stores (σ.mapScopes f) (τ.mapScopes g) :=
  ⟨hfg, h.lists, h.functions⟩

/-! ## Evaluation -/

variable (M)

/-- Two steps on stores end alike. -/
abbrev Alike {ε α : Type} (x y : EStateM ε Store α) : Prop := Tandem M.Stores Eq x y

theorem alike_makeList (items : Array Value) : M.Alike (makeList items) (makeList items) :=
  fun _ _ h => h.newList items

theorem alike_truth (v : Value) : M.Alike (ε := Error) (do return Value.bool ((← get).isTruthy v))
    (do return .bool ((← get).isTruthy v)) :=
  .bind .get fun σ τ h => .pure (by rw [Store.isTruthy_congr h.lists])

theorem alike_unary (op : UnaryOp) (v : Value) : M.Alike (evalUnary op v) (evalUnary op v) := by
  cases op with
  | not => exact .bind .get fun σ τ h => .pure (by rw [Store.isTruthy_congr h.lists])
  | plus => exact .orFault _
  | minus => exact .orFault _
  | invert => exact .orFault _

theorem alike_add (v w : Value) : M.Alike (evalAdd v w) (evalAdd v w) := by
  unfold evalAdd
  split
  · exact .pure rfl
  · refine .bind .get fun σ τ h => .bind .get fun σ₁ τ₁ h₁ => ?_
    rw [Store.items_congr h.lists, Store.items_congr h₁.lists]
    exact M.alike_makeList _
  · exact .orFault _

theorem alike_repeat {v : Value} {n : Option Int64} {x : EStateM Error Store Value}
    (hx : repeat? v n = some x) : M.Alike x x := by
  unfold repeat? at hx
  split at hx
  · cases hx
    exact (Tandem.orFault _).map
  · cases hx
    refine .bind .get fun σ τ h => ?_
    rw [Store.items_congr h.lists]
    exact (Tandem.orFault _).andThen M.alike_makeList
  · cases hx

theorem alike_mul (v w : Value) : M.Alike (evalMul v w) (evalMul v w) := by
  unfold evalMul
  split
  · rename_i hx; exact M.alike_repeat hx
  · split
    · rename_i hx; exact M.alike_repeat hx
    · exact .orFault _

theorem alike_binary (op : BinaryOp) (v : Value) {x y : EStateM Error Store Value} (h : M.Alike x y) :
    M.Alike (evalBinary op v x) (evalBinary op v y) := by
  cases op with
  | and =>
      refine .bind .get fun σ τ hs => ?_
      rw [Store.isTruthy_congr hs.lists]
      split
      · exact h.andThen M.alike_truth
      · exact .pure rfl
  | or =>
      refine .bind .get fun σ τ hs => ?_
      rw [Store.isTruthy_congr hs.lists]
      split
      · exact .pure rfl
      · exact h.andThen M.alike_truth
  | eq => exact h.andThen fun w => .bind .get fun σ τ hs => .pure (by rw [Store.equal_congr hs.lists])
  | ne => exact h.andThen fun w => .bind .get fun σ τ hs => .pure (by rw [Store.equal_congr hs.lists])
  | add => exact h.andThen (M.alike_add v)
  | mul => exact h.andThen (M.alike_mul v)
  | _ => exact h.andThen fun w => .orFault _

theorem alike_index (v w : Value) : M.Alike (evalIndex v w) (evalIndex v w) := by
  unfold evalIndex
  split
  · refine .bind .get fun σ τ h => ?_
    rw [Store.items_congr h.lists]
    exact (Tandem.orFault _).andThen fun n => .pure rfl
  · exact .orFault _
  · exact .orFault _

variable {M}

theorem alike_readVar {x : String} (hij : M.scope i j) (hx : M.name x) :
    M.Alike (readVar i x) (readVar j x) := by
  intro σ τ h
  unfold readVar Scopes.find
  rw [M.find? h.scopes hij hx]
  cases σ.scopes.find? i x <;> exact ⟨rfl, h⟩

theorem alike_eval (hij : M.scope i j) :
    (e : Expr) → (∀ x ∈ e.vars, M.name x) → M.Alike (eval i e) (eval j e)
  | .constant l, _ => .pure rfl
  | .var x, hv => alike_readVar hij (hv x (List.mem_singleton.mpr rfl))
  | .unary op e, hv => (alike_eval hij e hv).andThen (M.alike_unary op)
  | .binary op l r, hv => by
      obtain ⟨hl, hr⟩ := List.forall_mem_append.mp hv
      exact (alike_eval hij l hl).andThen fun v => M.alike_binary op v (alike_eval hij r hr)
  | .index b k, hv => by
      obtain ⟨hb, hk⟩ := List.forall_mem_append.mp hv
      exact (alike_eval hij b hb).andThen fun v => (alike_eval hij k hk).andThen (M.alike_index v)

theorem alike_evalOptional (hij : M.scope i j) (e : Option Expr) (hv : ∀ x ∈ optionVars e, M.name x) :
    M.Alike (evalOptional i e) (evalOptional j e) := by
  cases e with
  | none => exact .pure rfl
  | some e => exact alike_eval hij e hv

theorem alike_test (hij : M.scope i j) (e : Expr) (hv : ∀ x ∈ e.vars, M.name x) :
    M.Alike (test i e) (test j e) :=
  (alike_eval hij e hv).ofEval.andThen fun v =>
    .bind .get fun _ _ h => .pure (Store.isTruthy_congr h.lists v).symm

/-! ## Changes -/

theorem alike_define {x : String} (hij : M.frame i j) (hx : M.name x) (v : Value) :
    M.Alike (Exec.define i x v) (Exec.define j x v) :=
  .modify fun _ _ h => h.mapScopes (M.define v h.scopes hij hx)

theorem alike_writeVar {x : String} (hij : M.scope i j) (hx : M.name x) (v : Value) :
    M.Alike (writeVar i x v) (writeVar j x v) := by
  refine .bind .get fun σ τ h => ?_
  have howner := M.owner? h.scopes hij hx
  generalize σ.scopes.owner? i x = k at howner ⊢
  generalize τ.scopes.owner? j x = l at howner ⊢
  cases howner with
  | none => exact .throw _
  | some hkl => exact .modify fun _ _ h => h.mapScopes (M.define v h.scopes hkl hx)

theorem alike_assign (hij : M.scope i j) (target : Expr) (hv : ∀ x ∈ target.vars, M.name x) (v : Value) :
    M.Alike (assign i target v) (assign j target v) := by
  cases target with
  | var x => exact alike_writeVar hij (hv x (List.mem_singleton.mpr rfl)) v
  | index b k =>
      obtain ⟨hb, hk⟩ := List.forall_mem_append.mp hv
      refine (alike_eval hij b hb).andThen fun base => (alike_eval hij k hk).andThen fun index => ?_
      cases base with
      | list l =>
          refine .bind .get fun σ τ h => ?_
          rw [Store.items_congr h.lists]
          exact (Tandem.orFault _).andThen fun n => .modify fun _ _ h => h.setItem l n v
      | _ => exact .orFault _
  | _ =>
      simp only [assign]
      exact .orFault _

theorem alike_declare (hij : M.scope i j) (hframe : M.frame i j) :
    (ds : List Decl) → (∀ x ∈ ds.flatMap fun d => optionVars d.value, M.name x) →
    (∀ x ∈ ds.map Decl.name, M.name x) → M.Alike (declare i ds) (declare j ds)
  | [], _, _ => .pure rfl
  | d :: ds, hv, hb => by
      rw [List.flatMap_cons] at hv
      obtain ⟨hd, hds⟩ := List.forall_mem_append.mp hv
      obtain ⟨hx, hb⟩ := List.forall_mem_cons.mp hb
      refine (alike_evalOptional hij d.value hd).ofEval.andThen fun v => ?_
      exact (alike_define hframe hx v).andThen fun _ => alike_declare hij hframe ds hds hb

/-- Both runs open a scope, and what follows runs alike in the new ones. -/
theorem alike_enter {α : Type} {f g : ScopeId → Exec α} (hij : M.scope i j)
    (h : ∀ k l, M.scope k l → M.frame k l → M.Alike (f k) (g l)) :
    M.Alike (Exec.enter i >>= f) (Exec.enter j >>= g) := by
  have henter : Tandem M.Stores (fun k l => M.scope k l ∧ M.frame k l) (Exec.enter i) (Exec.enter j) :=
    fun σ τ hs => ⟨⟨M.child_scope hs.scopes hij, M.child_frame hs.scopes hij⟩,
      M.child hs.scopes hij, hs.lists, hs.functions⟩
  exact henter.bind fun k l hkl => h k l hkl.1 hkl.2

/-! ## Statements -/

mutual

theorem alike_stmt (rounds : Nat) {i j : ScopeId} (hij : M.scope i j) : (s : Stmt) →
    (∀ x ∈ s.vars, M.name x) → (∀ x ∈ s.binders, M.name x) → (∀ ds, s = .declare ds → M.frame i j) →
    M.Alike (runStmt rounds i s) (runStmt rounds j s)
  | .block b, hv, hb, _ => by
      simp only [Stmt.vars, Stmt.binders] at hv hb
      simp only [runStmt]
      exact alike_enter hij fun k l hkl hframe => alike_block rounds hkl b hv hb fun _ _ => hframe
  | .noop, _, _, _ => by
      simp only [runStmt]
      exact .pure rfl
  | .expr e, hv, _, _ => by
      simp only [Stmt.vars] at hv
      simp only [runStmt]
      exact (alike_eval hij e hv).ofEval.andThen fun _ => .pure rfl
  | .branch bs, hv, hb, _ => by
      simp only [Stmt.vars, Stmt.binders] at hv hb
      simp only [runStmt]
      exact alike_branches rounds hij bs hv hb
  | .loop c b, hv, hb, _ => by
      simp only [Stmt.vars, Stmt.binders, List.forall_mem_append] at hv hb
      simp only [runStmt]
      refine .repeatWhile (alike_test hij c hv.1) ?_ rounds
      exact alike_enter hij fun k l hkl hframe => alike_block rounds hkl b hv.2 hb fun _ _ => hframe
  | .declare ds, hv, hb, hframe => by
      simp only [Stmt.vars, Stmt.binders] at hv hb
      simp only [runStmt]
      exact (alike_declare hij (hframe ds rfl) ds hv hb).andThen fun _ => .pure rfl
  | .assign target e, hv, _, _ => by
      simp only [Stmt.vars, List.forall_mem_append] at hv
      simp only [runStmt]
      refine (alike_eval hij e hv.2).ofEval.andThen fun v => ?_
      exact (alike_assign hij target hv.1 v).ofEval.andThen fun _ => .pure rfl
  | .ret e, hv, _, _ => by
      simp only [Stmt.vars] at hv
      simp only [runStmt]
      exact (alike_evalOptional hij e hv).ofEval.andThen fun v => .pure rfl
  | .break, _, _, _ => by
      simp only [runStmt]
      exact .pure rfl
  | .continue, _, _, _ => by
      simp only [runStmt]
      exact .pure rfl

theorem alike_branches (rounds : Nat) {i j : ScopeId} (hij : M.scope i j) : (bs : Branches) →
    (∀ x ∈ bs.vars, M.name x) → (∀ x ∈ bs.binders, M.name x) →
    M.Alike (runBranches rounds i bs) (runBranches rounds j bs)
  | .arm c b rest, hv, hb => by
      simp only [Branches.vars, Branches.binders, List.forall_mem_append] at hv hb
      simp only [runBranches]
      refine (alike_test hij c hv.1).andThen fun holds => ?_
      split
      · exact alike_enter hij fun k l hkl hframe => alike_block rounds hkl b hv.2.1 hb.1 fun _ _ => hframe
      · exact alike_branches rounds hij rest hv.2.2 hb.2
  | .otherwise b, hv, hb => by
      simp only [Branches.vars, Branches.binders] at hv hb
      simp only [runBranches]
      exact alike_enter hij fun k l hkl hframe => alike_block rounds hkl b hv hb fun _ _ => hframe

/-- Statements run alike in scopes in which their names mean the same. -/
theorem alike_block (rounds : Nat) {i j : ScopeId} (hij : M.scope i j) : (b : List Stmt) →
    (∀ x ∈ blockVars b, M.name x) → (∀ x ∈ blockBinders b, M.name x) →
    (∀ ds, Stmt.declare ds ∈ b → M.frame i j) → M.Alike (runBlock rounds i b) (runBlock rounds j b)
  | [], _, _, _ => by
      simp only [runBlock]
      exact .pure rfl
  | s :: rest, hv, hb, hframe => by
      simp only [blockVars, blockBinders, List.forall_mem_append] at hv hb
      simp only [runBlock]
      have hs := alike_stmt rounds hij s hv.1 hb.1 fun ds h => hframe ds (h ▸ List.mem_cons_self)
      refine hs.andThen fun signal => ?_
      cases signal with
      | some signal => exact .pure rfl
      | none => exact alike_block rounds hij rest hv.2 hb.2 fun ds h => hframe ds (List.mem_cons_of_mem _ h)

end

/-- A call runs alike if the scope that the body sees is mirrored by itself. -/
theorem alike_call {fn : Function} (rounds : Nat) (arguments : List Value) (hscope : M.scope fn.scope fn.scope)
    (hv : ∀ x ∈ blockVars fn.body, M.name x) (hb : ∀ x ∈ blockBinders fn.body, M.name x)
    (hp : ∀ x ∈ fn.parameters.map Prod.fst, M.name x) :
    M.Alike (fn.call rounds arguments) (fn.call rounds arguments) := by
  unfold Function.call
  split
  · exact .throw _
  · refine alike_enter hscope fun k l hkl hframe => ?_
    have hbind : ∀ b ∈ (fn.parameters.map Prod.fst).zip arguments, M.name b.1 :=
      fun b hb => hp b.1 (List.of_mem_zip hb).1
    refine .andThen (.modify fun _ _ h => h.mapScopes (M.defineAll hframe hbind h.scopes)) fun _ => ?_
    refine (alike_block rounds hkl fn.body hv hb fun _ _ => hframe).andThen fun signal => ?_
    rcases signal with _ | (v | _ | _) <;> exact .pure rfl

end Mirror

end ScriptEngine
