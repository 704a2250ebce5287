import ScriptEngine.Proofs.Scope.Mirror
import ScriptEngine.Proofs.Syntax.Names
import ScriptEngine.Proofs.Tandem
import ScriptEngine.Typing

/-!
# Checks in mirrored scopes

Checking a program in two tables of types that mirror each other gives the same in both, and the tables that the
checks leave mirror each other again.
-/

namespace ScriptEngine.Mirror

variable {M : Mirror Ty Ty} {G H : TypeScopes} {i j : ScopeId}

/-! ## Expressions -/

theorem typeOf_eq (h : M.holds G H) (hij : M.scope i j) :
    (e : Expr) → (∀ x ∈ e.vars, M.name x) → typeOf H j e = typeOf G i e
  | .constant _, _ => rfl
  | .var x, hv => by
      simp only [typeOf, Scopes.find, M.find? h hij (hv x (List.mem_singleton.mpr rfl))]
  | .unary op e, hv => by simp only [typeOf, typeOf_eq h hij e hv]
  | .binary op l r, hv => by
      obtain ⟨hl, hr⟩ := List.forall_mem_append.mp hv
      simp only [typeOf, typeOf_eq h hij l hl, typeOf_eq h hij r hr]
  | .index b k, hv => by
      obtain ⟨hb, hk⟩ := List.forall_mem_append.mp hv
      simp only [typeOf, typeOf_eq h hij b hb, typeOf_eq h hij k hk]

variable (M)

/-- Two steps of a check end alike. -/
abbrev Agrees {α : Type} (x y : Check α) : Prop := Tandem M.holds Eq x y

theorem agrees_merge (sofar found : Option Ty) :
    M.Agrees (Check.merge sofar found) (Check.merge sofar found) := by
  unfold Check.merge
  split
  · exact .pure rfl
  · exact .pure rfl
  · split
    · exact .pure rfl
    · exact .throw _

variable {M}

theorem agrees_expr (hij : M.scope i j) (e : Expr) (hv : ∀ x ∈ e.vars, M.name x) :
    M.Agrees (Check.expr i e) (Check.expr j e) := by
  intro G H h
  unfold Check.expr
  rw [typeOf_eq h hij e hv]
  cases typeOf G i e <;> exact ⟨rfl, h⟩

/-! ## Changes -/

theorem agrees_declare (hframe : M.frame i j) (ds : List Decl) (hb : ∀ x ∈ ds.map Decl.name, M.name x) :
    M.Agrees (Check.declare i ds) (Check.declare j ds) := by
  refine .modify fun G H h => M.defineAll hframe ?_ h
  rintro _ hbinding
  obtain ⟨d, hd, rfl⟩ := List.mem_map.mp hbinding
  exact hb d.name (List.mem_map_of_mem hd)

theorem agrees_assign (hij : M.scope i j) {target e : Expr} (ht : ∀ x ∈ target.vars, M.name x)
    (he : ∀ x ∈ e.vars, M.name x) : M.Agrees (Check.assign i target e) (Check.assign j target e) := by
  unfold Check.assign
  split
  · refine (agrees_expr hij target ht).andThen fun t => (agrees_expr hij e he).andThen fun u => ?_
    split
    · exact .throw _
    · exact .pure rfl
  · exact .throw _

/-- Both checks open a scope, and what follows is checked alike in the new ones. -/
theorem agrees_enter {α : Type} {f g : ScopeId → Check α} (hij : M.scope i j)
    (h : ∀ k l, M.scope k l → M.frame k l → M.Agrees (f k) (g l)) :
    M.Agrees (Check.enter i >>= f) (Check.enter j >>= g) := by
  have henter : Tandem M.holds (fun k l => M.scope k l ∧ M.frame k l) (Check.enter i) (Check.enter j) :=
    fun G H hs => ⟨⟨M.child_scope hs hij, M.child_frame hs hij⟩, M.child hs hij⟩
  exact henter.bind fun k l hkl => h k l hkl.1 hkl.2

/-! ## Statements -/

mutual

theorem agrees_stmt {i j : ScopeId} (hij : M.scope i j) : (s : Stmt) → (∀ x ∈ s.vars, M.name x) →
    (∀ x ∈ s.binders, M.name x) → (∀ ds, s = .declare ds → M.frame i j) →
    M.Agrees (checkStmt i s) (checkStmt j s)
  | .block b, hv, hb, _ => by
      simp only [Stmt.vars, Stmt.binders] at hv hb
      simp only [checkStmt]
      exact agrees_enter hij fun k l hkl hframe => agrees_block hkl none b hv hb fun _ _ => hframe
  | .noop, _, _, _ => by
      simp only [checkStmt]
      exact .pure rfl
  | .break, _, _, _ => by
      simp only [checkStmt]
      exact .pure rfl
  | .continue, _, _, _ => by
      simp only [checkStmt]
      exact .pure rfl
  | .expr e, hv, _, _ => by
      simp only [Stmt.vars] at hv
      simp only [checkStmt]
      exact (agrees_expr hij e hv).andThen fun _ => .pure rfl
  | .branch bs, hv, hb, _ => by
      simp only [Stmt.vars, Stmt.binders] at hv hb
      simp only [checkStmt]
      exact agrees_branches hij none bs hv hb
  | .loop c b, hv, hb, _ => by
      simp only [Stmt.vars, Stmt.binders, List.forall_mem_append] at hv hb
      simp only [checkStmt]
      refine (agrees_expr hij c hv.1).andThen fun _ => agrees_enter hij fun k l hkl hframe => ?_
      exact agrees_block hkl none b hv.2 hb fun _ _ => hframe
  | .declare ds, _, hb, hframe => by
      simp only [Stmt.binders] at hb
      simp only [checkStmt]
      exact (agrees_declare (hframe ds rfl) ds hb).andThen fun _ => .pure rfl
  | .assign target e, hv, _, _ => by
      simp only [Stmt.vars, List.forall_mem_append] at hv
      simp only [checkStmt]
      exact (agrees_assign hij hv.1 hv.2).andThen fun _ => .pure rfl
  | .ret (some e), hv, _, _ => by
      simp only [Stmt.vars, optionVars] at hv
      simp only [checkStmt]
      exact (agrees_expr hij e hv).andThen fun _ => .pure rfl
  | .ret none, _, _, _ => by
      simp only [checkStmt]
      exact .pure rfl

theorem agrees_branches {i j : ScopeId} (hij : M.scope i j) (sofar : Option Ty) : (bs : Branches) →
    (∀ x ∈ bs.vars, M.name x) → (∀ x ∈ bs.binders, M.name x) →
    M.Agrees (checkBranches i sofar bs) (checkBranches j sofar bs)
  | .arm c b rest, hv, hb => by
      simp only [Branches.vars, Branches.binders, List.forall_mem_append] at hv hb
      simp only [checkBranches]
      refine (agrees_expr hij c hv.1).andThen fun _ => agrees_enter hij fun k l hkl hframe => ?_
      refine (agrees_block hkl none b hv.2.1 hb.1 fun _ _ => hframe).andThen fun found => ?_
      refine (M.agrees_merge sofar found).andThen fun merged => ?_
      exact agrees_branches hij merged rest hv.2.2 hb.2
  | .otherwise b, hv, hb => by
      simp only [Branches.vars, Branches.binders] at hv hb
      simp only [checkBranches]
      refine agrees_enter hij fun k l hkl hframe => ?_
      exact (agrees_block hkl none b hv hb fun _ _ => hframe).andThen fun found => M.agrees_merge sofar found

/-- Statements are checked alike in scopes in which their names have the same types. -/
theorem agrees_block {i j : ScopeId} (hij : M.scope i j) (sofar : Option Ty) : (b : List Stmt) →
    (∀ x ∈ blockVars b, M.name x) → (∀ x ∈ blockBinders b, M.name x) →
    (∀ ds, Stmt.declare ds ∈ b → M.frame i j) → M.Agrees (checkBlock i sofar b) (checkBlock j sofar b)
  | [], _, _, _ => by
      simp only [checkBlock]
      exact .pure rfl
  | s :: rest, hv, hb, hframe => by
      simp only [blockVars, blockBinders, List.forall_mem_append] at hv hb
      simp only [checkBlock]
      have hs := agrees_stmt hij s hv.1 hb.1 fun ds h => hframe ds (h ▸ List.mem_cons_self)
      refine hs.andThen fun found => (M.agrees_merge sofar found).andThen fun merged => ?_
      exact agrees_block hij merged rest hv.2 hb.2 fun ds h => hframe ds (List.mem_cons_of_mem _ h)

end

end ScriptEngine.Mirror
