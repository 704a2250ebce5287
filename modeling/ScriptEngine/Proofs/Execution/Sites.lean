import ScriptEngine.Execution
import ScriptEngine.Proofs.Execution.Effect
import ScriptEngine.Proofs.Syntax.Names

/-!
# Where a run fails

A run evaluates the expressions of its statements one after the other, each in some scope and some store. If it
fails, it does so in one of them, and it stops there: the scopes that it leaves are those of that moment.
-/

namespace ScriptEngine

/-! ## The sites of a run -/

/-- An expression that is evaluated or assigned to, with the scope and the store at that moment. -/
structure Site where
  scope : ScopeId
  expr : Expr
  store : Store

/-- The sites that a declaration of names reaches. -/
inductive DeclsReach (site : Site) (i : ScopeId) : List Decl → Store → Prop where
  | here {d : Decl} {ds : List Decl} {e : Expr} {σ : Store} : d.value = some e → site = ⟨i, e, σ⟩ →
      DeclsReach site i (d :: ds) σ
  | next {d : Decl} {ds : List Decl} {v : Value} {σ σ₁ : Store} : evalOptional i d.value σ = .ok v σ₁ →
      DeclsReach site i ds (σ₁.mapScopes (·.define i d.name v)) → DeclsReach site i (d :: ds) σ

mutual

/-- The sites that a run of a statement reaches. -/
inductive StmtReaches (rounds : Nat) (site : Site) : ScopeId → Stmt → Store → Prop where
  | block {i : ScopeId} {b : List Stmt} {σ : Store} :
      BlockReaches rounds site (σ.child i).1 b (σ.child i).2 → StmtReaches rounds site i (.block b) σ
  | expr {i : ScopeId} {e : Expr} {σ : Store} : site = ⟨i, e, σ⟩ → StmtReaches rounds site i (.expr e) σ
  | branch {i : ScopeId} {bs : Branches} {σ : Store} : BranchesReach rounds site i bs σ →
      StmtReaches rounds site i (.branch bs) σ
  | condition {i : ScopeId} {c : Expr} {b : List Stmt} {σ : Store} : site = ⟨i, c, σ⟩ →
      StmtReaches rounds site i (.loop c b) σ
  | body {i : ScopeId} {c : Expr} {b : List Stmt} {σ σ₁ : Store} : test i c σ = .ok true σ₁ →
      BlockReaches rounds site (σ₁.child i).1 b (σ₁.child i).2 → StmtReaches rounds site i (.loop c b) σ
  | again {i : ScopeId} {c : Expr} {b : List Stmt} {signal : Option Signal} {σ σ₁ σ₂ : Store} :
      test i c σ = .ok true σ₁ → runBlock rounds (σ₁.child i).1 b (σ₁.child i).2 = .ok signal σ₂ →
      signal = none ∨ signal = some .continue → StmtReaches rounds site i (.loop c b) σ₂ →
      StmtReaches rounds site i (.loop c b) σ
  | declare {i : ScopeId} {ds : List Decl} {σ : Store} : DeclsReach site i ds σ →
      StmtReaches rounds site i (.declare ds) σ
  | value {i : ScopeId} {target e : Expr} {σ : Store} : site = ⟨i, e, σ⟩ →
      StmtReaches rounds site i (.assign target e) σ
  | target {i : ScopeId} {target e : Expr} {v : Value} {σ σ₁ : Store} : eval i e σ = .ok v σ₁ →
      site = ⟨i, target, σ₁⟩ → StmtReaches rounds site i (.assign target e) σ
  | ret {i : ScopeId} {e : Expr} {σ : Store} : site = ⟨i, e, σ⟩ → StmtReaches rounds site i (.ret (some e)) σ

inductive BranchesReach (rounds : Nat) (site : Site) : ScopeId → Branches → Store → Prop where
  | condition {i : ScopeId} {c : Expr} {b : List Stmt} {rest : Branches} {σ : Store} : site = ⟨i, c, σ⟩ →
      BranchesReach rounds site i (.arm c b rest) σ
  | body {i : ScopeId} {c : Expr} {b : List Stmt} {rest : Branches} {σ σ₁ : Store} :
      test i c σ = .ok true σ₁ → BlockReaches rounds site (σ₁.child i).1 b (σ₁.child i).2 →
      BranchesReach rounds site i (.arm c b rest) σ
  | rest {i : ScopeId} {c : Expr} {b : List Stmt} {rest : Branches} {σ σ₁ : Store} :
      test i c σ = .ok false σ₁ → BranchesReach rounds site i rest σ₁ →
      BranchesReach rounds site i (.arm c b rest) σ
  | otherwise {i : ScopeId} {b : List Stmt} {σ : Store} :
      BlockReaches rounds site (σ.child i).1 b (σ.child i).2 →
      BranchesReach rounds site i (.otherwise b) σ

/-- The sites that a run of statements reaches. -/
inductive BlockReaches (rounds : Nat) (site : Site) : ScopeId → List Stmt → Store → Prop where
  | head {i : ScopeId} {s : Stmt} {rest : List Stmt} {σ : Store} : StmtReaches rounds site i s σ →
      BlockReaches rounds site i (s :: rest) σ
  | tail {i : ScopeId} {s : Stmt} {rest : List Stmt} {σ σ₁ : Store} : runStmt rounds i s σ = .ok none σ₁ →
      BlockReaches rounds site i rest σ₁ → BlockReaches rounds site i (s :: rest) σ

end

/-! ## What a site holds occurs in the program -/

theorem DeclsReach.vars_subset {site : Site} {i : ScopeId} {ds : List Decl} {σ : Store}
    (h : DeclsReach site i ds σ) : site.expr.vars ⊆ ds.flatMap fun d => optionVars d.value := by
  induction h with
  | @here d ds e σ hd hsite =>
      rw [List.flatMap_cons, hd, hsite]
      exact List.subset_append_left _ _
  | next _ _ ih => exact List.subset_append_of_subset_right _ ih

mutual

theorem StmtReaches.vars_subset {rounds : Nat} {site : Site} {i : ScopeId} {s : Stmt} {σ : Store} :
    StmtReaches rounds site i s σ → site.expr.vars ⊆ s.vars
  | .block h => h.vars_subset
  | .expr hsite => hsite ▸ List.Subset.refl _
  | .branch h => h.vars_subset
  | .condition hsite => hsite ▸ List.subset_append_left _ _
  | .body _ h => List.subset_append_of_subset_right _ h.vars_subset
  | .again _ _ _ h => h.vars_subset
  | .declare h => h.vars_subset
  | .value hsite => hsite ▸ List.subset_append_right _ _
  | .target _ hsite => hsite ▸ List.subset_append_left _ _
  | .ret hsite => hsite ▸ List.Subset.refl _

theorem BranchesReach.vars_subset {rounds : Nat} {site : Site} {i : ScopeId} {bs : Branches} {σ : Store} :
    BranchesReach rounds site i bs σ → site.expr.vars ⊆ bs.vars
  | .condition hsite => hsite ▸ List.subset_append_left _ _
  | .body _ h => List.subset_append_of_subset_right _ (List.subset_append_of_subset_left _ h.vars_subset)
  | .rest _ h => List.subset_append_of_subset_right _ (List.subset_append_of_subset_right _ h.vars_subset)
  | .otherwise h => h.vars_subset

theorem BlockReaches.vars_subset {rounds : Nat} {site : Site} {i : ScopeId} {b : List Stmt} {σ : Store} :
    BlockReaches rounds site i b σ → site.expr.vars ⊆ blockVars b
  | .head h => List.subset_append_of_subset_left _ h.vars_subset
  | .tail _ h => List.subset_append_of_subset_right _ h.vars_subset

end

/-! ## Failures at a site -/

/-- An error that a step in the scope `i` with the variables `xs` stops with: a fault, or a variable that is bound
in no frame of the chain. It has no position. -/
def RunError (i : ScopeId) (xs : List String) (e : Error) (σ : Store) : Prop :=
  e.position = none ∧ (e.cause.kind = .fault ∨
    ∃ x ∈ xs, e.cause = .undefinedVariable x ∧ ∀ j ∈ σ.scopes.chain i, σ.scopes.local? j x = none)

theorem RunError.mono {i : ScopeId} {xs ys : List String} {e : Error} {σ : Store} (hxs : xs ⊆ ys)
    (h : RunError i xs e σ) : RunError i ys e σ := by
  obtain ⟨hp, hk | ⟨x, hx, hrest⟩⟩ := h
  · exact ⟨hp, .inl hk⟩
  · exact ⟨hp, .inr ⟨x, hxs hx, hrest⟩⟩

/-- A step that leaves the scopes alone if it fails, and fails so. -/
def FailsIn {α : Type} (i : ScopeId) (xs : List String) (x : EStateM Error Store α) : Prop :=
  ∀ σ, Ends x σ (fun _ _ => True) (fun e σ' => σ'.scopes = σ.scopes ∧ RunError i xs e σ')

theorem eval_failsIn (i : ScopeId) (e : Expr) : FailsIn i e.vars (eval i e) := by
  intro σ
  refine ((eval_harmless i e σ).and (eval_explained i e σ)).mono (fun _ _ _ => trivial) ?_
  rintro err σ' ⟨hgrows, ⟨x, hx, hfind, rfl⟩ | ⟨f, rfl, _⟩⟩
  · refine ⟨hgrows.scopes, rfl, .inr ⟨x, hx, rfl, ?_⟩⟩
    rw [hgrows.scopes]
    exact List.findSome?_eq_none_iff.mp hfind
  · exact ⟨hgrows.scopes, rfl, .inl rfl⟩

theorem writeVar_failsIn (i : ScopeId) (x : String) (v : Value) : FailsIn i [x] (writeVar i x v) := by
  intro σ
  unfold writeVar
  rw [Ends.bind_iff, Ends.get_iff]
  split
  · trivial
  · rename_i hnone
    refine ⟨rfl, rfl, .inr ⟨x, List.mem_cons_self, rfl, fun j hj => ?_⟩⟩
    have hbinds := List.find?_eq_none.mp hnone j hj
    simpa [Scopes.binds] using hbinds

theorem assign_failsIn (i : ScopeId) (target : Expr) (v : Value) : FailsIn i target.vars (assign i target v) := by
  intro σ
  cases target with
  | var x => exact writeVar_failsIn i x v σ
  | index b k =>
      simp only [assign, Ends.bind_iff]
      have hb := (eval_harmless i b σ).and (eval_failsIn i b σ)
      refine hb.mono (fun base σ₁ h₁ => ?_) (fun _ _ h => ⟨h.1.scopes, h.2.2.mono (List.subset_append_left _ _)⟩)
      have hk := (eval_harmless i k σ₁).and (eval_failsIn i k σ₁)
      rw [← h₁.1.scopes]
      refine hk.mono (fun index σ₂ h₂ => ?_)
        (fun _ _ h => ⟨h.1.scopes, h.2.2.mono (List.subset_append_right _ _)⟩)
      have hfault : ∀ f, σ₂.scopes = σ₁.scopes ∧ RunError i (Expr.index b k).vars (.ofFault f) σ₂ := fun f =>
        ⟨h₂.1.scopes, rfl, .inl rfl⟩
      split
      · simp only [Ends.bind_iff, Ends.get_iff, Ends.orFault_iff, Ends.modify_iff]
        exact ⟨fun _ _ => trivial, fun f _ => hfault f⟩
      · simp only [Ends.orFault_iff]
        exact ⟨fun _ _ => trivial, fun f _ => hfault f⟩
  | _ => exact ⟨rfl, rfl, .inl rfl⟩

/-! ## Failures of a run -/

/-- At one of the sites in `S` the error `e` arises, with the scopes that `σ` has. -/
def StopsAt (S : Site → Prop) (e : Error) (σ : Store) : Prop :=
  ∃ site, S site ∧ σ.scopes = site.store.scopes ∧ RunError site.scope site.expr.vars e σ

/-- A step of a run that fails does so at one of the sites in `S`, and stops there. -/
def FailsAt {α : Type} (S : Site → Prop) (x : Exec α) (σ : Store) : Prop :=
  Ends x σ (fun _ _ => True) (fun a σ' => ∀ e, a = .error e → StopsAt S e σ')

namespace FailsAt

variable {α β : Type} {S S' : Site → Prop} {x : Exec α} {f : α → Exec β} {σ : Store} {i : ScopeId} {e : Expr}

theorem mono (hS : ∀ site, S site → S' site) (h : FailsAt S x σ) : FailsAt S' x σ := by
  refine Ends.mono h (fun _ _ h => h) fun a σ' h err ha => ?_
  obtain ⟨site, hsite, hrest⟩ := h err ha
  exact ⟨site, hS site hsite, hrest⟩

theorem bind (hx : FailsAt S x σ) (hf : ∀ a σ₁, x σ = .ok a σ₁ → FailsAt S (f a) σ₁) : FailsAt S (x >>= f) σ := by
  refine Ends.bind_iff.mpr (Ends.iff_forall.mpr ⟨fun a σ₁ ha => hf a σ₁ ha, fun a σ' ha => ?_⟩)
  exact hx.of_error ha

theorem ofEval {x : EStateM Error Store α} (hx : FailsIn i e.vars x) (hS : S ⟨i, e, σ⟩) :
    FailsAt S (Exec.ofEval x) σ := by
  refine Ends.ofEval_iff.mpr ((hx σ).mono (fun _ _ h => h) ?_)
  rintro err σ' ⟨hscopes, herr⟩ _ ⟨⟩
  exact ⟨_, hS, hscopes, herr⟩

theorem test (hS : S ⟨i, e, σ⟩) : FailsAt S (test i e) σ :=
  .bind (.ofEval (eval_failsIn i e) hS) fun _ _ _ => trivial

end FailsAt

theorem declare_failsAt {i : ScopeId} : (ds : List Decl) → (σ : Store) →
    FailsAt (DeclsReach · i ds σ) (declare i ds) σ
  | [], _ => trivial
  | d :: ds, σ => by
      have hvalue : FailsAt (DeclsReach · i (d :: ds) σ) (Exec.ofEval (evalOptional i d.value)) σ := by
        cases hd : d.value with
        | none => trivial
        | some e => exact .ofEval (eval_failsIn i e) (.here hd rfl)
      refine .bind hvalue fun v σ₁ hv => .bind trivial fun _ σ₂ hdefine => ?_
      cases hdefine
      exact (declare_failsAt ds _).mono fun site h => .next (ofEval_eq_ok.mp hv) h

/-- A loop fails at a site of one of its rounds. -/
theorem loop_failsAt {rounds : Nat} {i : ScopeId} {c : Expr} {b : List Stmt}
    (hb : ∀ j σ, FailsAt (BlockReaches rounds · j b σ) (runBlock rounds j b) σ) : (n : Nat) → (σ : Store) →
    FailsAt (StmtReaches rounds · i (.loop c b) σ)
      (repeatWhile (test i c) (do runBlock rounds (← Exec.enter i) b) n) σ
  | 0, _ => fun _ h => by cases h
  | n + 1, σ => by
      refine .bind (.test (.condition rfl)) fun holds σ₁ htest => ?_
      cases holds with
      | false => trivial
      | true =>
          have hbody : FailsAt (StmtReaches rounds · i (.loop c b) σ) (do runBlock rounds (← Exec.enter i) b) σ₁ :=
            (hb _ (σ₁.child i).2).mono fun site h => .body htest h
          refine .bind hbody fun signal σ₂ hrun => ?_
          have hrest : signal = none ∨ signal = some .continue →
              FailsAt (StmtReaches rounds · i (.loop c b) σ)
                (repeatWhile (test i c) (do runBlock rounds (← Exec.enter i) b) n) σ₂ := fun hsignal =>
            (loop_failsAt hb n σ₂).mono fun site h => .again htest hrun hsignal h
          match signal with
          | some .break => trivial
          | some (.ret v) => trivial
          | some .continue => exact hrest (.inr rfl)
          | none => exact hrest (.inl rfl)

mutual

theorem runStmt_failsAt {rounds : Nat} (i : ScopeId) : (s : Stmt) → (σ : Store) →
    FailsAt (StmtReaches rounds · i s σ) (runStmt rounds i s) σ
  | .block b, σ => (runBlock_failsAt _ b (σ.child i).2).mono fun _ h => .block h
  | .noop, _ => trivial
  | .expr e, _ => .bind (.ofEval (eval_failsIn i e) (.expr rfl)) fun _ _ _ => trivial
  | .branch bs, σ => (runBranches_failsAt i bs σ).mono fun _ h => .branch h
  | .loop c b, σ => loop_failsAt (fun j σ => runBlock_failsAt j b σ) rounds σ
  | .declare ds, σ => .bind ((declare_failsAt ds σ).mono fun _ h => .declare h) fun _ _ _ => trivial
  | .assign target e, _ => by
      refine .bind (.ofEval (eval_failsIn i e) (.value rfl)) fun v σ₁ hv => ?_
      exact .bind (.ofEval (assign_failsIn i target v) (.target (ofEval_eq_ok.mp hv) rfl)) fun _ _ _ => trivial
  | .ret (some e), _ => .bind (.ofEval (eval_failsIn i e) (.ret rfl)) fun _ _ _ => trivial
  | .ret none, _ => trivial
  | .break, _ => trivial
  | .continue, _ => trivial

theorem runBranches_failsAt {rounds : Nat} (i : ScopeId) : (bs : Branches) → (σ : Store) →
    FailsAt (BranchesReach rounds · i bs σ) (runBranches rounds i bs) σ
  | .arm c b rest, σ => by
      refine .bind (.test (.condition rfl)) fun holds σ₁ htest => ?_
      cases holds with
      | true => exact (runBlock_failsAt _ b (σ₁.child i).2).mono fun _ h => .body htest h
      | false => exact (runBranches_failsAt i rest σ₁).mono fun _ h => .rest htest h
  | .otherwise b, σ => (runBlock_failsAt _ b (σ.child i).2).mono fun _ h => .otherwise h

/-- A run of statements that fails does so at a site that it reaches. -/
theorem runBlock_failsAt {rounds : Nat} (i : ScopeId) : (b : List Stmt) → (σ : Store) →
    FailsAt (BlockReaches rounds · i b σ) (runBlock rounds i b) σ
  | [], _ => trivial
  | s :: rest, σ => by
      refine .bind ((runStmt_failsAt i s σ).mono fun _ h => .head h) fun signal σ₁ hs => ?_
      cases signal with
      | some signal => trivial
      | none => exact (runBlock_failsAt i rest σ₁).mono fun _ h => .tail hs h

end

end ScriptEngine
