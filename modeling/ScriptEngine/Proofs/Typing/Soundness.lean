import ScriptEngine.Proofs.Execution.Lockstep
import ScriptEngine.Proofs.Execution.Points
import ScriptEngine.Proofs.Typing.Expr

/-!
# Soundness of the check

A program that the check accepts, and that uses none of the gaps in it, runs in scopes whose values
conform to their types, whatever branches it takes and however many rounds its loops make. Every
expression that is evaluated on the way has a type at that point, and its value conforms to it. What can
still go wrong lies in the values, but for one thing: an assignment to a character of a string is
accepted and fails.
-/

namespace ScriptEngine

open Scopes

namespace Typing

/-- A declaration starts from an expression of the declared type. -/
def Initialised (G : TypeScopes) (j : ScopeId) (d : Decl) : Prop :=
  ∃ e, d.value = some e ∧ typeOf G j e = .ok d.type ∧ Plain G j e

/-- The faults of a checked program. -/
def Permitted (e : Error) : Prop :=
  ∃ f, e = .ofFault f ∧ (f.Dynamic ∨ f = .noItemAssignment .str)

/-- Programs that use no gap of the check, run on values that conform to their types. -/
def discipline : Discipline where
  World := ElementTypes
  le := (· <+: ·)
  holds E σ := σ.Typed E
  fits := Conforms
  expr := Plain
  decl := Initialised
  tolerates := Permitted

end Typing

open Typing

variable {E E' : ElementTypes} {v w : Value} {t u : Ty} {σ σ' : Store} {G G' : TypeScopes} {i j : ScopeId}

/-! ## The laws -/

theorem Lands.permitted {x : EStateM Error Store Value} (h : Lands E t x σ) :
    Ends x σ (fun v σ' => ∃ E', E <+: E' ∧ σ'.Typed E' ∧ Conforms E' v t)
      (fun e σ' => Permitted e ∧ ∃ E', E <+: E' ∧ σ'.Typed E') := by
  refine Ends.mono h (fun _ _ h => h) ?_
  rintro _ σ' ⟨⟨f, rfl, hf⟩, h⟩
  exact ⟨⟨f, rfl, .inl hf⟩, h⟩

/-- An element of a list is replaced by a value of its type; a string refuses the assignment. -/
theorem assignElement_conforms {b k : Expr} (ha : Agree (Conforms E) σ.scopes i G j) (hσ : σ.Typed E)
    (hp : Plain G j (.index b k)) (ht : typeOf G j (.index b k) = .ok t) (hv : Conforms E v t) :
    Ends (assign i (.index b k) v) σ (fun _ σ' => ∃ E', E <+: E' ∧ σ'.Typed E')
      (fun e σ' => Permitted e ∧ ∃ E', E <+: E' ∧ σ'.Typed E') := by
  obtain ⟨a, c, hb, hk, ht⟩ := typeOf_index_eq_ok.mp ht
  simp only [assign, Ends.bind_iff]
  refine ((eval_harmless i b σ).and (eval_lands b ha hσ hp.1 hb).permitted).mono ?_ (fun _ _ h => h.2)
  rintro base σ₁ ⟨hg, E₁, hE₁, hσ₁, hbase⟩
  have ha₁ : Agree (Conforms E₁) σ₁.scopes i G j := hg.scopes ▸ ha.mono fun _ _ => Conforms.mono hE₁
  refine Ends.mono (eval_lands k ha₁ hσ₁ hp.2 hk).permitted ?_ ?_
  · rintro index σ₂ ⟨E₂, hE₂, hσ₂, hindex⟩
    have hE : E <+: E₂ := hE₁.trans hE₂
    unfold Typing.index at ht
    split at ht
    · cases ht
    rename_i hc
    rw [Decidable.not_not] at hc
    subst hc
    split at ht
    · rename_i ha
      subst ha
      obtain ⟨s, rfl⟩ := hbase
      simp only [Ends.orFault_iff]
      refine ⟨by rintro _ ⟨⟩, ?_⟩
      rintro _ ⟨⟩
      exact ⟨⟨_, rfl, .inr rfl⟩, E₂, hE, hσ₂⟩
    · rename_i ha
      split at ht
      · rename_i hs
        cases ht
        obtain ⟨ts, rfl⟩ := (subscriptable_cases hs).resolve_left ha
        obtain ⟨l, rfl, hl⟩ := hbase.mono hE₂
        simp only [Ends.bind_iff, Ends.get_iff, Ends.orFault_iff, Ends.modify_iff]
        refine ⟨fun p _ => ⟨E₂, hE, hσ₂.setItem hl (hv.mono hE)⟩, fun f hf => ?_⟩
        obtain ⟨p, hp, _⟩ | ⟨n, hn⟩ := resolve_cases (n := (σ₂.items l).size) hindex
        · rw [hf] at hp; cases hp
        · rw [hf] at hn
          cases hn
          exact ⟨⟨_, rfl, .inl trivial⟩, E₂, hE, hσ₂⟩
      · cases ht
  · rintro e σ₂ ⟨he, E₂, hE₂, hσ₂⟩
    exact ⟨he, E₂, hE₁.trans hE₂, hσ₂⟩

theorem discipline_lawful : discipline.Lawful where
  refl _ := List.prefix_rfl
  trans h h' := List.IsPrefix.trans h h'
  fits_mono hE h := Conforms.mono hE h
  holds_congr h hl := Store.Typed.congr hl h
  null _ := rfl
  eval {_ _ _ _ _ e _} ha hσ hp ht := (eval_lands e ha hσ hp ht).permitted
  initial {_ _ _ _ _ d} ha hσ hd := by
    obtain ⟨e, he, ht, hp⟩ := hd
    rw [he]
    exact (eval_lands e ha hσ hp ht).permitted
  element ha hσ hp ht hv := assignElement_conforms ha hσ hp ht hv

/-! ## Points -/

/-- At a point of a run the frames in force bind the same names, to values that conform to the types on
the other side, and the expression has a type that its value conforms to. -/
def Point.Conforming (E : ElementTypes) (p : Point) : Prop :=
  ∃ E', E <+: E' ∧ p.store.Typed E' ∧ Agree (Conforms E') p.store.scopes p.scope p.types p.typeScope ∧
    ∃ t, typeOf p.types p.typeScope p.expr = .ok t ∧ Lands E' t (eval p.scope p.expr) p.store

theorem Point.Conforming.weaken {p : Point} (hE : E <+: E') (h : p.Conforming E') : p.Conforming E := by
  obtain ⟨E₁, hE₁, h⟩ := h
  exact ⟨E₁, hE.trans hE₁, h⟩

theorem eval_conforms {e : Expr} (ha : Agree (Conforms E) σ.scopes i G j) (hσ : σ.Typed E)
    (hp : Plain G j e) (ht : typeOf G j e = .ok t) (he : eval i e σ = .ok v σ') :
    ∃ E', E <+: E' ∧ σ'.Typed E' ∧ Conforms E' v t ∧ Agree (Conforms E') σ'.scopes i G j := by
  obtain ⟨E', hE, hσ', hv⟩ := Ends.of_ok (eval_lands e ha hσ hp ht) he
  refine ⟨E', hE, hσ', hv, ?_⟩
  rw [((eval_harmless i e σ).of_ok he).scopes]
  exact ha.mono fun _ _ => Conforms.mono hE

theorem ExprPasses.conforming {p : Point} {e : Expr} (h : ExprPasses p G j i e σ) :
    ∀ {E : ElementTypes} {t : Ty}, Agree (Conforms E) σ.scopes i G j → σ.Typed E → Plain G j e →
    typeOf G j e = .ok t → p.Conforming E := by
  induction h with
  | @here e σ hp =>
      subst hp
      intro E t ha hσ hp ht
      exact ⟨E, List.prefix_rfl, hσ, ha, t, ht, eval_lands e ha hσ hp ht⟩
  | operand _ ih =>
      intro E t ha hσ hp ht
      obtain ⟨u, hu, _⟩ := typeOf_unary_eq_ok.mp ht
      exact ih ha hσ hp.1 hu
  | left _ ih =>
      intro E t ha hσ hp ht
      obtain ⟨a, b, hl, _, _⟩ := typeOf_binary_eq_ok.mp ht
      exact ih ha hσ hp.1 hl
  | right he _ _ ih =>
      intro E t ha hσ hp ht
      obtain ⟨a, b, hl, hr, _⟩ := typeOf_binary_eq_ok.mp ht
      obtain ⟨E₁, hE, hσ₁, _, ha₁⟩ := eval_conforms ha hσ hp.1 hl he
      exact (ih ha₁ hσ₁ hp.2.1 hr).weaken hE
  | base _ ih =>
      intro E t ha hσ hp ht
      obtain ⟨a, c, hb, _, _⟩ := typeOf_index_eq_ok.mp ht
      exact ih ha hσ hp.1 hb
  | index he _ ih =>
      intro E t ha hσ hp ht
      obtain ⟨a, c, hb, hk, _⟩ := typeOf_index_eq_ok.mp ht
      obtain ⟨E₁, hE, hσ₁, _, ha₁⟩ := eval_conforms ha hσ hp.1 hb he
      exact (ih ha₁ hσ₁ hp.2 hk).weaken hE

theorem ExprPasses.inStep {p : Point} {e : Expr} (h : ExprPasses p G j i e σ)
    (hs : discipline.InStep E G j σ i) (hp : Plain G j e) (ht : typeOf G j e = .ok t) : p.Conforming E :=
  h.conforming hs.agree hs.holds hp ht

theorem DeclsPass.conforming {p : Point} {ds : List Decl} (h : DeclsPass p j i ds G σ) :
    ∀ {E : ElementTypes}, discipline.InStep E G j σ i → discipline.decls j ds G → p.Conforming E := by
  induction h with
  | here he h =>
      rintro E hs ⟨⟨e, he', ht, hp⟩, _⟩
      rw [he] at he'
      cases he'
      exact h.inStep hs hp ht
  | next he _ ih =>
      rintro E hs ⟨hd, hds⟩
      have hy := hs.yields discipline_lawful (evalOptional_harmless _)
        (discipline_lawful.initial hs.agree hs.holds hd)
      obtain ⟨E₁, hE, hs₁, hv⟩ := hy.of_ok he
      exact (ih (hs₁.define discipline_lawful hv) hds).weaken hE

theorem InStep.of_eval {e : Expr} (hs : discipline.InStep E G j σ i) (hp : Plain G j e)
    (ht : typeOf G j e = .ok t) (he : eval i e σ = .ok v σ') :
    ∃ E', E <+: E' ∧ discipline.InStep E' G j σ' i := by
  obtain ⟨E', hE, hs', _⟩ := (hs.eval discipline_lawful hp ht).of_ok he
  exact ⟨E', hE, hs'⟩

theorem InStep.of_test {e : Expr} {b : Bool} (hs : discipline.InStep E G j σ i) (hp : Plain G j e)
    (ht : typeOf G j e = .ok t) (he : test i e σ = .ok b σ') :
    ∃ E', E <+: E' ∧ discipline.InStep E' G j σ' i := by
  have h : Ends (test i e) σ (fun _ σ' => ∃ E', E <+: E' ∧ discipline.InStep E' G j σ' i)
      (fun _ _ => True) := by
    rw [Ends.test_iff]
    refine (hs.eval discipline_lawful hp ht).mono ?_ (fun _ _ _ => trivial)
    rintro v σ' ⟨E', hE, hs', _⟩
    exact ⟨E', hE, hs'⟩
  exact h.of_ok he

mutual

theorem StmtPasses.conforming {rounds : Nat} {p : Point} {E : ElementTypes} {G G' : TypeScopes}
    {j i : ScopeId} {σ : Store} {r : Option Ty} {st : Stmt} (hpass : StmtPasses rounds p j i st G σ)
    (hs : discipline.InStep E G j σ i) (hd : discipline.stmt j st G) (hc : checkStmt j st G = .ok r G') :
    p.Conforming E := by
  match hpass with
  | .block h =>
      simp only [Discipline.stmt] at hd
      rw [checkStmt_block_eq_ok] at hc
      exact h.conforming (hs.child discipline_lawful) hd hc
  | .expr h =>
      simp only [Discipline.stmt] at hd
      obtain ⟨⟨t, ht⟩, _⟩ := checkStmt_expr_eq_ok.mp hc
      exact h.inStep hs hd ht
  | .branch h =>
      simp only [Discipline.stmt] at hd
      simp only [checkStmt] at hc
      exact h.conforming hs hd hc
  | .condition h =>
      simp only [Discipline.stmt] at hd
      obtain ⟨⟨t, ht⟩, _⟩ := checkStmt_loop_eq_ok.mp hc
      exact h.inStep hs hd.1 ht
  | .body hb h =>
      simp only [Discipline.stmt] at hd
      obtain ⟨⟨t, ht⟩, hc⟩ := checkStmt_loop_eq_ok.mp hc
      obtain ⟨E₁, hE, hs₁⟩ := InStep.of_test hs hd.1 ht hb
      exact (h.conforming (hs₁.child discipline_lawful) hd.2 hc).weaken hE
  | .again hb hrun hsignal h =>
      have hd' := hd
      simp only [Discipline.stmt] at hd'
      obtain ⟨⟨t, ht⟩, hc'⟩ := checkStmt_loop_eq_ok.mp hc
      obtain ⟨E₁, hE, hs₁⟩ := InStep.of_test hs hd'.1 ht hb
      have hbody := Discipline.runBlock_inStep discipline_lawful rounds _ (hs₁.child discipline_lawful) hd'.2 hc'
      obtain ⟨E₂, hE', hs₂, _⟩ := (hs₁.body hc' hbody).of_ok hrun
      have hk := checkBody_keeps hs.typeScope hc'
      exact (h.conforming (hs₂.untype hk hs.types hs.typeScope) hd hc).weaken (hE.trans hE')
  | .declare h =>
      simp only [Discipline.stmt] at hd
      exact h.conforming hs hd
  | .value h =>
      simp only [Discipline.stmt] at hd
      obtain ⟨_, ⟨t, _, hv⟩, _⟩ := checkStmt_assign_eq_ok.mp hc
      exact h.inStep hs hd.2 hv
  | .base he h =>
      simp only [Discipline.stmt] at hd
      obtain ⟨_, ⟨t, ht, hv⟩, _⟩ := checkStmt_assign_eq_ok.mp hc
      obtain ⟨a, c, hb, _, _⟩ := typeOf_index_eq_ok.mp ht
      obtain ⟨E₁, hE, hs₁⟩ := InStep.of_eval hs hd.2 hv he
      exact (h.inStep hs₁ hd.1.1 hb).weaken hE
  | .index he hbase h =>
      simp only [Discipline.stmt] at hd
      obtain ⟨_, ⟨t, ht, hv⟩, _⟩ := checkStmt_assign_eq_ok.mp hc
      obtain ⟨a, c, hb, hk, _⟩ := typeOf_index_eq_ok.mp ht
      obtain ⟨E₁, hE, hs₁⟩ := InStep.of_eval hs hd.2 hv he
      obtain ⟨E₂, hE', hs₂⟩ := InStep.of_eval hs₁ hd.1.1 hb hbase
      exact (h.inStep hs₂ hd.1.2 hk).weaken (hE.trans hE')
  | .ret h =>
      simp only [Discipline.stmt] at hd
      obtain ⟨t, ht, _⟩ := checkStmt_ret_eq_ok.mp hc
      exact h.inStep hs hd ht

theorem BranchesPass.conforming {rounds : Nat} {p : Point} {E : ElementTypes} {G G' : TypeScopes}
    {j i : ScopeId} {σ : Store} {sofar r : Option Ty} {bs : Branches}
    (hpass : BranchesPass rounds p j i bs G σ) (hs : discipline.InStep E G j σ i)
    (hd : discipline.branches j bs G) (hc : checkBranches j sofar bs G = .ok r G') : p.Conforming E := by
  match hpass with
  | .condition h =>
      simp only [Discipline.branches] at hd
      obtain ⟨⟨t, ht⟩, _⟩ := checkBranches_arm_eq_ok.mp hc
      exact h.inStep hs hd.1 ht
  | .body hb h =>
      simp only [Discipline.branches] at hd
      obtain ⟨⟨t, ht⟩, found, G₁, m, hc, _⟩ := checkBranches_arm_eq_ok.mp hc
      obtain ⟨E₁, hE, hs₁⟩ := InStep.of_test hs hd.1 ht hb
      exact (h.conforming (hs₁.child discipline_lawful) hd.2.1 hc).weaken hE
  | .rest hb hc₁ h =>
      simp only [Discipline.branches] at hd
      obtain ⟨⟨t, ht⟩, found, G₁, m, hfound, _, hrest⟩ := checkBranches_arm_eq_ok.mp hc
      rw [hc₁] at hfound
      cases hfound
      obtain ⟨E₁, hE, hs₁⟩ := InStep.of_test hs hd.1 ht hb
      have hk := checkBody_keeps hs.typeScope hc₁
      exact (h.conforming (hs₁.retype hk) (hd.2.2 _ _ hc₁) hrest).weaken hE
  | .otherwise h =>
      simp only [Discipline.branches] at hd
      obtain ⟨found, hc, _⟩ := checkBranches_otherwise_eq_ok.mp hc
      exact h.conforming (hs.child discipline_lawful) hd hc

theorem BlockPasses.conforming {rounds : Nat} {p : Point} {E : ElementTypes} {G G' : TypeScopes}
    {j i : ScopeId} {σ : Store} {sofar r : Option Ty} {b : List Stmt}
    (hpass : BlockPasses rounds p j i b G σ) (hs : discipline.InStep E G j σ i)
    (hd : discipline.block j b G) (hc : checkBlock j sofar b G = .ok r G') : p.Conforming E := by
  match hpass with
  | .head h =>
      simp only [Discipline.block] at hd
      obtain ⟨found, G₁, m, hc, _⟩ := checkBlock_cons_eq_ok.mp hc
      exact h.conforming hs hd.1 hc
  | .tail hc₁ hrun h =>
      simp only [Discipline.block] at hd
      obtain ⟨found, G₁, m, hst, _, hrest⟩ := checkBlock_cons_eq_ok.mp hc
      rw [hc₁] at hst
      cases hst
      have hgo := (Discipline.runStmt_inStep discipline_lawful rounds _ hs hd.1 hc₁).of_ok hrun
      obtain ⟨E₁, hE, hs₁⟩ := hgo
      exact (h.conforming hs₁ (hd.2 _ _ hc₁) hrest).weaken hE

end

/-! ## Programs -/

/-- A checked program that uses no gap of the check, started in scopes that bind the same names to
conforming values, meets only points at which values conform to types. If it falls through, its scope
conforms to what the check leaves, and what it returns conforms to the type of its returns; it fails only
with permitted faults. -/
theorem checked_run_conforms {b : List Stmt} {r : Option Ty} (rounds : Nat) (hG : G.WellFormed)
    (hj : G.Has j) (hs : σ.scopes.WellFormed) (hi : σ.scopes.Has i)
    (ha : Agree (Conforms E) σ.scopes i G j) (hσ : σ.Typed E) (hd : discipline.block j b G)
    (hc : check j b G = .ok r G') :
    (∀ p, BlockPasses rounds p j i b G σ → p.Conforming E) ∧
    Ends (runBlock rounds i b) σ
      (fun signal σ' => ∃ E', E <+: E' ∧ σ'.Typed E' ∧
        FramesAgree (Conforms E') σ'.scopes G' (σ'.scopes.outer i) (G'.outer j) ∧
        (signal = none → Agree (Conforms E') σ'.scopes i G' j) ∧
        ∀ v, signal = some (.ret v) → ∃ t, r = some t ∧ Conforms E' v t)
      (fun a σ' => (∀ e, a = .error e → Permitted e) ∧ ∃ E', E <+: E' ∧ σ'.Typed E' ∧
        FramesAgree (Conforms E') σ'.scopes G' (σ'.scopes.outer i) (G'.outer j)) := by
  have hin : discipline.InStep E G j σ i := ⟨hG, hj, hs, hi, ha, hσ⟩
  refine ⟨fun p hp => hp.conforming hin hd hc, ?_⟩
  refine (Discipline.runBlock_inStep discipline_lawful rounds b hin hd hc).mono ?_ ?_
  · intro signal σ' h
    match signal, h with
    | none, ⟨E', hE, h⟩ =>
        exact ⟨E', hE, h.holds, h.agree.outer, fun _ => h.agree, fun _ => (nomatch ·)⟩
    | some (.ret v), ⟨E', hE, h, hv⟩ =>
        exact ⟨E', hE, h.holds, h.outer, (nomatch ·), by rintro _ ⟨⟩; exact hv⟩
    | some .break, ⟨E', hE, h⟩ => exact ⟨E', hE, h.holds, h.outer, (nomatch ·), fun _ => (nomatch ·)⟩
    | some .continue, ⟨E', hE, h⟩ => exact ⟨E', hE, h.holds, h.outer, (nomatch ·), fun _ => (nomatch ·)⟩
  · rintro a σ' ⟨he, E', hE, h⟩
    exact ⟨he, E', hE, h.holds, h.outer⟩

/-- One list under two names:
`let ys: list<int> = xs; while xs[0] < 3 { ys[0] = xs[0] + 1; } return ys;`. -/
def countThroughAlias : List Stmt :=
  let first (x : String) : Expr := .index (.var x) (.constant (.int 0))
  [.declare [⟨"ys", .list .int, some (.var "xs")⟩],
    .loop (.binary .lt (first "xs") (.constant (.int 3)))
      [.assign (first "ys") (.binary .add (first "xs") (.constant (.int 1)))],
    .ret (some (.var "ys"))]

theorem regular_int {op : BinaryOp} (h : op ≠ .div) : Regular op .int .int :=
  ⟨fun h' => absurd h' h, fun _ => by decide, fun _ _ _ => rfl⟩

theorem countThroughAlias_keeps :
    discipline.block ⟨0⟩ countThroughAlias (Scopes.empty.root.2.define ⟨0⟩ "xs" (.list .int)) := by
  refine ⟨⟨⟨.var "xs", rfl, rfl, trivial⟩, trivial⟩, ?_⟩
  rintro _ _ ⟨⟩
  refine ⟨⟨⟨⟨trivial, trivial⟩, trivial, ?_⟩, ⟨⟨trivial, trivial⟩, ⟨trivial, trivial⟩, trivial, ?_⟩, ?_⟩, ?_⟩
  · rintro t u ⟨⟩ ⟨⟩
    exact regular_int (by decide)
  · rintro t u ⟨⟩ ⟨⟩
    exact regular_int (by decide)
  · exact fun _ _ _ => trivial
  · rintro _ _ ⟨⟩
    exact ⟨trivial, fun _ _ _ => trivial⟩

/-- The program is accepted and returns a list, started with a list of one integer. -/
theorem aliased_run_conforms :
    (∃ G', check ⟨0⟩ countThroughAlias (Scopes.empty.root.2.define ⟨0⟩ "xs" (.list .int)) =
      .ok (some (.list .int)) G') ∧
    ∀ rounds, Ends (runBlock rounds ⟨0⟩ countThroughAlias)
      ⟨Scopes.empty.root.2.define ⟨0⟩ "xs" (.list ⟨0⟩), #[#[.int 1]], #[]⟩
      (fun signal _ => ∀ v, signal = some (.ret v) → ∃ l, v = .list l)
      (fun a _ => ∀ e, a = .error e → Permitted e) := by
  refine ⟨⟨_, rfl⟩, fun rounds => ?_⟩
  have hlist : Conforms [.int] (.list ⟨0⟩) (.list .int) := ⟨⟨0⟩, rfl, rfl⟩
  have hroot : ∀ {V F : Type}, (Scopes.empty : Scopes V F).root.2.WellFormed := WellFormed.empty.root
  have hhas : ∀ {V F : Type}, (Scopes.empty : Scopes V F).root.2.Has ⟨0⟩ := Nat.lt_add_one 0
  have hnone : Store.Typed [] ⟨Scopes.empty.root.2.define ⟨0⟩ "xs" (.list ⟨0⟩), #[], #[]⟩ :=
    ⟨rfl, fun h => by simp at h⟩
  have hone := hnone.newList (t := .int) (fun v (hv : v ∈ #[.int 1]) => ⟨1, by simpa using hv⟩)
  have hrun := (checked_run_conforms rounds hroot.define (has_define.mpr hhas) hroot.define
    (has_define.mpr hhas) (Agree.root.define hroot hroot hhas hhas hlist) hone countThroughAlias_keeps rfl).2
  refine hrun.mono ?_ (fun _ _ h => h.1)
  rintro signal σ' ⟨E', _, _, _, _, hret⟩ v hv
  obtain ⟨t, ht, hvt⟩ := hret v hv
  cases ht
  obtain ⟨l, hl, _⟩ := hvt
  exact ⟨l, hl⟩

end ScriptEngine
