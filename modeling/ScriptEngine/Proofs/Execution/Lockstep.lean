import ScriptEngine.Proofs.Execution.Effect
import ScriptEngine.Proofs.Scope.Agreement
import ScriptEngine.Proofs.Typing.Effect

/-!
# Checking and running in step

The check of a program and its run open scopes and bind names at the same places, although the run
leaves code out, repeats the bodies of loops in new scopes and stops early. This is shown once, for any
discipline: a discipline says what is asked of the expressions and declarations of a program, how values
fit the types they are bound at, and which errors are tolerated. Its laws are about expressions and
single assignments alone.
-/

namespace ScriptEngine

open Scopes

/-- What is asked of a program, and what is known while it runs. The worlds are stages of what is known
about the store. -/
structure Discipline where
  World : Type
  le : World → World → Prop
  holds : World → Store → Prop
  fits : World → Value → Ty → Prop
  expr : TypeScopes → ScopeId → Expr → Prop
  decl : TypeScopes → ScopeId → Decl → Prop
  tolerates : Error → Prop

namespace Discipline

variable (D : Discipline)

/-! ## Programs that keep to a discipline -/

/-- Every declaration is asked for in the type scope that has the ones before it. -/
def decls (j : ScopeId) : List Decl → TypeScopes → Prop
  | [], _ => True
  | d :: ds, G => D.decl G j d ∧ decls j ds (G.define j d.name d.type)

mutual

/-- A statement keeps to the discipline in the type scope `j`. The type scope that a part of it stands
in is the one that its check is made in. -/
def stmt (j : ScopeId) : Stmt → TypeScopes → Prop
  | .block body, G => block (G.child j).1 body (G.child j).2
  | .expr e, G => D.expr G j e
  | .branch bs, G => branches j bs G
  | .loop c body, G => D.expr G j c ∧ block (G.child j).1 body (G.child j).2
  | .declare ds, G => D.decls j ds G
  | .assign target e, G => D.expr G j target ∧ D.expr G j e
  | .ret (some e), G => D.expr G j e
  | .ret none, _ => True
  | .noop, _ => True
  | .break, _ => True
  | .continue, _ => True

def branches (j : ScopeId) : Branches → TypeScopes → Prop
  | .arm c body rest, G => D.expr G j c ∧ block (G.child j).1 body (G.child j).2 ∧
      ∀ r G', checkBlock (G.child j).1 none body (G.child j).2 = .ok r G' → branches j rest G'
  | .otherwise body, G => block (G.child j).1 body (G.child j).2

/-- Statements keep to the discipline, each in the type scope that the check of those before it
leaves. -/
def block (j : ScopeId) : List Stmt → TypeScopes → Prop
  | [], _ => True
  | st :: rest, G => stmt j st G ∧ ∀ r G', checkStmt j st G = .ok r G' → block j rest G'

end

/-! ## Laws -/

/-- Evaluating `x` yields a value that fits `t`, or an error that is tolerated. -/
def Yields (w : D.World) (x : EStateM Error Store Value) (σ : Store) (t : Ty) : Prop :=
  Ends x σ (fun v σ' => ∃ w', D.le w w' ∧ D.holds w' σ' ∧ D.fits w' v t)
    (fun e σ' => D.tolerates e ∧ ∃ w', D.le w w' ∧ D.holds w' σ')

/-- What a discipline has to fulfil. -/
structure Lawful : Prop where
  refl : ∀ w, D.le w w
  trans : ∀ {w w' w''}, D.le w w' → D.le w' w'' → D.le w w''
  fits_mono : ∀ {w w' v t}, D.le w w' → D.fits w v t → D.fits w' v t
  holds_congr : ∀ {w} {σ σ' : Store}, D.holds w σ → σ'.lists = σ.lists → D.holds w σ'
  null : ∀ w, D.fits w .null .null
  eval : ∀ {w G j σ i e t}, Agree (D.fits w) σ.scopes i G j → D.holds w σ → D.expr G j e →
    typeOf G j e = .ok t → D.Yields w (eval i e) σ t
  initial : ∀ {w G j σ i d}, Agree (D.fits w) σ.scopes i G j → D.holds w σ → D.decl G j d →
    D.Yields w (evalOptional i d.value) σ d.type
  element : ∀ {w G j σ i b k v t}, Agree (D.fits w) σ.scopes i G j → D.holds w σ →
    D.expr G j (.index b k) → typeOf G j (.index b k) = .ok t → D.fits w v t →
    Ends (assign i (.index b k) v) σ (fun _ σ' => ∃ w', D.le w w' ∧ D.holds w' σ')
      (fun e σ' => D.tolerates e ∧ ∃ w', D.le w w' ∧ D.holds w' σ')


/-! ## A store in step with type scopes -/

/-- The scope `i` of the store and the type scope `j` bind the same names frame by frame, to values that
fit their types. -/
structure InStep (w : D.World) (G : TypeScopes) (j : ScopeId) (σ : Store) (i : ScopeId) : Prop where
  types : G.WellFormed
  typeScope : G.Has j
  scopes : σ.scopes.WellFormed
  scope : σ.scopes.Has i
  agree : Agree (D.fits w) σ.scopes i G j
  holds : D.holds w σ

/-- What is left of it when a run stops early: the scopes around are in step, and the scope itself binds
no name that the whole program would not bind there. -/
structure Left (w : D.World) (G : TypeScopes) (j : ScopeId) (σ : Store) (i : ScopeId) : Prop where
  types : G.WellFormed
  typeScope : G.Has j
  scopes : σ.scopes.WellFormed
  scope : σ.scopes.Has i
  outer : FramesAgree (D.fits w) σ.scopes G (σ.scopes.outer i) (G.outer j)
  names : ∀ x, σ.scopes.binds i x = true → G.binds j x = true
  holds : D.holds w σ

variable {D} {w w' : D.World} {G G' : TypeScopes} {σ σ' : Store} {i j : ScopeId}

theorem InStep.left (h : D.InStep w G j σ i) : D.Left w G j σ i where
  types := h.types
  typeScope := h.typeScope
  scopes := h.scopes
  scope := h.scope
  outer := h.agree.outer
  names x hx := by rw [← h.agree.own.binds_eq x]; exact hx
  holds := h.holds

theorem InStep.grow (L : D.Lawful) (hs : σ'.scopes = σ.scopes) (hw : D.le w w') (hh : D.holds w' σ')
    (h : D.InStep w G j σ i) : D.InStep w' G j σ' i where
  types := h.types
  typeScope := h.typeScope
  scopes := hs ▸ h.scopes
  scope := hs ▸ h.scope
  agree := hs ▸ h.agree.mono fun _ _ => L.fits_mono hw
  holds := hh

theorem InStep.child (L : D.Lawful) (h : D.InStep w G j σ i) :
    D.InStep w (G.child j).2 (G.child j).1 (σ.child i).2 (σ.child i).1 where
  types := h.types.child h.typeScope
  typeScope := has_child.mpr (.inr rfl)
  scopes := h.scopes.child h.scope
  scope := has_child.mpr (.inr rfl)
  agree := h.agree.child
  holds := L.holds_congr h.holds rfl

theorem InStep.define (L : D.Lawful) {x : String} {v : Value} {t : Ty} (hv : D.fits w v t)
    (h : D.InStep w G j σ i) :
    D.InStep w (G.define j x t) j (σ.mapScopes (·.define i x v)) i where
  types := h.types.define
  typeScope := has_define.mpr h.typeScope
  scopes := h.scopes.define
  scope := has_define.mpr h.scope
  agree := h.agree.define h.scopes h.types h.scope h.typeScope hv
  holds := L.holds_congr h.holds rfl

theorem InStep.set (L : D.Lawful) {x : String} {v : Value} {t : Ty} {k : ScopeId}
    (hk : σ.scopes.owner? i x = some k) (ht : G.find? j x = some t) (hv : D.fits w v t)
    (h : D.InStep w G j σ i) : D.InStep w G j (σ.mapScopes (·.define k x v)) i where
  types := h.types
  typeScope := h.typeScope
  scopes := h.scopes.define
  scope := has_define.mpr h.scope
  agree := h.agree.set h.scopes h.scope hk ht hv
  holds := L.holds_congr h.holds rfl

/-! ## Type scopes that change -/

theorem chain_eq_of_keeps {V F : Type} {P : ScopeId → Prop} {s s' : Scopes V F} {k : ScopeId}
    (hs : Keeps P s s') (hk : s.Has k) : s'.chain k = s.chain k := by
  rw [chain, chain, hs.outer k hk]

theorem InStep.retype (hk : Keeps (fun _ => True) G G') (h : D.InStep w G j σ i) :
    D.InStep w G' j σ i where
  types := hk.wellFormed h.types
  typeScope := hk.has j h.typeScope
  scopes := h.scopes
  scope := h.scope
  agree := h.agree.congr rfl (hk.outer j h.typeScope) (fun _ _ _ => rfl) fun k hkc =>
    hk.vars k (h.types.has_of_mem_chain h.typeScope hkc) trivial
  holds := h.holds

theorem InStep.untype (hk : Keeps (fun _ => True) G G') (hG : G.WellFormed) (hj : G.Has j)
    (h : D.InStep w G' j σ i) : D.InStep w G j σ i where
  types := hG
  typeScope := hj
  scopes := h.scopes
  scope := h.scope
  agree := h.agree.congr rfl (hk.outer j hj).symm (fun _ _ _ => rfl) fun k hkc x =>
    (hk.vars k (hG.has_of_mem_chain hj (chain_eq_of_keeps hk hj ▸ hkc)) trivial x).symm
  holds := h.holds

/-- The rest of a program adds names to its own scope at most. -/
theorem Left.retype (hk : Keeps (· ≠ j) G G') (h : D.Left w G j σ i) : D.Left w G' j σ i where
  types := hk.wellFormed h.types
  typeScope := hk.has j h.typeScope
  scopes := h.scopes
  scope := h.scope
  outer := by
    rw [hk.outer j h.typeScope]
    refine FramesAgree.congr (fun _ _ _ => rfl) (fun k hkc => ?_) h.outer
    refine hk.vars k (h.types.has_of_mem_chain h.typeScope (List.mem_cons_of_mem _ hkc)) ?_
    exact fun e => h.types.not_mem_outer h.typeScope (e ▸ hkc)
  names x hx := hk.names j x (h.names x hx)
  holds := h.holds

/-- Once a body is left, the scope around it is in step, however the body ended. -/
theorem Left.parent {P Q : ScopeId → Prop} (hG : Keeps P (G.child j).2 G')
    (hσ : Keeps Q (σ.scopes.child i).2 σ'.scopes) (h₀ : D.InStep w G j σ i)
    (h : D.Left w' G' (G.child j).1 σ' (σ.child i).1) : D.InStep w' G' j σ' i where
  types := h.types
  typeScope := hG.has j (has_child.mpr (.inl h₀.typeScope))
  scopes := h.scopes
  scope := hσ.has i (has_child.mpr (.inl h₀.scope))
  agree := by
    have hi : σ'.scopes.outer (σ.child i).1 = σ'.scopes.chain i := by
      rw [chain_eq_of_keeps hσ (has_child.mpr (.inl h₀.scope)),
        chain_eq_of_keeps (Keeps.child (P := Q) h₀.scope) h₀.scope]
      exact (hσ.outer _ (has_child.mpr (.inr rfl))).trans outer_child
    have hj : G'.outer (G.child j).1 = G'.chain j := by
      rw [chain_eq_of_keeps hG (has_child.mpr (.inl h₀.typeScope)),
        chain_eq_of_keeps (Keeps.child (P := P) h₀.typeScope) h₀.typeScope]
      exact (hG.outer _ (has_child.mpr (.inr rfl))).trans outer_child
    have ho := h.outer
    rw [hi, hj] at ho
    exact ho
  holds := h.holds

/-! ## How a run ends -/

/-- A run that falls through is in step with what the check leaves. One that ends with a signal has left
the scopes around it in step, and what it returns fits the type of the returns. -/
def Goes (w : D.World) (G : TypeScopes) (j i : ScopeId) (r : Option Ty) : Option Signal → Store → Prop
  | none, σ' => ∃ w', D.le w w' ∧ D.InStep w' G j σ' i
  | some (.ret v), σ' => ∃ w', D.le w w' ∧ D.Left w' G j σ' i ∧ ∃ t, r = some t ∧ D.fits w' v t
  | some _, σ' => ∃ w', D.le w w' ∧ D.Left w' G j σ' i

/-- A run that is stopped met a tolerated error or took too many rounds. -/
def Stops (w : D.World) (G : TypeScopes) (j i : ScopeId) (a : Abort) (σ' : Store) : Prop :=
  (∀ e, a = .error e → D.tolerates e) ∧ ∃ w', D.le w w' ∧ D.Left w' G j σ' i

theorem Goes.of_le (L : D.Lawful) (hw : D.le w w') {r : Option Ty} {signal : Option Signal}
    (h : Goes w' G j i r signal σ') : Goes w G j i r signal σ' := by
  match signal, h with
  | none, ⟨w₂, hle, h⟩ => exact ⟨w₂, L.trans hw hle, h⟩
  | some (.ret v), ⟨w₂, hle, h⟩ => exact ⟨w₂, L.trans hw hle, h⟩
  | some .break, ⟨w₂, hle, h⟩ => exact ⟨w₂, L.trans hw hle, h⟩
  | some .continue, ⟨w₂, hle, h⟩ => exact ⟨w₂, L.trans hw hle, h⟩

theorem Stops.of_le (L : D.Lawful) (hw : D.le w w') {a : Abort} (h : Stops w' G j i a σ') :
    Stops w G j i a σ' := by
  obtain ⟨he, w₂, hle, h⟩ := h
  exact ⟨he, w₂, L.trans hw hle, h⟩

theorem Stops.retype (hk : Keeps (· ≠ j) G G') {a : Abort} (h : Stops w G j i a σ') :
    Stops w G' j i a σ' := by
  obtain ⟨he, w₂, hle, h⟩ := h
  exact ⟨he, w₂, hle, h.retype hk⟩

/-- A signal goes on through the rest of the program, whose returns have the same type. -/
theorem Goes.signal (hk : Keeps (· ≠ j) G G') {r r' : Option Ty} (hr : ∀ t, r = some t → r' = some t)
    {signal : Signal} (h : Goes w G j i r (some signal) σ') : Goes w G' j i r' (some signal) σ' := by
  match signal, h with
  | .ret v, ⟨w₂, hle, h, t, ht, hv⟩ => exact ⟨w₂, hle, h.retype hk, t, hr t ht, hv⟩
  | .break, ⟨w₂, hle, h⟩ => exact ⟨w₂, hle, h.retype hk⟩
  | .continue, ⟨w₂, hle, h⟩ => exact ⟨w₂, hle, h.retype hk⟩

theorem InStep.yields (L : D.Lawful) {x : EStateM Error Store Value} {t : Ty} (hx : Harmless x)
    (h : D.InStep w G j σ i) (hy : D.Yields w x σ t) :
    Ends x σ (fun v σ' => ∃ w', D.le w w' ∧ D.InStep w' G j σ' i ∧ D.fits w' v t)
      (fun e σ' => Stops w G j i (.error e) σ') := by
  refine ((hx σ).and hy).mono ?_ ?_
  · rintro v σ' ⟨hg, w', hle, hh, hv⟩
    exact ⟨w', hle, h.grow L hg.scopes hle hh, hv⟩
  · rintro e σ' ⟨hg, ht, w', hle, hh⟩
    refine ⟨?_, w', hle, (h.grow L hg.scopes hle hh).left⟩
    rintro _ ⟨⟩
    exact ht

theorem InStep.eval (L : D.Lawful) {e : Expr} {t : Ty} (h : D.InStep w G j σ i) (he : D.expr G j e)
    (ht : typeOf G j e = .ok t) :
    Ends (eval i e) σ (fun v σ' => ∃ w', D.le w w' ∧ D.InStep w' G j σ' i ∧ D.fits w' v t)
      (fun e σ' => Stops w G j i (.error e) σ') :=
  h.yields L (eval_harmless i e) (L.eval h.agree h.holds he ht)

theorem InStep.declare (L : D.Lawful) : {w : D.World} → {G : TypeScopes} → {σ : Store} →
    (ds : List Decl) → D.InStep w G j σ i → D.decls j ds G →
    Ends (declare i ds) σ
      (fun _ σ' => ∃ w', D.le w w' ∧ D.InStep w' (G.defineAll j (ds.map fun d => (d.name, d.type))) j σ' i)
      (Stops w (G.defineAll j (ds.map fun d => (d.name, d.type))) j i)
  | w, _, _, [], h, _ => ⟨w, L.refl w, h⟩
  | w, G, _, d :: ds, h, ⟨hd, hds⟩ => by
      simp only [ScriptEngine.declare, Ends.bind_iff, Ends.ofEval_iff, Ends.define_iff]
      have hy := L.initial h.agree h.holds hd
      refine (h.yields L (evalOptional_harmless d.value) hy).mono ?_ ?_
      · rintro v σ₁ ⟨w₁, hle, h₁, hv⟩
        refine (InStep.declare L ds (h₁.define L (x := d.name) hv) hds).mono ?_ ?_
        · rintro _ σ₂ ⟨w₂, hle₂, h₂⟩
          exact ⟨w₂, L.trans hle hle₂, h₂⟩
        · intro a σ₂ h₂
          exact h₂.of_le L hle
      · intro e σ₁ h₁
        have hk : Keeps (· ≠ j) G (G.defineAll j ((d :: ds).map fun d => (d.name, d.type))) :=
          .defineAll h.typeScope
        exact h₁.retype hk

theorem InStep.assign (L : D.Lawful) {target : Expr} {v : Value} {t : Ty} (hp : target.isPlace = true)
    (h : D.InStep w G j σ i) (he : D.expr G j target) (ht : typeOf G j target = .ok t)
    (hv : D.fits w v t) :
    Ends (assign i target v) σ (fun _ σ' => ∃ w', D.le w w' ∧ D.InStep w' G j σ' i)
      (fun e σ' => Stops w G j i (.error e) σ') := by
  cases target with
  | var x =>
      have hx : G.find? j x = some t := by
        simp only [typeOf, find] at ht
        cases hf : G.find? j x <;> rw [hf] at ht <;> cases ht
        rfl
      have ho : (σ.scopes.owner? i x).isSome = true := by
        have hr := h.agree.find? x
        rw [hx] at hr
        rw [owner?_isSome]
        cases hs : σ.scopes.find? i x with
        | none => rw [hs] at hr; cases hr
        | some v => rfl
      obtain ⟨k, hk⟩ := Option.isSome_iff_exists.mp ho
      simp only [ScriptEngine.assign, writeVar, Ends.bind_iff, Ends.get_iff, hk, Ends.modify_iff]
      exact ⟨w, L.refl w, h.set L hk hx hv⟩
  | index b k =>
      refine ((assignElement_fills b k v σ).and (L.element h.agree h.holds he ht hv)).mono ?_ ?_
      · rintro _ σ' ⟨hs, w', hle, hh⟩
        exact ⟨w', hle, h.grow L hs.scopes hle hh⟩
      · rintro e σ' ⟨hs, ht, w', hle, hh⟩
        refine ⟨?_, w', hle, (h.grow L hs.scopes hle hh).left⟩
        rintro _ ⟨⟩
        exact ht
  | constant l => cases hp
  | unary op e => cases hp
  | binary op l r => cases hp

/-! ## Bodies -/

/-- A body has been left, with or without a signal, and the scope around it is in step. -/
def Returns (w : D.World) (G : TypeScopes) (j i : ScopeId) (r : Option Ty) (signal : Option Signal)
    (σ' : Store) : Prop :=
  ∃ w', D.le w w' ∧ D.InStep w' G j σ' i ∧
    ∀ v, signal = some (.ret v) → ∃ t, r = some t ∧ D.fits w' v t

theorem Returns.goes {r : Option Ty} {signal : Option Signal} (h : Returns w G j i r signal σ') :
    Goes w G j i r signal σ' := by
  obtain ⟨w', hle, h, hv⟩ := h
  match signal with
  | none => exact ⟨w', hle, h⟩
  | some (.ret v) => exact ⟨w', hle, h.left, hv v rfl⟩
  | some .break => exact ⟨w', hle, h.left⟩
  | some .continue => exact ⟨w', hle, h.left⟩

theorem Goes.left {r : Option Ty} {signal : Option Signal}
    (h : Goes w G j i r signal σ') :
    ∃ w', D.le w w' ∧ D.Left w' G j σ' i ∧
      ∀ v, signal = some (.ret v) → ∃ t, r = some t ∧ D.fits w' v t := by
  match signal, h with
  | none, ⟨w', hle, h⟩ => exact ⟨w', hle, h.left, fun _ => (nomatch ·)⟩
  | some .break, ⟨w', hle, h⟩ => exact ⟨w', hle, h, fun _ => (nomatch ·)⟩
  | some .continue, ⟨w', hle, h⟩ => exact ⟨w', hle, h, fun _ => (nomatch ·)⟩
  | some (.ret v), ⟨w', hle, h, hv⟩ => exact ⟨w', hle, h, by rintro _ ⟨⟩; exact hv⟩

/-- A body that runs in step in a scope of its own leaves the scope around it in step. -/
theorem InStep.body {rounds : Nat} {b : List Stmt} {r : Option Ty}
    (h : D.InStep w G j σ i) (hc : checkBlock (G.child j).1 none b (G.child j).2 = .ok r G')
    (hb : Ends (runBlock rounds (σ.child i).1 b) (σ.child i).2 (Goes w G' (G.child j).1 (σ.child i).1 r)
      (Stops w G' (G.child j).1 (σ.child i).1)) :
    Ends (do runBlock rounds (← Exec.enter i) b) σ (Returns w G' j i r) (fun a σ' =>
      (∀ e, a = .error e → D.tolerates e) ∧ ∃ w', D.le w w' ∧ D.InStep w' G' j σ' i) := by
  have hG := (checkBlock_keeps none (has_child.mpr (.inr rfl)) b).of_ok hc
  have hr : Ends (runBlock rounds (σ.child i).1 b) (σ.child i).2
      (fun _ σ' => (σ.child i).2.RunsIn (σ.child i).1 σ')
      (fun _ σ' => (σ.child i).2.RunsIn (σ.child i).1 σ') :=
    runBlock_confined b _ (has_child.mpr (.inr rfl))
  simp only [Ends.bind_iff, Ends.enter_iff]
  refine (hb.and hr).mono ?_ ?_
  · rintro signal σ' ⟨hgo, hrun⟩
    obtain ⟨w', hle, hl, hv⟩ := hgo.left
    exact ⟨w', hle, hl.parent hG hrun.keeps h, hv⟩
  · rintro a σ' ⟨⟨he, w', hle, hl⟩, hrun⟩
    exact ⟨he, w', hle, hl.parent hG hrun.keeps h⟩

/-! ## Statements -/

/-- A loop stays in step round by round: each body is checked once and run in a scope of its own, and
what its check adds to the type scopes is not in force where the condition stands. -/
theorem InStep.loop (L : D.Lawful) {rounds n : Nat} {c : Expr} {b : List Stmt} {t : Ty} {r : Option Ty}
    (h : D.InStep w G j σ i) (he : D.expr G j c) (ht : typeOf G j c = .ok t)
    (hc : checkBlock (G.child j).1 none b (G.child j).2 = .ok r G')
    (hb : ∀ w' σ', D.le w w' → D.InStep w' G j σ' i →
      Ends (do runBlock rounds (← Exec.enter i) b) σ' (Returns w' G' j i r) (fun a σ'' =>
        (∀ e, a = .error e → D.tolerates e) ∧ ∃ w'', D.le w' w'' ∧ D.InStep w'' G' j σ'' i)) :
    Ends (repeatWhile (test i c) (do runBlock rounds (← Exec.enter i) b) n) σ (Goes w G' j i r)
      (Stops w G' j i) := by
  have hk := checkBody_keeps h.typeScope hc
  -- Before and inside a round the store is in step with the type scopes that the loop was met with.
  let I : Store → Prop := fun σ' => ∃ w', D.le w w' ∧ D.InStep w' G j σ' i
  refine Ends.repeatWhile (I := I) (J := I) ?_ ?_ ?_ n σ ⟨w, L.refl w, h⟩
  · rintro σ₁ ⟨w₁, hle, h₁⟩
    simp only [Ends.test_iff]
    refine (h₁.eval L he ht).mono ?_ ?_
    · rintro v σ₂ ⟨w₂, hle₂, h₂, _⟩
      split
      · exact ⟨w₂, L.trans hle hle₂, h₂⟩
      · exact ⟨w₂, L.trans hle hle₂, h₂.retype hk⟩
    · intro e σ₂ h₂
      exact (h₂.of_le L hle).retype (hk.mono fun _ _ _ => trivial)
  · rintro σ₁ ⟨w₁, hle, h₁⟩
    refine (hb w₁ σ₁ hle h₁).mono ?_ ?_
    · rintro signal σ₂ ⟨w₂, hle₂, h₂, hv⟩
      rcases signal with _ | (v | _ | _)
      · exact ⟨w₂, L.trans hle hle₂, h₂.untype hk h.types h.typeScope⟩
      · exact ⟨w₂, L.trans hle hle₂, h₂.left, hv v rfl⟩
      · exact ⟨w₂, L.trans hle hle₂, h₂⟩
      · exact ⟨w₂, L.trans hle hle₂, h₂.untype hk h.types h.typeScope⟩
    · rintro a σ₂ ⟨he, w₂, hle₂, h₂⟩
      exact ⟨he, w₂, L.trans hle hle₂, h₂.left⟩
  · rintro σ₁ ⟨w₁, hle, h₁⟩
    refine ⟨?_, w₁, hle, (h₁.retype hk).left⟩
    rintro _ ⟨⟩

mutual

theorem runStmt_inStep {D : Discipline} (L : D.Lawful) (rounds : Nat) {w : D.World} {G G' : TypeScopes}
    {j i : ScopeId} {σ : Store} {r : Option Ty} : (st : Stmt) → D.InStep w G j σ i → D.stmt j st G →
    checkStmt j st G = .ok r G' → Ends (runStmt rounds i st) σ (Goes w G' j i r) (Stops w G' j i)
  | .block b, h, hd, hc => by
      simp only [stmt] at hd
      rw [checkStmt_block_eq_ok] at hc
      simp only [runStmt]
      refine (h.body hc (runBlock_inStep L rounds b (h.child L) hd hc)).mono ?_ ?_
      · exact fun _ _ h' => h'.goes
      · rintro a σ' ⟨he, w', hle, h'⟩
        exact ⟨he, w', hle, h'.left⟩
  | .noop, h, _, hc => by
      simp only [checkStmt, checkPure_eq_ok] at hc
      obtain ⟨rfl, rfl⟩ := hc
      exact ⟨_, L.refl _, h⟩
  | .break, h, _, hc => by
      simp only [checkStmt, checkPure_eq_ok] at hc
      obtain ⟨rfl, rfl⟩ := hc
      exact ⟨_, L.refl _, h.left⟩
  | .continue, h, _, hc => by
      simp only [checkStmt, checkPure_eq_ok] at hc
      obtain ⟨rfl, rfl⟩ := hc
      exact ⟨_, L.refl _, h.left⟩
  | .expr e, h, hd, hc => by
      simp only [stmt] at hd
      obtain ⟨⟨t, ht⟩, rfl, rfl⟩ := checkStmt_expr_eq_ok.mp hc
      simp only [runStmt, Ends.bind_iff, Ends.ofEval_iff, Ends.pure_iff]
      refine (h.eval L hd ht).mono ?_ (fun _ _ h' => h')
      rintro v σ' ⟨w', hle, h', _⟩
      exact ⟨w', hle, h'⟩
  | .branch bs, h, hd, hc => by
      simp only [stmt] at hd
      simp only [checkStmt] at hc
      simp only [runStmt]
      exact runBranches_inStep L rounds bs h hd hc
  | .loop c b, h, hd, hc => by
      simp only [stmt] at hd
      obtain ⟨⟨t, ht⟩, hc⟩ := checkStmt_loop_eq_ok.mp hc
      simp only [runStmt]
      refine h.loop L hd.1 ht hc fun w' σ' _ h' => ?_
      exact h'.body hc (runBlock_inStep L rounds b (h'.child L) hd.2 hc)
  | .declare ds, h, hd, hc => by
      simp only [stmt] at hd
      obtain ⟨rfl, rfl⟩ := checkStmt_declare_eq_ok.mp hc
      simp only [runStmt, Ends.bind_iff, Ends.pure_iff]
      exact h.declare L ds hd
  | .assign target e, h, hd, hc => by
      simp only [stmt] at hd
      obtain ⟨hp, ⟨t, ht, hv⟩, rfl, rfl⟩ := checkStmt_assign_eq_ok.mp hc
      simp only [runStmt, Ends.bind_iff, Ends.ofEval_iff, Ends.pure_iff]
      refine (h.eval L hd.2 hv).mono ?_ (fun _ _ h' => h')
      rintro v σ₁ ⟨w₁, hle, h₁, hv⟩
      refine (h₁.assign L hp hd.1 ht hv).mono ?_ (fun _ _ h' => h'.of_le L hle)
      rintro _ σ₂ ⟨w₂, hle₂, h₂⟩
      exact ⟨w₂, L.trans hle hle₂, h₂⟩
  | .ret (some e), h, hd, hc => by
      simp only [stmt] at hd
      obtain ⟨t, ht, rfl, rfl⟩ := checkStmt_ret_eq_ok.mp hc
      simp only [runStmt, evalOptional, Ends.bind_iff, Ends.ofEval_iff, Ends.pure_iff]
      refine (h.eval L hd ht).mono ?_ (fun _ _ h' => h')
      rintro v σ' ⟨w', hle, h', hv⟩
      exact ⟨w', hle, h'.left, t, rfl, hv⟩
  | .ret none, h, _, hc => by
      simp only [checkStmt, checkPure_eq_ok] at hc
      obtain ⟨rfl, rfl⟩ := hc
      exact ⟨_, L.refl _, h.left, .null, rfl, L.null _⟩

theorem runBranches_inStep {D : Discipline} (L : D.Lawful) (rounds : Nat) {w : D.World}
    {G G' : TypeScopes} {j i : ScopeId} {σ : Store} {sofar r : Option Ty} : (bs : Branches) →
    D.InStep w G j σ i → D.branches j bs G → checkBranches j sofar bs G = .ok r G' →
    Ends (runBranches rounds i bs) σ (Goes w G' j i r) (Stops w G' j i)
  | .arm c b rest, h, hd, hc => by
      simp only [branches] at hd
      obtain ⟨⟨t, ht⟩, found, G₁, m, hb, hm, hrest⟩ := checkBranches_arm_eq_ok.mp hc
      have hk := checkBody_keeps h.typeScope hb
      have hk' : Keeps (fun _ => True) G₁ G' :=
        (checkBranches_keeps m (hk.has _ h.typeScope) rest).of_ok hrest
      simp only [runBranches, Ends.bind_iff, Ends.test_iff]
      refine (h.eval L hd.1 ht).mono ?_ ?_
      · rintro v σ₁ ⟨w₁, hle, h₁, _⟩
        split
        · refine (h₁.body hb (runBlock_inStep L rounds b (h₁.child L) hd.2.1 hb)).mono ?_ ?_
          · rintro signal σ₂ ⟨w₂, hle₂, h₂, hv⟩
            refine Returns.goes ⟨w₂, L.trans hle hle₂, h₂.retype hk', fun v hs => ?_⟩
            obtain ⟨u, rfl, hu⟩ := hv v hs
            rw [hm.found] at hrest
            exact ⟨u, checkBranches_sofar hrest, hu⟩
          · rintro a σ₂ ⟨he, w₂, hle₂, h₂⟩
            exact ⟨he, w₂, L.trans hle hle₂, (h₂.retype hk').left⟩
        · refine (runBranches_inStep L rounds rest (h₁.retype hk) (hd.2.2 _ _ hb) hrest).mono ?_ ?_
          · exact fun _ _ h' => h'.of_le L hle
          · exact fun _ _ h' => h'.of_le L hle
      · exact fun _ _ h' => h'.retype ((hk.trans hk').mono fun _ _ _ => trivial)
  | .otherwise b, h, hd, hc => by
      simp only [branches] at hd
      obtain ⟨found, hb, hm⟩ := checkBranches_otherwise_eq_ok.mp hc
      simp only [runBranches]
      refine (h.body hb (runBlock_inStep L rounds b (h.child L) hd hb)).mono ?_ ?_
      · rintro signal σ₂ ⟨w₂, hle₂, h₂, hv⟩
        refine Returns.goes ⟨w₂, hle₂, h₂, fun v hs => ?_⟩
        obtain ⟨u, rfl, hu⟩ := hv v hs
        exact ⟨u, hm.found, hu⟩
      · rintro a σ₂ ⟨he, w₂, hle₂, h₂⟩
        exact ⟨he, w₂, hle₂, h₂.left⟩

/-- A program that keeps to a lawful discipline runs in step with its check. -/
theorem runBlock_inStep {D : Discipline} (L : D.Lawful) (rounds : Nat) {w : D.World} {G G' : TypeScopes}
    {j i : ScopeId} {σ : Store} {sofar r : Option Ty} : (b : List Stmt) → D.InStep w G j σ i →
    D.block j b G → checkBlock j sofar b G = .ok r G' →
    Ends (runBlock rounds i b) σ (Goes w G' j i r) (Stops w G' j i)
  | [], h, _, hc => by
      simp only [checkBlock, checkPure_eq_ok] at hc
      obtain ⟨rfl, rfl⟩ := hc
      exact ⟨_, L.refl _, h⟩
  | st :: rest, h, hd, hc => by
      simp only [block] at hd
      obtain ⟨found, G₁, m, hst, hm, hrest⟩ := checkBlock_cons_eq_ok.mp hc
      have hk := (checkStmt_keeps h.typeScope st).of_ok hst
      have hk' := (checkBlock_keeps m (hk.has _ h.typeScope) rest).of_ok hrest
      simp only [runBlock, Ends.bind_iff]
      refine (runStmt_inStep L rounds st h hd.1 hst).mono ?_ (fun _ _ h' => h'.retype hk')
      intro signal σ₁ h₁
      match signal, h₁ with
      | none, ⟨w₁, hle, h₁⟩ =>
          refine (runBlock_inStep L rounds rest h₁ (hd.2 _ _ hst) hrest).mono ?_ ?_
          · exact fun _ _ h' => h'.of_le L hle
          · exact fun _ _ h' => h'.of_le L hle
      | some s, h₁ =>
          refine h₁.signal hk' fun t ht => ?_
          subst ht
          rw [hm.found] at hrest
          exact checkBlock_sofar hrest

end

end Discipline

end ScriptEngine
