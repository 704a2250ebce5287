import ScriptEngine.Proofs.Execution.Tandem
import ScriptEngine.Proofs.Scope.WellFormed
import ScriptEngine.Proofs.Typing.Tandem

/-!
# Names that a program does not mention

A name may be bound in a frame beside a program that does not mention it. The program does not notice: the tables
with and without the binding mirror each other for all other names, so it runs and is checked alike in both, and
the binding is still there afterwards.
-/

namespace ScriptEngine

/-! ## Tables with one binding more -/

/-- The table `t` is `s` with `y` bound to `v` in the frame of `f`, whatever `s` binds it to there. -/
structure Scopes.Beside {V F : Type} (f : ScopeId) (y : String) (v : V) (s t : Scopes V F) : Prop where
  size : t.frames.size = s.frames.size
  outer : ∀ k, t.outer k = s.outer k
  functions : ∀ k x, t.localFunction? k x = s.localFunction? k x
  vars : ∀ k x, ¬(k = f ∧ x = y) → t.local? k x = s.local? k x
  bound : t.local? f y = some v

namespace Scopes.Beside

variable {V F : Type} {f i : ScopeId} {x y : String} {v w : V} {s t : Scopes V F}

theorem of_define (h : s.Has f) : Beside f y v s (s.define f y v) where
  size := by simp [Scopes.define, modifyFrame]
  outer _ := outer_define
  functions _ _ := localFunction?_define
  vars k x hk := by rw [local?_define h, if_neg hk]
  bound := by rw [local?_define h, if_pos ⟨rfl, rfl⟩]

theorem has (h : Beside f y v s t) : t.Has i ↔ s.Has i := by
  unfold Has
  rw [h.size]

theorem chain (h : Beside f y v s t) : t.chain i = s.chain i := by
  unfold Scopes.chain
  rw [h.outer]

theorem vars_of_ne (h : Beside f y v s t) (hx : x ≠ y) (k : ScopeId) : t.local? k x = s.local? k x :=
  h.vars k x fun hk => hx hk.2

theorem find? (h : Beside f y v s t) (hx : x ≠ y) : t.find? i x = s.find? i x := by
  unfold Scopes.find?
  rw [h.chain, funext (h.vars_of_ne hx)]

theorem owner? (h : Beside f y v s t) (hx : x ≠ y) : t.owner? i x = s.owner? i x := by
  have hbinds : (t.binds · x) = (s.binds · x) := funext fun k => by
    unfold binds
    rw [h.vars_of_ne hx]
  unfold Scopes.owner?
  rw [h.chain, hbinds]

theorem define (h : Beside f y v s t) (hx : x ≠ y) : Beside f y v (s.define i x w) (t.define i x w) where
  size := by simpa [Scopes.define, modifyFrame] using h.size
  outer k := by rw [outer_define, outer_define, h.outer]
  functions k z := by rw [localFunction?_define, localFunction?_define, h.functions]
  vars k z hk := by
    by_cases hi : s.Has i
    · rw [local?_define hi, local?_define (h.has.mpr hi), h.vars k z hk]
    · by_cases hki : k = i
      · have hs : ¬(s.define i x w).Has k := by rwa [has_define, hki]
        have ht : ¬(t.define i x w).Has k := by rwa [has_define, h.has, hki]
        rw [local?_eq_none hs, local?_eq_none ht]
      · rw [local?_define_ne hki, local?_define_ne hki, h.vars k z hk]
  bound := by
    by_cases hi : t.Has i
    · rw [local?_define hi, if_neg fun hk => hx hk.2.symm, h.bound]
    · have hf : f ≠ i := by
        rintro rfl
        have hnone := local?_eq_none hi (x := y)
        rw [h.bound] at hnone
        cases hnone
      rw [local?_define_ne hf, h.bound]

theorem fresh (h : Beside f y v s t) : t.fresh = s.fresh := by
  unfold Scopes.fresh
  rw [h.size]

theorem child (h : Beside f y v s t) : Beside f y v (s.child i).2 (t.child i).2 where
  size := by simp [Scopes.child, add, h.size]
  outer k := by simp only [Scopes.child, outer_add, h.fresh, h.chain, h.outer]
  functions k x := by simp only [Scopes.child, localFunction?_add, h.functions]
  vars k x hk := by simp only [Scopes.child, local?_add, h.vars k x hk]
  bound := by simp only [Scopes.child, local?_add, h.bound]

end Scopes.Beside

/-- A binding more is not seen by the other names. -/
def Mirror.beside {V F : Type} (f : ScopeId) (y : String) (v : V) : Mirror V F where
  holds := Scopes.Beside f y v
  scope := Eq
  frame := Eq
  name x := x ≠ y
  find? h hij hx := by rw [← hij, h.find? hx]
  owner? {s t i j x} h hij hx := by
    rw [← hij, h.owner? hx]
    cases s.owner? i x with
    | none => exact .none
    | some k => exact .some rfl
  define w h hij hx := hij ▸ h.define hx
  child h hij := hij ▸ h.child
  child_scope h _ := h.fresh.symm
  child_frame h _ := h.fresh.symm

/-- The store `τ` is `σ` with `y` bound to `v` in the frame of `f`. -/
abbrev Store.Beside (f : ScopeId) (y : String) (v : Value) (σ τ : Store) : Prop :=
  (Mirror.beside f y v).Stores σ τ

theorem Store.Beside.of_define {f : ScopeId} {y : String} {v : Value} {σ : Store} (h : σ.scopes.Has f) :
    Store.Beside f y v σ (σ.mapScopes (·.define f y v)) := ⟨Scopes.Beside.of_define h, rfl, rfl⟩

/-! ## Runs, checks and calls -/

/-- A name that a program does not mention does not matter to it. Where `y` is bound before, in whatever frame,
the program ends with the same signal or error and its check with the same type or error; what is left differs in
this one binding, which is as it was put there. So it is with a call whose parameters are not `y` either. -/
theorem unmentioned_name_inert (f : ScopeId) (y : String) :
    (∀ b : List Stmt, y ∉ blockVars b → y ∉ blockBinders b →
      (∀ (rounds : Nat) (i : ScopeId) (v : Value) (σ : Store), σ.scopes.Has f →
        SameOutcome Eq (Store.Beside f y v) (runBlock rounds i b σ)
          (runBlock rounds i b (σ.mapScopes (·.define f y v)))) ∧
      ∀ (i : ScopeId) (sofar : Option Ty) (t : Ty) (G : TypeScopes), G.Has f →
        SameOutcome Eq (Scopes.Beside f y t) (checkBlock i sofar b G)
          (checkBlock i sofar b (G.define f y t))) ∧
    ∀ fn : Function, y ∉ blockVars fn.body → y ∉ blockBinders fn.body → y ∉ fn.parameters.map Prod.fst →
      ∀ (rounds : Nat) (arguments : List Value) (v : Value) (σ : Store), σ.scopes.Has f →
        SameOutcome Eq (Store.Beside f y v) (fn.call rounds arguments σ)
          (fn.call rounds arguments (σ.mapScopes (·.define f y v))) := by
  have hne : ∀ {xs : List String}, y ∉ xs → ∀ x ∈ xs, x ≠ y := fun hy x hx e => hy (e ▸ hx)
  refine ⟨fun b hv hb => ⟨fun rounds i v σ hf => ?_, fun i sofar t G hf => ?_⟩, ?_⟩
  · have hrun := Mirror.alike_block (M := .beside f y v) rounds (Eq.refl i) b (hne hv) (hne hb) fun _ _ => rfl
    exact hrun σ _ (Store.Beside.of_define hf)
  · have hcheck := Mirror.agrees_block (M := .beside f y t) (Eq.refl i) sofar b (hne hv) (hne hb) fun _ _ => rfl
    exact hcheck G _ (.of_define hf)
  · intro fn hv hb hp rounds arguments v σ hf
    have hcall := Mirror.alike_call (M := .beside f y v) rounds arguments (Eq.refl fn.scope) (hne hv) (hne hb)
      (hne hp)
    exact hcall σ _ (Store.Beside.of_define hf)

/-- A name bound in the outer of two scopes, beside the variable that a body in the inner one writes to. -/
theorem spare_binding_inert :
    let b : List Stmt := [.block [.assign (.var "x") (.constant (.int 2))], .ret (some (.var "x"))]
    let σ : Store := ⟨((Scopes.empty.root.2.define ⟨0⟩ "x" (.int 1)).child ⟨0⟩).2, #[], #[]⟩
    let G : TypeScopes := ((Scopes.empty.root.2.define ⟨0⟩ "x" .int).child ⟨0⟩).2
    let fn : Function := ⟨[("p", .int)], .int, b, ⟨1⟩⟩
    ("y" ∉ blockVars b ∧ "y" ∉ blockBinders b ∧ "y" ∉ fn.parameters.map Prod.fst ∧
      σ.scopes.Has ⟨0⟩ ∧ G.Has ⟨0⟩) ∧
    SameOutcome Eq (Store.Beside ⟨0⟩ "y" .null) (runBlock 1 ⟨1⟩ b σ)
      (runBlock 1 ⟨1⟩ b (σ.mapScopes (·.define ⟨0⟩ "y" .null))) ∧
    SameOutcome Eq (Scopes.Beside ⟨0⟩ "y" .null) (checkBlock ⟨1⟩ none b G)
      (checkBlock ⟨1⟩ none b (G.define ⟨0⟩ "y" .null)) ∧
    SameOutcome Eq (Store.Beside ⟨0⟩ "y" .null) (fn.call 1 [.int 3] σ)
      (fn.call 1 [.int 3] (σ.mapScopes (·.define ⟨0⟩ "y" .null))) := by
  intro b σ G fn
  have hv : "y" ∉ blockVars b := by decide
  have hb : "y" ∉ blockBinders b := by decide
  have hp : "y" ∉ fn.parameters.map Prod.fst := by decide
  have hσ : σ.scopes.Has ⟨0⟩ := Nat.zero_lt_two
  have hG : G.Has ⟨0⟩ := Nat.zero_lt_two
  obtain ⟨hprogram, hcall⟩ := unmentioned_name_inert ⟨0⟩ "y"
  obtain ⟨hrun, hcheck⟩ := hprogram b hv hb
  exact ⟨⟨hv, hb, hp, hσ, hG⟩, hrun 1 ⟨1⟩ .null σ hσ, hcheck ⟨1⟩ none .null G hG,
    hcall fn hv hb hp 1 [.int 3] .null σ hσ⟩

end ScriptEngine
