import ScriptEngine.Execution

/-!
# Where a step ends

A step from a state ends with a value or with an error, and in either case in a state. `Ends` says what
holds then. It composes along `do`, so a fact about a run is put together from facts about its steps.
-/

namespace ScriptEngine

variable {ε σ α β : Type}

theorem bind_apply (x : EStateM ε σ α) (f : α → EStateM ε σ β) (s : σ) :
    (x >>= f) s = match x s with
      | .ok a s' => f a s'
      | .error e s' => .error e s' := rfl

theorem bind_eq_ok {x : EStateM ε σ α} {f : α → EStateM ε σ β} {s s' : σ} {b : β} :
    (x >>= f) s = .ok b s' ↔ ∃ a s₁, x s = .ok a s₁ ∧ f a s₁ = .ok b s' := by
  rw [bind_apply]
  cases x s with
  | ok a s₁ => exact ⟨fun h => ⟨a, s₁, rfl, h⟩, fun ⟨_, _, ha, h⟩ => by cases ha; exact h⟩
  | error e s₁ => exact ⟨fun h => (nomatch h), fun ⟨_, _, ha, _⟩ => (nomatch ha)⟩

theorem bind_eq_error {x : EStateM ε σ α} {f : α → EStateM ε σ β} {s s' : σ} {e : ε} :
    (x >>= f) s = .error e s' ↔ x s = .error e s' ∨ ∃ a s₁, x s = .ok a s₁ ∧ f a s₁ = .error e s' := by
  rw [bind_apply]
  cases x s with
  | ok a s₁ =>
      refine ⟨fun h => .inr ⟨a, s₁, rfl, h⟩, ?_⟩
      rintro (h | ⟨_, _, ha, h⟩)
      · cases h
      · cases ha; exact h
  | error e₁ s₁ =>
      refine ⟨fun h => .inl ?_, ?_⟩
      · cases h; rfl
      · rintro (h | ⟨_, _, ha, _⟩)
        · cases h; rfl
        · cases ha

theorem ofEval_eq_ok {x : EStateM Error Store α} {s s' : Store} {a : α} :
    Exec.ofEval x s = .ok a s' ↔ x s = .ok a s' := by
  unfold Exec.ofEval
  cases x s <;> simp

/-- The step `x` from `s` ends with a value and a state in `good`, or with an error and a state in
`bad`. -/
def Ends (x : EStateM ε σ α) (s : σ) (good : α → σ → Prop) (bad : ε → σ → Prop) : Prop :=
  match x s with
  | .ok a s' => good a s'
  | .error e s' => bad e s'

namespace Ends

variable {x : EStateM ε σ α} {s s' : σ} {good good' : α → σ → Prop} {bad bad' : ε → σ → Prop}

/-! ## The result of a step -/

theorem iff_forall : Ends x s good bad ↔
    (∀ a s', x s = .ok a s' → good a s') ∧ ∀ e s', x s = .error e s' → bad e s' := by
  unfold Ends
  cases x s with
  | ok a s' =>
      refine ⟨fun hg => ⟨fun b t hb => ?_, fun e t he => (nomatch he)⟩, fun hg => hg.1 a s' rfl⟩
      cases hb; exact hg
  | error e s' =>
      refine ⟨fun hb => ⟨fun a t ha => (nomatch ha), fun e' t he => ?_⟩, fun hb => hb.2 e s' rfl⟩
      cases he; exact hb

theorem of_ok {a : α} (h : Ends x s good bad) (hx : x s = .ok a s') : good a s' :=
  (iff_forall.mp h).1 a s' hx

theorem of_error {e : ε} (h : Ends x s good bad) (hx : x s = .error e s') : bad e s' :=
  (iff_forall.mp h).2 e s' hx

theorem mono (h : Ends x s good bad) (hg : ∀ a s', good a s' → good' a s')
    (hb : ∀ e s', bad e s' → bad' e s') : Ends x s good' bad' :=
  iff_forall.mpr ⟨fun a s' hx => hg a s' (h.of_ok hx), fun e s' hx => hb e s' (h.of_error hx)⟩

theorem and (h : Ends x s good bad) (h' : Ends x s good' bad') :
    Ends x s (fun a s' => good a s' ∧ good' a s') (fun e s' => bad e s' ∧ bad' e s') :=
  iff_forall.mpr ⟨fun _ _ hx => ⟨h.of_ok hx, h'.of_ok hx⟩,
    fun _ _ hx => ⟨h.of_error hx, h'.of_error hx⟩⟩

/-! ## Composition -/

@[simp] theorem pure_iff {a : α} : Ends (pure a : EStateM ε σ α) s good bad ↔ good a s := Iff.rfl

@[simp] theorem get_iff {good : σ → σ → Prop} :
    Ends (get : EStateM ε σ σ) s good bad ↔ good s s := Iff.rfl

@[simp] theorem modify_iff {f : σ → σ} {good : PUnit → σ → Prop} :
    Ends (modify f : EStateM ε σ PUnit) s good bad ↔ good ⟨⟩ (f s) := Iff.rfl

@[simp] theorem bind_iff {f : α → EStateM ε σ β} {good : β → σ → Prop} :
    Ends (x >>= f) s good bad ↔ Ends x s (fun a s' => Ends (f a) s' good bad) bad := by
  unfold Ends
  rw [bind_apply]
  cases x s <;> rfl

@[simp] theorem map_iff {f : α → β} {good : β → σ → Prop} :
    Ends (f <$> x) s good bad ↔ Ends x s (fun a s' => good (f a) s') bad := by
  have hm : (f <$> x) s = match x s with
      | .ok a s' => .ok (f a) s'
      | .error e s' => .error e s' := rfl
  unfold Ends
  rw [hm]
  cases x s <;> rfl

/-! ## Steps of a run -/

@[simp] theorem ofEval_iff {x : EStateM Error Store α} {s : Store} {good : α → Store → Prop}
    {bad : Abort → Store → Prop} :
    Ends (Exec.ofEval x) s good bad ↔ Ends x s good (fun e s' => bad (.error e) s') := by
  unfold Ends Exec.ofEval
  cases x s <;> rfl

@[simp] theorem enter_iff {i : ScopeId} {s : Store} {good : ScopeId → Store → Prop}
    {bad : Abort → Store → Prop} :
    Ends (Exec.enter i) s good bad ↔ good (s.child i).1 (s.child i).2 := Iff.rfl

@[simp] theorem define_iff {i : ScopeId} {y : String} {v : Value} {s : Store}
    {good : Unit → Store → Prop} {bad : Abort → Store → Prop} :
    Ends (Exec.define i y v) s good bad ↔ good () (s.mapScopes (·.define i y v)) := Iff.rfl

/-- A result that may be a fault ends where it began. -/
@[simp] theorem orFault_iff {r : Except Fault α} {s : Store} {good : α → Store → Prop}
    {bad : Error → Store → Prop} :
    Ends (orFault r) s good bad ↔
      (∀ a, r = .ok a → good a s) ∧ ∀ f, r = .error f → bad (.ofFault f) s := by
  cases r <;> simp [Ends, orFault]

@[simp] theorem test_iff {i : ScopeId} {e : Expr} {s : Store} {good : Bool → Store → Prop}
    {bad : Abort → Store → Prop} :
    Ends (test i e) s good bad ↔
      Ends (eval i e) s (fun v s' => good (s'.isTruthy v) s') (fun err s' => bad (.error err) s') := by
  unfold test
  simp

/-- A loop with an invariant: `I` holds before each round, `J` once the condition has been found to
hold, and a round that does not leave the loop restores `I`. -/
theorem repeatWhile {condition : Exec Bool} {body : Exec (Option Signal)} {I J : Store → Prop}
    {good : Option Signal → Store → Prop} {bad : Abort → Store → Prop}
    (hc : ∀ s, I s → Ends condition s (fun b s' => if b = true then J s' else good none s') bad)
    (hb : ∀ s, J s → Ends body s (fun signal s' =>
      match signal with
      | some .break => good none s'
      | some (.ret v) => good (some (.ret v)) s'
      | _ => I s') bad)
    (hx : ∀ s, I s → bad .exhausted s) :
    (n : Nat) → (s : Store) → I s → Ends (repeatWhile condition body n) s good bad
  | 0, s, h => hx s h
  | n + 1, s, h => by
      simp only [ScriptEngine.repeatWhile, bind_iff]
      refine (hc s h).mono (fun b s₁ h₁ => ?_) (fun _ _ h => h)
      cases b with
      | false => simpa using h₁
      | true =>
          simp only [if_true, bind_iff] at h₁ ⊢
          refine (hb s₁ h₁).mono (fun signal s₂ h₂ => ?_) (fun _ _ h => h)
          match signal, h₂ with
          | some .break, h₂ => exact h₂
          | some (.ret v), h₂ => exact h₂
          | some .continue, h₂ => exact repeatWhile hc hb hx n s₂ h₂
          | none, h₂ => exact repeatWhile hc hb hx n s₂ h₂

end Ends

end ScriptEngine
