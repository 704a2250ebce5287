import ScriptEngine.Proofs.Ends

/-!
# Steps in tandem

Two steps run in tandem when, started in related states, they end alike: both with a value or both with one
error, and in related states again. Like `Ends` this composes along `do`, so two runs are kept together step by
step.
-/

namespace ScriptEngine

variable {ε S T α α' β β' : Type}

/-- Both results are values that `V` relates, or both are one error; the states are related by `R`. -/
def SameOutcome (V : α → β → Prop) (R : S → T → Prop) :
    EStateM.Result ε S α → EStateM.Result ε T β → Prop
  | .ok a s, .ok b t => V a b ∧ R s t
  | .error e s, .error e' t => e = e' ∧ R s t
  | _, _ => False

theorem SameOutcome.mono {V : α → β → Prop} {R R' : S → T → Prop} {x : EStateM.Result ε S α}
    {y : EStateM.Result ε T β} (hR : ∀ s t, R s t → R' s t) (h : SameOutcome V R x y) : SameOutcome V R' x y := by
  cases x <;> cases y
  · exact ⟨h.1, hR _ _ h.2⟩
  · exact h.elim
  · exact h.elim
  · exact ⟨h.1, hR _ _ h.2⟩

theorem SameOutcome.exists_ok {V : α → β → Prop} {R : S → T → Prop} {a : α} {s : S} {y : EStateM.Result ε T β}
    (h : SameOutcome V R (.ok a s) y) : ∃ b t, y = .ok b t ∧ V a b ∧ R s t := by
  cases y with
  | ok b t => exact ⟨b, t, rfl, h⟩
  | error => exact h.elim

/-- From related states `x` and `y` end alike. -/
def Tandem (R : S → T → Prop) (V : α → β → Prop) (x : EStateM ε S α) (y : EStateM ε T β) : Prop :=
  ∀ s t, R s t → SameOutcome V R (x s) (y t)

namespace Tandem

variable {R : S → T → Prop} {V : α → β → Prop} {W : α' → β' → Prop}

/-! ## Composition -/

theorem pure {a : α} {b : β} (h : V a b) :
    Tandem R V (pure a : EStateM ε S α) (pure b : EStateM ε T β) := fun _ _ hR => ⟨h, hR⟩

theorem throw (e : ε) : Tandem R V (throw e : EStateM ε S α) (throw e : EStateM ε T β) :=
  fun _ _ hR => ⟨rfl, hR⟩

theorem get : Tandem R R (get : EStateM ε S S) (get : EStateM ε T T) := fun _ _ hR => ⟨hR, hR⟩

theorem modify {f : S → S} {g : T → T} (h : ∀ s t, R s t → R (f s) (g t)) :
    Tandem R Eq (modify f : EStateM ε S PUnit) (modify g : EStateM ε T PUnit) :=
  fun s t hR => ⟨rfl, h s t hR⟩

theorem bind {x : EStateM ε S α} {y : EStateM ε T β} {f : α → EStateM ε S α'} {g : β → EStateM ε T β'}
    (h : Tandem R V x y) (hf : ∀ a b, V a b → Tandem R W (f a) (g b)) :
    Tandem R W (x >>= f) (y >>= g) := by
  intro s t hR
  have hxy := h s t hR
  rw [bind_apply, bind_apply]
  cases hx : x s <;> cases hy : y t <;> rw [hx, hy] at hxy
  · exact hf _ _ hxy.1 _ _ hxy.2
  · exact hxy.elim
  · exact hxy.elim
  · exact hxy

/-- Steps that go on from one and the same value. -/
theorem andThen {x : EStateM ε S α} {y : EStateM ε T α} {f : α → EStateM ε S α'} {g : α → EStateM ε T β'}
    (h : Tandem R Eq x y) (hf : ∀ a, Tandem R W (f a) (g a)) : Tandem R W (x >>= f) (y >>= g) := by
  refine h.bind ?_
  rintro a _ rfl
  exact hf a

theorem map {x : EStateM ε S α} {y : EStateM ε T α} {f : α → α'} (h : Tandem R Eq x y) :
    Tandem R Eq (f <$> x) (f <$> y) := by
  rw [map_eq_pure_bind, map_eq_pure_bind]
  exact h.andThen fun a => .pure rfl

/-! ## Steps of a run -/

theorem ofEval {R : Store → Store → Prop} {x y : EStateM Error Store α} (h : Tandem R Eq x y) :
    Tandem R Eq (Exec.ofEval x) (Exec.ofEval y) := by
  intro σ τ hR
  have hxy := h σ τ hR
  unfold Exec.ofEval
  cases hx : x σ <;> cases hy : y τ <;> rw [hx, hy] at hxy
  · exact hxy
  · exact hxy.elim
  · exact hxy.elim
  · exact ⟨congrArg _ hxy.1, hxy.2⟩

theorem orFault {R : Store → Store → Prop} (r : Except Fault α) :
    Tandem R Eq (orFault r) (orFault r) := by
  intro σ τ hR
  cases r <;> exact ⟨rfl, hR⟩

theorem repeatWhile {R : Store → Store → Prop} {c c' : Exec Bool} {b b' : Exec (Option Signal)}
    (hc : Tandem R Eq c c') (hb : Tandem R Eq b b') :
    (n : Nat) → Tandem R Eq (repeatWhile c b n) (repeatWhile c' b' n)
  | 0 => .throw _
  | n + 1 => by
      unfold ScriptEngine.repeatWhile
      refine hc.andThen fun holds => ?_
      cases holds with
      | false => exact .pure rfl
      | true =>
          refine hb.andThen fun signal => ?_
          rcases signal with _ | (v | _ | _)
          · exact repeatWhile hc hb n
          · exact .pure rfl
          · exact .pure rfl
          · exact repeatWhile hc hb n

end Tandem

end ScriptEngine
