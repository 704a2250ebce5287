import ScriptEngine.Proofs.Scope.WellFormed

/-!
# What a change of scopes keeps

Scopes are only ever added. A change of a table keeps where each scope lies and which functions it
binds, and no scope loses a name; which scopes also keep what they bind their variables to depends on the
change.
-/

namespace ScriptEngine.Scopes

variable {V F : Type} {P P' : ScopeId → Prop} {s s' s'' : Scopes V F} {i k : ScopeId}

/-- From `s` to `s'` no scope is lost or moved, and the scopes in `P` bind their variables as before. -/
structure Keeps (P : ScopeId → Prop) (s s' : Scopes V F) : Prop where
  wellFormed : s.WellFormed → s'.WellFormed
  has : ∀ k, s.Has k → s'.Has k
  outer : ∀ k, s.Has k → s'.outer k = s.outer k
  functions : ∀ k, s.Has k → ∀ x, s'.localFunction? k x = s.localFunction? k x
  names : ∀ k x, s.binds k x = true → s'.binds k x = true
  vars : ∀ k, s.Has k → P k → ∀ x, s'.local? k x = s.local? k x

namespace Keeps

theorem refl (P : ScopeId → Prop) (s : Scopes V F) : Keeps P s s :=
  ⟨id, fun _ h => h, fun _ _ => rfl, fun _ _ _ => rfl, fun _ _ h => h, fun _ _ _ _ => rfl⟩

/-- Of the scopes that a second change keeps, those matter that were there before the first. -/
theorem trans_of (hP : ∀ k, s.Has k → P k → P' k) (h : Keeps P s s') (h' : Keeps P' s' s'') :
    Keeps P s s'' where
  wellFormed hs := h'.wellFormed (h.wellFormed hs)
  has k hk := h'.has k (h.has k hk)
  outer k hk := (h'.outer k (h.has k hk)).trans (h.outer k hk)
  functions k hk x := (h'.functions k (h.has k hk) x).trans (h.functions k hk x)
  names k x hx := h'.names k x (h.names k x hx)
  vars k hk hp x := (h'.vars k (h.has k hk) (hP k hk hp) x).trans (h.vars k hk hp x)

theorem trans (h : Keeps P s s') (h' : Keeps P s' s'') : Keeps P s s'' := trans_of (fun _ _ hp => hp) h h'

theorem mono (hP : ∀ k, s.Has k → P' k → P k) (h : Keeps P s s') : Keeps P' s s' :=
  { h with vars := fun k hk hp => h.vars k hk (hP k hk hp) }

theorem define {x : String} {v : V} (hi : s.Has i) : Keeps (· ≠ i) s (s.define i x v) where
  wellFormed hs := hs.define
  has k hk := has_define.mpr hk
  outer k _ := outer_define
  functions k _ y := localFunction?_define
  names k y hy := by
    unfold binds at hy ⊢
    rw [local?_define hi]
    split
    · rfl
    · exact hy
  vars k _ hk y := local?_define_ne hk

theorem defineAll {bs : List (String × V)} (hi : s.Has i) : Keeps (· ≠ i) s (s.defineAll i bs) := by
  unfold Scopes.defineAll
  induction bs generalizing s with
  | nil => exact refl _ s
  | cons b bs ih => exact (define hi).trans (ih (has_define.mpr hi))

theorem child (hi : s.Has i) : Keeps P s (s.child i).2 where
  wellFormed hs := hs.child hi
  has k hk := has_child.mpr (.inl hk)
  outer k hk := by simp [Scopes.child, outer_add, hk.ne_fresh]
  functions k _ x := localFunction?_add _
  names k x hx := by simpa [binds, Scopes.child] using hx
  vars k _ _ x := local?_add _

/-- What happens in a new scope alone keeps all scopes that were there before. -/
theorem of_child (hi : s.Has i) (h : Keeps (· ≠ (s.child i).1) (s.child i).2 s') : Keeps P s s' :=
  trans_of (fun _ hk _ => hk.ne_fresh) (child hi) h

end Keeps

end ScriptEngine.Scopes
