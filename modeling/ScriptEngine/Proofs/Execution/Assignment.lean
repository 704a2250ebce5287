import ScriptEngine.Proofs.Evaluation.Effect
import ScriptEngine.Proofs.Scope.WellFormed

/-!
# Assignments

An evaluation changes nothing that was there, and the lists that `+` and `*` return are new. So an assignment
changes nothing before it writes, and it writes one place: the variable that its target names, where that is
bound, or the element that its target names. If it fails, it has not written.
-/

namespace ScriptEngine

open Scopes

variable {s s' s'' : Store} {i : ScopeId} {l : ListId} {v : Value}

/-! ## Lists -/

/-- There is a list `l`. -/
def Store.HasList (s : Store) (l : ListId) : Prop := l.index < s.lists.size

theorem Store.items_of_not_hasList (hl : ¬s.HasList l) : s.items l = #[] := by
  simp [Store.items, Array.getElem?_eq_none (Nat.le_of_not_lt hl)]

theorem Store.Grows.hasList (h : s.Grows s') (hl : s.HasList l) : s'.HasList l := by
  have hsize := h.lists.length_le
  simp only [Array.length_toList] at hsize
  exact Nat.lt_of_lt_of_le hl hsize

theorem Store.Grows.items (h : s.Grows s') (hl : s.HasList l) : s'.items l = s.items l := by
  obtain ⟨more, hmore⟩ := h.lists
  unfold Store.items
  rw [← Array.getElem?_toList, ← Array.getElem?_toList, ← hmore, List.getElem?_append_left]
  rw [Array.length_toList]
  exact hl

/-- A step whose result, if it is a list, is a new one. -/
def MakesNew (x : EStateM Error Store Value) (s : Store) : Prop :=
  ∀ l s', x s = .ok (.list l) s' → ¬s.HasList l ∧ s'.HasList l

namespace MakesNew

theorem makeList (items : Array Value) (s : Store) : MakesNew (makeList items) s := by
  intro l s' h
  cases h
  simp [Store.HasList]

theorem orFault {r : Except Fault Value} (h : ∀ l, r ≠ .ok (.list l)) (s : Store) :
    MakesNew (orFault r) s := by
  intro l s' hr
  cases r with
  | error f => cases hr
  | ok u =>
      cases hr
      exact absurd rfl (h l)

theorem onNumbers {op : BinaryOp} {f : Int64 → Int64 → Except Fault Int64}
    {g : Float → Float → Except Fault Float} (v w : Value) (l : ListId) :
    Arithmetic.onNumbers op f g v w ≠ .ok (.list l) := by
  unfold Arithmetic.onNumbers Arithmetic.onFloats
  split
  · rename_i a b _ _
    cases f a b <;> simp [Except.map]
  · split
    · rename_i x y _ _
      cases g x y <;> simp [Except.map]
    · simp

theorem sum (v w : Value) (s : Store) : MakesNew (evalAdd v w) s := by
  unfold evalAdd
  split
  · intro l s' h
    cases h
  · exact makeList _ s
  · exact orFault (onNumbers _ _) s

theorem repetition {n : Option Int64} {x : EStateM Error Store Value} (hx : repeat? v n = some x)
    (s : Store) : MakesNew x s := by
  unfold repeat? at hx
  split at hx
  · cases hx
    intro l s' h
    obtain ⟨t, s₁, _, h⟩ := bind_eq_ok.mp h
    cases h
  · cases hx
    intro l s' h
    obtain ⟨_, _, hget, h⟩ := bind_eq_ok.mp h
    cases hget
    obtain ⟨items, s₁, hitems, h⟩ := bind_eq_ok.mp h
    -- repeating the elements leaves the store as it is
    have hs : s₁ = s := by
      unfold ScriptEngine.orFault at hitems
      split at hitems <;> cases hitems
      rfl
    rw [hs] at h
    exact makeList items s l s' h
  · cases hx

theorem product (v w : Value) (s : Store) : MakesNew (evalMul v w) s := by
  unfold evalMul
  split
  · rename_i hx
    exact repetition hx s
  · split
    · rename_i hx
      exact repetition hx s
    · exact orFault (onNumbers _ _) s

end MakesNew

/-- A list that a sum or a product returns is not one of those that there are once its operands have been
evaluated. -/
theorem eval_makes_new {op : BinaryOp} (hop : op = .add ∨ op = .mul) {a b : Expr}
    (h : eval i (.binary op a b) s = .ok (.list l) s') :
    ∃ v w s₁ s₂, eval i a s = .ok v s₁ ∧ eval i b s₁ = .ok w s₂ ∧ ¬s₂.HasList l ∧ s'.HasList l := by
  rw [eval] at h
  obtain ⟨v, s₁, hv, h⟩ := bind_eq_ok.mp h
  rcases hop with rfl | rfl
  · obtain ⟨w, s₂, hw, h⟩ := bind_eq_ok.mp h
    exact ⟨v, w, s₁, s₂, hv, hw, MakesNew.sum v w s₂ l s' h⟩
  · obtain ⟨w, s₂, hw, h⟩ := bind_eq_ok.mp h
    exact ⟨v, w, s₁, s₂, hv, hw, MakesNew.product v w s₂ l s' h⟩

/-! ## Places -/

/-- What an assignment can write to: a variable of a frame, or an element of a list. -/
inductive Place where
  | variable (k : ScopeId) (x : String)
  | element (l : ListId) (n : Nat)

/-- The place that an expression names in the scope `i`, as found from the store `s`. -/
inductive Names (i : ScopeId) (s : Store) : Expr → Place → Prop where
  | var {x : String} {k : ScopeId} : s.scopes.owner? i x = some k → Names i s (.var x) (.variable k x)
  | index {b e : Expr} {l : ListId} {w : Value} {n : Nat} {s₁ s₂ : Store} :
      eval i b s = .ok (.list l) s₁ → eval i e s₁ = .ok w s₂ →
      Sequence.resolve w (s₂.items l).size = .ok n → Names i s (.index b e) (.element l n)

def Store.Holds (s : Store) (v : Value) : Place → Prop
  | .variable k x => s.scopes.local? k x = some v
  | .element l n => (s.items l)[n]? = some v

/-- From `s` to `s'` the place has got the value `v`, and nothing else that was there has changed. -/
structure Store.Writes (place : Place) (v : Value) (s s' : Store) : Prop where
  written : s'.Holds v place
  has : ∀ k, s'.scopes.Has k ↔ s.scopes.Has k
  vars : ∀ k x, place ≠ .variable k x → s'.scopes.local? k x = s.scopes.local? k x
  names : ∀ k x, s'.scopes.binds k x = s.scopes.binds k x
  localFunctions : ∀ k x, s'.scopes.localFunction? k x = s.scopes.localFunction? k x
  outer : ∀ k, s'.scopes.outer k = s.scopes.outer k
  functions : s'.functions = s.functions
  hasList : ∀ l, s.HasList l → s'.HasList l
  sizes : ∀ l, s.HasList l → (s'.items l).size = (s.items l).size
  items : ∀ l n, s.HasList l → place ≠ .element l n → (s'.items l)[n]? = (s.items l)[n]?

theorem items_setItem (s : Store) (l m : ListId) (n : Nat) (v : Value) :
    (s.setItem l n v).items m = if l = m then (s.items m).setIfInBounds n v else s.items m := by
  unfold Store.items Store.setItem
  simp only [Array.getElem?_modify]
  by_cases h : l = m
  · subst h
    cases s.lists[l.index]? <;> simp
  · have hindex : l.index ≠ m.index := fun hi => h (by cases l; cases m; cases hi; rfl)
    simp [h, hindex]

namespace Store.Writes

theorem define {k : ScopeId} {x : String} (h : s.Grows s') (hk : s.scopes.owner? i x = some k) (v : Value) :
    s.Writes (.variable k x) v (s'.mapScopes (·.define k x v)) := by
  have hbinds : s.scopes.binds k x = true := List.find?_some (p := (s.scopes.binds · x)) hk
  have hhas : s.scopes.Has k := has_of_binds hbinds
  have hscopes : (s'.mapScopes (·.define k x v)).scopes = s.scopes.define k x v := by
    rw [← h.scopes]
    rfl
  exact {
    written := by
      show (s'.mapScopes (·.define k x v)).scopes.local? k x = some v
      rw [hscopes, local?_define hhas, if_pos ⟨rfl, rfl⟩]
    has := fun j => by rw [hscopes, has_define]
    vars := fun j y hne => by
      rw [hscopes, local?_define hhas, if_neg]
      rintro ⟨rfl, rfl⟩
      exact hne rfl
    names := fun j y => by
      unfold Scopes.binds at hbinds ⊢
      rw [hscopes, local?_define hhas]
      split
      · rename_i hjy
        rw [hjy.1, hjy.2, hbinds]
        rfl
      · rfl
    localFunctions := fun j y => by rw [hscopes, localFunction?_define]
    outer := fun j => by rw [hscopes, outer_define]
    functions := h.functions
    hasList := fun l hl => h.hasList hl
    sizes := fun l hl => congrArg Array.size (h.items hl)
    items := fun l n hl _ => congrArg (·[n]?) (h.items hl) }

theorem setItem {n : Nat} (h : s.Grows s') (hn : n < (s'.items l).size) (v : Value) :
    s.Writes (.element l n) v (s'.setItem l n v) := by
  have hscopes : (s'.setItem l n v).scopes = s.scopes := h.scopes
  exact {
    written := by
      show ((s'.setItem l n v).items l)[n]? = some v
      rw [items_setItem, if_pos rfl]
      simp [hn]
    has := fun k => by rw [hscopes]
    vars := fun k x _ => by rw [hscopes]
    names := fun k x => by rw [hscopes]
    localFunctions := fun k x => by rw [hscopes]
    outer := fun k => by rw [hscopes]
    functions := h.functions
    hasList := fun m hm => by
      have := h.hasList hm
      simpa [Store.HasList, Store.setItem] using this
    sizes := fun m hm => by
      rw [items_setItem, ← h.items hm]
      split <;> simp
    items := fun m j hm hne => by
      rw [items_setItem, ← h.items hm]
      split
      · rename_i hlm
        have hnj : n ≠ j := fun hnj => hne (by rw [hlm, hnj])
        simp [hnj]
      · rfl }

end Store.Writes

/-! ## Assignments -/

theorem lt_of_resolve {w : Value} {n p : Nat} (h : Sequence.resolve w n = .ok p) : p < n := by
  unfold Sequence.resolve at h
  split at h
  · rename_i j
    obtain ⟨q, hq, hlt⟩ | hq := place_cases j n
    · rw [hq] at h
      cases h
      exact hlt
    · rw [hq] at h
      cases h
  · cases h

theorem Ends.result {ε σ α : Type} (x : EStateM ε σ α) (t : σ) :
    Ends x t (fun a t' => x t = .ok a t') (fun e t' => x t = .error e t') :=
  Ends.iff_forall.mpr ⟨fun _ _ h => h, fun _ _ h => h⟩

/-- An assignment that succeeds writes the place that its target names, and one that fails writes nothing. -/
theorem assign_writes (h : s.Grows s') (target : Expr) (v : Value) :
    Ends (assign i target v) s' (fun _ s'' => ∃ place, Names i s' target place ∧ s.Writes place v s'')
      (fun _ s'' => s.Grows s'') := by
  cases target with
  | var x =>
      simp only [assign, writeVar, Ends.bind_iff, Ends.get_iff]
      split
      · rename_i k hk
        have hk' : s.scopes.owner? i x = some k := by rwa [h.scopes] at hk
        exact ⟨_, .var hk, .define h hk' v⟩
      · exact h
  | index b e =>
      simp only [assign, Ends.bind_iff]
      refine ((eval_harmless i b s').and (.result _ _)).mono (fun base s₁ h₁ => ?_)
        (fun _ _ h₁ => h.trans h₁.1)
      obtain ⟨h₁, hb⟩ := h₁
      refine ((eval_harmless i e s₁).and (.result _ _)).mono (fun w s₂ h₂ => ?_)
        (fun _ _ h₂ => h.trans (h₁.trans h₂.1))
      obtain ⟨h₂, hw⟩ := h₂
      have hgrows : s.Grows s₂ := h.trans (h₁.trans h₂)
      split
      · simp only [Ends.bind_iff, Ends.get_iff, Ends.orFault_iff, Ends.modify_iff]
        refine ⟨fun n hn => ?_, fun _ _ => hgrows⟩
        exact ⟨_, .index hb hw hn, .setItem hgrows (lt_of_resolve hn) v⟩
      · simp only [Ends.orFault_iff]
        refine ⟨?_, fun _ _ => hgrows⟩
        rintro _ ⟨⟩
  | _ =>
      simp only [assign, Ends.orFault_iff]
      refine ⟨?_, fun _ _ => h⟩
      rintro _ ⟨⟩

/-- Expressions have no side effects: however an evaluation ends, all frames and all lists that were there are
as before, and a list that a sum or a product returns is none of those that were there. So an assignment that
fails leaves no trace, and one that succeeds writes its value to the one place that its target names. -/
theorem assignment_writes_one_place (i : ScopeId) :
    (∀ e σ, Ends (eval i e) σ (fun _ σ' => σ.Grows σ') (fun _ σ' => σ.Grows σ')) ∧
    (∀ op a b σ l σ', op = .add ∨ op = .mul → eval i (.binary op a b) σ = .ok (.list l) σ' →
      ¬σ.HasList l ∧ σ'.HasList l ∧
      ∃ v w σ₁ σ₂, eval i a σ = .ok v σ₁ ∧ eval i b σ₁ = .ok w σ₂ ∧ ¬σ₂.HasList l) ∧
    ∀ rounds target e σ, Ends (runStmt rounds i (.assign target e)) σ
      (fun signal σ' => signal = none ∧ ∃ v σ₁ place, eval i e σ = .ok v σ₁ ∧
        Names i σ₁ target place ∧ σ.Writes place v σ')
      (fun _ σ' => σ.Grows σ') := by
  refine ⟨fun e σ => eval_harmless i e σ, fun op a b σ l σ' hop h => ?_, fun rounds target e σ => ?_⟩
  · obtain ⟨v, w, σ₁, σ₂, hv, hw, hnew, hl⟩ := eval_makes_new hop h
    have hgrows : σ.Grows σ₂ := ((eval_harmless i a σ).of_ok hv).trans ((eval_harmless i b σ₁).of_ok hw)
    exact ⟨fun hold => hnew (hgrows.hasList hold), hl, v, w, σ₁, σ₂, hv, hw, hnew⟩
  · simp only [runStmt, Ends.bind_iff, Ends.ofEval_iff, Ends.pure_iff]
    refine ((eval_harmless i e σ).and (.result _ _)).mono (fun v σ₁ h₁ => ?_) (fun _ _ h => h.1)
    obtain ⟨h₁, hv⟩ := h₁
    refine (assign_writes h₁ target v).mono (fun _ σ' hσ' => ?_) (fun _ _ h => h)
    obtain ⟨place, hplace, hwrites⟩ := hσ'
    exact ⟨trivial, v, σ₁, place, hv, hplace, hwrites⟩

/-- A variable `x` that is bound to a list of one element. -/
def oneList : Store := ⟨Scopes.empty.root.2.define ⟨0⟩ "x" (.list ⟨0⟩), #[#[.int 1]], #[]⟩

/-- In `x[0] = x + x` the sum is a new list, and the assignment writes the one element of the old one. -/
theorem sum_written_to_element :
    (∃ σ', eval ⟨0⟩ (.binary .add (.var "x") (.var "x")) oneList = .ok (.list ⟨1⟩) σ' ∧
      ¬oneList.HasList ⟨1⟩) ∧
    ∃ σ' place v, runStmt 0 ⟨0⟩ (.assign (.index (.var "x") (.constant (.int 0)))
        (.binary .add (.var "x") (.var "x"))) oneList = .ok none σ' ∧ oneList.Writes place v σ' := by
  obtain ⟨_, hnew, hassign⟩ := assignment_writes_one_place ⟨0⟩
  have hsum : ∃ σ', eval ⟨0⟩ (.binary .add (.var "x") (.var "x")) oneList = .ok (.list ⟨1⟩) σ' := ⟨_, rfl⟩
  obtain ⟨σ₁, hsum⟩ := hsum
  have hrun : ∃ σ', runStmt 0 ⟨0⟩ (.assign (.index (.var "x") (.constant (.int 0)))
      (.binary .add (.var "x") (.var "x"))) oneList = .ok none σ' := ⟨_, rfl⟩
  obtain ⟨σ₂, hrun⟩ := hrun
  obtain ⟨_, v, _, place, _, _, hwrites⟩ := (hassign 0 _ _ oneList).of_ok hrun
  exact ⟨⟨σ₁, hsum, (hnew _ _ _ _ _ _ (.inl rfl) hsum).1⟩, σ₂, place, v, hrun, hwrites⟩

end ScriptEngine
