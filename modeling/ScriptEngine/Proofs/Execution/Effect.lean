import ScriptEngine.Proofs.Evaluation.Effect
import ScriptEngine.Proofs.Scope.Alters

/-!
# What a run changes

A run in a scope, however it ends, leaves alone what the scopes outside its chain bind. In the scopes
around its own it changes values but not which names are bound: only declarations bind new names, and
they do so in the scope they stand in. Lists get other elements but no other length.
-/

namespace ScriptEngine

open Scopes

/-! ## Changes of the store -/

/-- From `s` to `s'` lists have been added, and others may have got other elements, as many as before. -/
structure Store.Fills (s s' : Store) : Prop where
  scopes : s'.scopes = s.scopes
  functions : s'.functions = s.functions
  lists : s.lists.toList.map Array.size <+: s'.lists.toList.map Array.size

namespace Store.Fills

variable {s s' s'' : Store}

theorem trans (h : s.Fills s') (h' : s'.Fills s'') : s.Fills s'' :=
  ⟨h'.scopes.trans h.scopes, h'.functions.trans h.functions, h.lists.trans h'.lists⟩

theorem of_grows (h : s.Grows s') : s.Fills s' := ⟨h.scopes, h.functions, h.lists.map _⟩

theorem setItem (s : Store) (l : ListId) (n : Nat) (v : Value) : s.Fills (s.setItem l n v) where
  scopes := rfl
  functions := rfl
  lists := by
    have hsize : ∀ m : Nat, ((s.setItem l n v).lists.toList.map Array.size)[m]? =
        (s.lists.toList.map Array.size)[m]? := by
      intro m
      simp only [Store.setItem, List.getElem?_map, Array.getElem?_toList, Array.getElem?_modify]
      by_cases hm : l.index = m
      · simp [hm, Function.comp_def]
      · simp [hm]
    exact List.ext_getElem? hsize ▸ List.prefix_rfl

end Store.Fills

/-- From `s` to `s'` the scopes are altered within `W` and `N`, and every list that was there has as many
elements as before. -/
structure Store.Alters (W N : ScopeId → String → Prop) (s s' : Store) : Prop where
  scopes : Scopes.Alters W N s.scopes s'.scopes
  functions : s'.functions = s.functions
  lists : s.lists.toList.map Array.size <+: s'.lists.toList.map Array.size

/-- What a run in the scope `i` that declares the names `xs` there may alter: the values of all scopes that
it sees, and which of these names its own scope binds. -/
abbrev Store.AltersIn (i : ScopeId) (xs : List String) (s s' : Store) : Prop :=
  s.Alters (fun k _ => k ∈ s.scopes.chain i) (fun k x => k = i ∧ x ∈ xs) s'

namespace Store.Alters

variable {W W' N N' : ScopeId → String → Prop} {s s' s'' : Store} {i : ScopeId} {xs ys : List String}

theorem trans_of (hW : ∀ k x, s.scopes.Has k → W' k x → W k x)
    (hN : ∀ k x, s.scopes.Has k → N' k x → N k x) (h : s.Alters W N s') (h' : s'.Alters W' N' s'') :
    s.Alters W N s'' :=
  ⟨.trans_of hW hN h.scopes h'.scopes, h'.functions.trans h.functions, h.lists.trans h'.lists⟩

theorem of_fills (h : s.Fills s') : s.Alters W N s' := ⟨h.scopes ▸ .refl W N _, h.functions, h.lists⟩

theorem refl (W N : ScopeId → String → Prop) (s : Store) : s.Alters W N s :=
  ⟨.refl W N _, rfl, List.prefix_rfl⟩

theorem mapScopes {f : Scopes Value FunctionId → Scopes Value FunctionId}
    (h : Scopes.Alters W N s.scopes (f s.scopes)) : s.Alters W N (s.mapScopes f) :=
  ⟨h, rfl, List.prefix_rfl⟩

theorem child (hi : s.scopes.Has i) : s.Alters W N (s.child i).2 := ⟨.child hi, rfl, List.prefix_rfl⟩

theorem mono (hN : xs ⊆ ys) (h : s.AltersIn i xs s') : s.AltersIn i ys s' :=
  ⟨h.scopes.mono (fun _ _ _ hw => hw) (fun _ _ _ hn => ⟨hn.1, hN hn.2⟩), h.functions, h.lists⟩

theorem trans (hi : s.scopes.Has i) (h : s.AltersIn i xs s') (h' : s'.AltersIn i xs s'') :
    s.AltersIn i xs s'' := by
  -- the second run sees the chain that the first one saw
  refine trans_of (fun k _ _ hk => ?_) (fun _ _ _ hn => hn) h h'
  rwa [h.scopes.chain hi] at hk

/-- A run in a new scope binds no name in a scope that was there, and what it sees of those lies around the
new one. -/
theorem of_child (hi : s.scopes.Has i) (h : (s.child i).2.AltersIn (s.child i).1 xs s') :
    s.AltersIn i [] s' := by
  refine trans_of (fun k x hk hw => ?_) (fun k x hk hn => absurd hn.1 hk.ne_fresh) (child hi) h
  have hc : (s.child i).2.scopes.chain (s.child i).1 = (s.scopes.child i).1 :: s.scopes.chain i :=
    congrArg _ outer_child
  rw [hc] at hw
  exact (List.mem_cons.mp hw).resolve_left hk.ne_fresh

end Store.Alters

/-! ## The steps of a run -/

/-- A step that, however it ends, alters what a run in `i` that declares the names `xs` may. -/
def Bounded {α : Type} (i : ScopeId) (xs : List String) (x : Exec α) : Prop :=
  ∀ s, s.scopes.Has i → Ends x s (fun _ s' => s.AltersIn i xs s') (fun _ s' => s.AltersIn i xs s')

theorem evalOptional_harmless {i : ScopeId} : (e : Option Expr) → Harmless (evalOptional i e)
  | some e => eval_harmless i e
  | none => .pure _

theorem assignElement_fills {i : ScopeId} (b k : Expr) (v : Value) (s : Store) :
    Ends (assign i (.index b k) v) s (fun _ s' => s.Fills s') (fun _ s' => s.Fills s') := by
  simp only [ScriptEngine.assign, Ends.bind_iff]
  refine (eval_harmless i b s).mono (fun base s₁ h₁ => ?_) (fun _ _ h => .of_grows h)
  refine (eval_harmless i k s₁).mono (fun index s₂ h₂ => ?_) (fun _ _ h => .of_grows (h₁.trans h))
  have hs : s.Fills s₂ := .of_grows (h₁.trans h₂)
  split
  · simp only [Ends.bind_iff, Ends.get_iff, Ends.orFault_iff, Ends.modify_iff]
    exact ⟨fun _ _ => hs.trans (.setItem _ _ _ _), fun _ _ => hs⟩
  · simp only [Ends.orFault_iff]
    exact ⟨fun _ _ => hs, fun _ _ => hs⟩

namespace Bounded

variable {α β : Type} {i : ScopeId} {xs ys : List String} {x : Exec α} {f : α → Exec β}

theorem pure (a : α) : Bounded i xs (pure a : Exec α) := fun s _ => .refl _ _ s

theorem get : Bounded i xs (get : Exec Store) := fun s _ => .refl _ _ s

theorem mono (hN : xs ⊆ ys) (h : Bounded i xs x) : Bounded i ys x := fun s hi =>
  (h s hi).mono (fun _ _ h => h.mono hN) (fun _ _ h => h.mono hN)

theorem bind (hx : Bounded i xs x) (hf : ∀ a, Bounded i xs (f a)) : Bounded i xs (x >>= f) := by
  intro s hi
  rw [Ends.bind_iff]
  refine (hx s hi).mono (fun a s₁ h₁ => ?_) (fun _ _ h => h)
  exact (hf a s₁ (h₁.scopes.has hi)).mono (fun _ _ h => h₁.trans hi h) (fun _ _ h => h₁.trans hi h)

theorem ofEval {x : EStateM Error Store α} (h : Harmless x) : Bounded i xs (Exec.ofEval x) := by
  intro s _
  rw [Ends.ofEval_iff]
  exact (h s).mono (fun _ _ h => .of_fills (.of_grows h)) (fun _ _ h => .of_fills (.of_grows h))

/-- What a run declares in a new scope is not declared in the one around it. -/
theorem within (ys : List String) {f : ScopeId → Exec α} (hf : ∀ j, Bounded j ys (f j)) :
    Bounded i [] (do f (← Exec.enter i)) := by
  intro s hi
  rw [Ends.bind_iff, Ends.enter_iff]
  exact (hf _ _ (has_child.mpr (.inr rfl))).mono (fun _ _ h => h.of_child hi) (fun _ _ h => h.of_child hi)

theorem test (e : Expr) : Bounded i xs (test i e) :=
  .bind (.ofEval (eval_harmless i e)) fun _ => .bind .get fun _ => .pure _

theorem define {y : String} (hy : y ∈ xs) (v : Value) : Bounded i xs (Exec.define i y v) := by
  intro s hi
  rw [Ends.define_iff]
  refine .mapScopes ((Scopes.Alters.define hi).mono ?_ ?_)
  · rintro k _ _ ⟨rfl, _⟩
    exact List.mem_cons_self
  · rintro k _ _ ⟨rfl, rfl⟩
    exact ⟨rfl, hy⟩

theorem declare : (ds : List Decl) → (∀ d ∈ ds, d.name ∈ xs) → Bounded i xs (declare i ds)
  | [], _ => .pure _
  | d :: ds, hds => by
      have hd := hds d List.mem_cons_self
      have hrest := declare ds fun d hd => hds d (List.mem_cons_of_mem _ hd)
      exact .bind (.ofEval (evalOptional_harmless d.value)) fun v => .bind (.define hd v) fun _ => hrest

/-- A new value for a variable goes where the variable is bound, so no scope gains a name. -/
theorem writeVar (x : String) (v : Value) : Bounded i xs (Exec.ofEval (writeVar i x v)) := by
  intro s _
  rw [Ends.ofEval_iff]
  unfold ScriptEngine.writeVar
  rw [Ends.bind_iff, Ends.get_iff]
  split
  · rename_i k hk
    have hkc : k ∈ s.scopes.chain i := List.mem_of_find?_eq_some hk
    have hb : s.scopes.binds k x = true := List.find?_some (p := (s.scopes.binds · x)) hk
    refine .mapScopes ((Scopes.Alters.rebind hb).mono ?_ (fun _ _ _ hn => hn.elim))
    rintro _ _ _ ⟨rfl, _⟩
    exact hkc
  · exact .refl _ _ s

theorem assign (target : Expr) (v : Value) : Bounded i xs (Exec.ofEval (assign i target v)) := by
  cases target with
  | var x => exact writeVar x v
  | index b k =>
      intro s _
      rw [Ends.ofEval_iff]
      exact (assignElement_fills b k v s).mono (fun _ _ h => .of_fills h) (fun _ _ h => .of_fills h)
  | _ => simp only [ScriptEngine.assign]; exact .ofEval (.orFault _)

theorem repeatWhile {condition : Exec Bool} {body : Exec (Option Signal)} (hc : Bounded i xs condition)
    (hb : Bounded i xs body) (n : Nat) : Bounded i xs (repeatWhile condition body n) := by
  intro s hi
  refine Ends.repeatWhile (I := s.AltersIn i xs) (J := s.AltersIn i xs) (fun s₁ h₁ => ?_) (fun s₁ h₁ => ?_)
    (fun _ h => h) n s (.refl _ _ s)
  · refine (hc s₁ (h₁.scopes.has hi)).mono (fun b s₂ h₂ => ?_) (fun _ _ h => h₁.trans hi h)
    cases b <;> simpa using h₁.trans hi h₂
  · refine (hb s₁ (h₁.scopes.has hi)).mono (fun signal s₂ h₂ => ?_) (fun _ _ h => h₁.trans hi h)
    split <;> exact h₁.trans hi h₂

end Bounded

/-! ## Statements -/

mutual

theorem runStmt_bounded {rounds : Nat} {i : ScopeId} : (st : Stmt) → Bounded i st.declares (runStmt rounds i st)
  | .block body => by
      simp only [runStmt]
      exact .within (declared body) fun _ => runBlock_bounded body
  | .noop => by simp only [runStmt]; exact .pure _
  | .expr e => by
      simp only [runStmt]
      exact .bind (.ofEval (eval_harmless i e)) fun _ => .pure _
  | .branch bs => by simp only [runStmt]; exact runBranches_bounded bs
  | .loop c body => by
      simp only [runStmt]
      exact .repeatWhile (.test c) (.within (declared body) fun _ => runBlock_bounded body) rounds
  | .declare ds => by
      simp only [runStmt]
      exact .bind (.declare ds fun _ hd => List.mem_map_of_mem hd) fun _ => .pure _
  | .assign target e => by
      simp only [runStmt]
      exact .bind (.ofEval (eval_harmless i e)) fun v => .bind (.assign target v) fun _ => .pure _
  | .ret e => by
      simp only [runStmt]
      exact .bind (.ofEval (evalOptional_harmless e)) fun _ => .pure _
  | .break => by simp only [runStmt]; exact .pure _
  | .continue => by simp only [runStmt]; exact .pure _

theorem runBranches_bounded {rounds : Nat} {i : ScopeId} :
    (bs : Branches) → Bounded i [] (runBranches rounds i bs)
  | .arm c body rest => by
      simp only [runBranches]
      refine .bind (.test c) fun b => ?_
      split
      · exact .within (declared body) fun _ => runBlock_bounded body
      · exact runBranches_bounded rest
  | .otherwise body => by
      simp only [runBranches]
      exact .within (declared body) fun _ => runBlock_bounded body

/-- A run of statements in the scope `i` alters the values of the scopes that it sees, and binds no new name
but those that the statements themselves declare, in `i`. -/
theorem runBlock_bounded {rounds : Nat} {i : ScopeId} :
    (b : List Stmt) → Bounded i (declared b) (runBlock rounds i b)
  | [] => by simp only [runBlock]; exact .pure _
  | st :: rest => by
      simp only [runBlock, declared_cons]
      refine .bind ((runStmt_bounded st).mono (List.subset_append_left _ _)) fun signal => ?_
      split
      · exact .pure _
      · exact (runBlock_bounded rest).mono (List.subset_append_right _ _)

end

/-! ## Runs without regard to what they declare -/

/-- What a run in the scope `i` may do to the scopes. -/
structure Store.RunsIn (i : ScopeId) (s s' : Store) : Prop where
  keeps : Keeps (· ∉ s.scopes.chain i) s.scopes s'.scopes
  names : ∀ k, s.scopes.Has k → k ≠ i → ∀ x, s'.scopes.binds k x = s.scopes.binds k x

theorem Store.Alters.runsIn {i : ScopeId} {xs : List String} {s s' : Store} (h : s.AltersIn i xs s') :
    s.RunsIn i s' where
  keeps := h.scopes.keeps.mono fun _ _ hk _ => hk
  names k hk hki x := h.scopes.names k x hk fun hn => hki hn.1

/-- A step that, however it ends, does to the scopes what a run in `i` may do. -/
def Confined {α : Type} (i : ScopeId) (x : Exec α) : Prop :=
  ∀ s, s.scopes.Has i → Ends x s (fun _ s' => s.RunsIn i s') (fun _ s' => s.RunsIn i s')

/-- A run of statements in the scope `i` is confined to it and the scopes around it. -/
theorem runBlock_confined {rounds : Nat} {i : ScopeId} (b : List Stmt) : Confined i (runBlock rounds i b) :=
  fun s hi => (runBlock_bounded b s hi).mono (fun _ _ h => h.runsIn) (fun _ _ h => h.runsIn)

/-! ## Calls -/

/-- The store that the body of a function is run from: its new scope binds the parameters. -/
def Function.entered (f : Function) (arguments : List Value) (σ : Store) : Store :=
  (σ.child f.scope).2.mapScopes (·.defineAll (σ.child f.scope).1 ((f.parameters.map Prod.fst).zip arguments))

end ScriptEngine
