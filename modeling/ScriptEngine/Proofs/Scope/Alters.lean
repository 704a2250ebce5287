import ScriptEngine.Proofs.Scope.Keeps
import ScriptEngine.Syntax.Stmt

/-!
# What a change of scopes alters

A change is bounded by two sets of bindings: those that may have got another value, and those that may be
new. Outside of them every frame that was there is as it was. Functions and the places of the scopes are
never in question.
-/

namespace ScriptEngine.Scopes

variable {V F : Type} {W W' N N' : ScopeId → String → Prop} {s s' s'' : Scopes V F} {i k : ScopeId}
  {x : String} {xs ys : List String} {v : V}

/-- From `s` to `s'` scopes have been added, bindings in `W` may have another value, names in `N` may be
bound that were not, and nothing else has changed. -/
structure Alters (W N : ScopeId → String → Prop) (s s' : Scopes V F) : Prop where
  wellFormed : s.WellFormed → s'.WellFormed
  /-- Every frame keeps its functions and the scopes around it. -/
  frame : ∀ k f, s.frame? k = some f → ∃ vars, s'.frame? k = some { f with vars := vars }
  /-- A frame without a binding in `W` is the same frame. -/
  untouched : ∀ k, s.Has k → (∀ x, ¬W k x) → s'.frame? k = s.frame? k
  vars : ∀ k x, s.Has k → ¬W k x → s'.local? k x = s.local? k x
  kept : ∀ k x, s.binds k x = true → s'.binds k x = true
  names : ∀ k x, s.Has k → ¬N k x → s'.binds k x = s.binds k x

/-- What binding the names `xs` in the scope `i` may alter. -/
abbrev AltersAt (i : ScopeId) (xs : List String) (s s' : Scopes V F) : Prop :=
  Alters (fun k x => k = i ∧ x ∈ xs) (fun k x => k = i ∧ x ∈ xs) s s'

namespace Alters

theorem refl (W N : ScopeId → String → Prop) (s : Scopes V F) : Alters W N s s :=
  ⟨id, fun _ f hf => ⟨f.vars, hf⟩, fun _ _ _ => rfl, fun _ _ _ _ => rfl, fun _ _ h => h, fun _ _ _ _ => rfl⟩

theorem has (h : Alters W N s s') (hk : s.Has k) : s'.Has k := by
  obtain ⟨f, hf⟩ := hk.frame?
  obtain ⟨vars, hf'⟩ := h.frame k f hf
  exact frame?_isSome.mp (by rw [hf']; rfl)

theorem outer (h : Alters W N s s') (hk : s.Has k) : s'.outer k = s.outer k := by
  obtain ⟨f, hf⟩ := hk.frame?
  obtain ⟨vars, hf'⟩ := h.frame k f hf
  simp [Scopes.outer, hf, hf']

theorem chain (h : Alters W N s s') (hk : s.Has k) : s'.chain k = s.chain k := by
  simp [Scopes.chain, h.outer hk]

/-- A name that is not altered in the scopes of a chain means there what it meant. -/
theorem find? (h : Alters W N s s') (hs : s.WellFormed) (hk : s.Has k) (hx : ∀ m ∈ s.chain k, ¬W m x) :
    s'.find? k x = s.find? k x :=
  find?_congr (h.chain hk) fun m hm => h.vars m x (hs.has_of_mem_chain hk hm) (hx m hm)

/-- Of what a second change may do, that matters which it does to scopes from before the first. -/
theorem trans_of (hW : ∀ k x, s.Has k → W' k x → W k x) (hN : ∀ k x, s.Has k → N' k x → N k x)
    (h : Alters W N s s') (h' : Alters W' N' s' s'') : Alters W N s s'' where
  wellFormed hs := h'.wellFormed (h.wellFormed hs)
  frame k f hf := by
    obtain ⟨_, hf'⟩ := h.frame k f hf
    obtain ⟨vars, hf''⟩ := h'.frame k _ hf'
    exact ⟨vars, hf''⟩
  untouched k hk hw :=
    (h'.untouched k (h.has hk) fun x hx => hw x (hW k x hk hx)).trans (h.untouched k hk hw)
  vars k x hk hw := (h'.vars k x (h.has hk) fun hx => hw (hW k x hk hx)).trans (h.vars k x hk hw)
  kept k x hx := h'.kept k x (h.kept k x hx)
  names k x hk hn := (h'.names k x (h.has hk) fun hx => hn (hN k x hk hx)).trans (h.names k x hk hn)

theorem trans (h : Alters W N s s') (h' : Alters W N s' s'') : Alters W N s s'' :=
  trans_of (fun _ _ _ hw => hw) (fun _ _ _ hn => hn) h h'

theorem mono (hW : ∀ k x, s.Has k → W k x → W' k x) (hN : ∀ k x, s.Has k → N k x → N' k x)
    (h : Alters W N s s') : Alters W' N' s s' := trans_of hW hN (.refl W' N' s) h

theorem keeps (h : Alters W N s s') : Keeps (fun k => ∀ x, ¬W k x) s s' where
  wellFormed := h.wellFormed
  has _ hk := h.has hk
  outer _ hk := h.outer hk
  functions k hk x := by
    obtain ⟨f, hf⟩ := hk.frame?
    obtain ⟨vars, hf'⟩ := h.frame k f hf
    simp [localFunction?, hf, hf']
  names := h.kept
  vars k hk hw x := h.vars k x hk (hw x)

theorem define (hi : s.Has i) :
    Alters (fun k y => k = i ∧ y = x) (fun k y => k = i ∧ y = x) s (s.define i x v) where
  wellFormed hs := hs.define
  frame k f hf := by
    unfold Scopes.define
    rw [frame?_modifyFrame, hf]
    by_cases hk : k = i
    · exact ⟨f.vars.insert x v, by simp [hk]⟩
    · exact ⟨f.vars, by simp [hk]⟩
  untouched k _ hk := by
    unfold Scopes.define
    rw [frame?_modifyFrame, if_neg fun h => hk x ⟨h, rfl⟩]
  vars k y _ hk := by rw [local?_define hi, if_neg hk]
  kept k y hy := by
    unfold binds at hy ⊢
    rw [local?_define hi]
    split
    · rfl
    · exact hy
  names k y _ hk := by
    unfold binds
    rw [local?_define hi, if_neg hk]

/-- Binding a name anew where it is bound binds no new name. -/
theorem rebind (hi : s.binds i x = true) :
    Alters (fun k y => k = i ∧ y = x) (fun _ _ => False) s (s.define i x v) :=
  { define (has_of_binds hi) with names := fun _ _ _ _ => binds_define_of_binds hi }

theorem atMono (hxs : xs ⊆ ys) (h : AltersAt i xs s s') : AltersAt i ys s s' :=
  h.mono (fun _ _ _ hw => ⟨hw.1, hxs hw.2⟩) (fun _ _ _ hn => ⟨hn.1, hxs hn.2⟩)

theorem defineAll {bs : List (String × V)} (hi : s.Has i) : AltersAt i (bs.map Prod.fst) s (s.defineAll i bs) := by
  unfold Scopes.defineAll
  induction bs generalizing s with
  | nil => exact .refl _ _ s
  | cons b bs ih =>
      have hhead : ∀ k y, s.Has k → (k = i ∧ y = b.1) → k = i ∧ y ∈ (b :: bs).map Prod.fst :=
        fun k y _ h => ⟨h.1, by simp [h.2]⟩
      have htail : ∀ k y, s.Has k → (k = i ∧ y ∈ bs.map Prod.fst) → k = i ∧ y ∈ (b :: bs).map Prod.fst :=
        fun k y _ h => ⟨h.1, List.mem_cons_of_mem _ h.2⟩
      exact trans_of htail htail ((define hi).mono hhead hhead) (ih (has_define.mpr hi))

theorem child (hi : s.Has i) : Alters W N s (s.child i).2 where
  wellFormed hs := hs.child hi
  frame k f hf := by
    have hk : s.Has k := frame?_isSome.mp (by rw [hf]; rfl)
    exact ⟨f.vars, by rw [Scopes.child, frame?_add, if_neg hk.ne_fresh, hf]⟩
  untouched k hk _ := by rw [Scopes.child, frame?_add, if_neg hk.ne_fresh]
  vars _ _ _ _ := local?_add _
  kept k x hx := by simpa [binds, Scopes.child] using hx
  names k x _ _ := by simp [binds, Scopes.child]

/-- What is bound in a new scope alters no scope that was there before. -/
theorem of_child (hi : s.Has i) (h : AltersAt (s.child i).1 xs (s.child i).2 s') : Alters W N s s' :=
  trans_of (fun _ _ hk hw => absurd hw.1 hk.ne_fresh) (fun _ _ hk hn => absurd hn.1 hk.ne_fresh) (child hi) h

end Alters

end ScriptEngine.Scopes

namespace ScriptEngine

/-- The names that a statement declares in the scope it stands in. -/
def Stmt.declares : Stmt → List String
  | .declare ds => ds.map Decl.name
  | _ => []

/-- The names that statements declare in the scope they stand in. What stands inside of another statement
is not looked at. -/
def declared (b : List Stmt) : List String := b.flatMap Stmt.declares

theorem declared_cons (st : Stmt) (rest : List Stmt) : declared (st :: rest) = st.declares ++ declared rest :=
  List.flatMap_cons

end ScriptEngine
