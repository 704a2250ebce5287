import ScriptEngine.Scope

/-!
# Well-formed scopes

A scope is made inside scopes that exist, so the scopes around it are older than it, and they are those
around its parent with the parent before them. Every way to make or change a scope keeps this, and it
makes all scopes of a chain different from each other.
-/

namespace ScriptEngine.Scopes

variable {V F : Type} {s : Scopes V F} {i j k : ScopeId} {x y : String} {v : V}

/-- There is a frame for the scope `i`. -/
def Has (s : Scopes V F) (i : ScopeId) : Prop := i.index < s.frames.size

/-- Around every scope is nothing, or an older scope and what is around that. -/
def WellFormed (s : Scopes V F) : Prop :=
  ∀ i, s.Has i → s.outer i = [] ∨ ∃ p : ScopeId, p.index < i.index ∧ s.outer i = s.chain p

/-! ## Frames after a change -/

theorem ScopeId.ext_iff {i j : ScopeId} : i = j ↔ i.index = j.index := by
  cases i; cases j; simp

theorem frame?_modifyFrame (f : Frame V F → Frame V F) :
    (s.modifyFrame i f).frame? k = if k = i then (s.frame? k).map f else s.frame? k := by
  simp only [frame?, modifyFrame, Array.getElem?_modify, ScopeId.ext_iff,
    eq_comm (a := i.index)]

@[simp] theorem has_modifyFrame (f : Frame V F → Frame V F) :
    (s.modifyFrame i f).Has k ↔ s.Has k := by simp [Has, modifyFrame]

theorem frame?_isSome : (s.frame? i).isSome ↔ s.Has i := by simp [frame?, Has]

theorem Has.frame? (h : s.Has i) : ∃ f, s.frame? i = some f :=
  Option.isSome_iff_exists.mp (frame?_isSome.mpr h)

theorem frame?_eq_none (h : ¬s.Has i) : s.frame? i = none := by
  simpa [Scopes.frame?, Has] using h

@[simp] theorem outer_modifyFrame {f : Frame V F → Frame V F} (hf : ∀ fr, (f fr).outer = fr.outer) :
    (s.modifyFrame i f).outer k = s.outer k := by
  simp only [outer, frame?_modifyFrame]
  by_cases h : k = i
  · subst h
    cases s.frame? k <;> simp [hf]
  · simp [h]

@[simp] theorem outer_define : (s.define i x v).outer k = s.outer k :=
  outer_modifyFrame fun _ => rfl

@[simp] theorem chain_define : (s.define i x v).chain k = s.chain k := by simp [chain]

@[simp] theorem has_define : (s.define i x v).Has k ↔ s.Has k := has_modifyFrame _

/-- Binding a variable changes what its own frame binds it to, and nothing else. -/
theorem local?_define (h : s.Has i) :
    (s.define i x v).local? k y = if k = i ∧ y = x then some v else s.local? k y := by
  obtain ⟨f, hf⟩ := h.frame?
  unfold local? define
  rw [frame?_modifyFrame]
  by_cases hk : k = i
  · subst hk
    by_cases hy : y = x <;> simp [hf, hy]
  · simp [hk]

theorem local?_define_ne (h : k ≠ i) : (s.define i x v).local? k y = s.local? k y := by
  unfold local? define
  rw [frame?_modifyFrame, if_neg h]

/-- What there is no frame for binds nothing. -/
theorem define_of_not_has (h : ¬s.Has i) : s.define i x v = s := by
  have hnone : s.frames[i.index]? = none := frame?_eq_none h
  unfold define modifyFrame
  congr 1
  refine Array.ext_getElem? fun m => ?_
  rw [Array.getElem?_modify]
  split
  · rename_i hm
    rw [← hm, hnone]
    rfl
  · rfl

@[simp] theorem localFunction?_define : (s.define i x v).localFunction? k y = s.localFunction? k y := by
  unfold localFunction? define
  rw [frame?_modifyFrame]
  by_cases hk : k = i
  · subst hk
    cases s.frame? k <;> simp
  · simp [hk]

@[simp] theorem outer_defineFunction {f : F} : (s.defineFunction i x f).outer k = s.outer k :=
  outer_modifyFrame fun _ => rfl

@[simp] theorem has_defineFunction {f : F} : (s.defineFunction i x f).Has k ↔ s.Has k := has_modifyFrame _

@[simp] theorem local?_defineFunction {f : F} : (s.defineFunction i x f).local? k y = s.local? k y := by
  unfold local? defineFunction
  rw [frame?_modifyFrame]
  by_cases hk : k = i
  · subst hk
    cases s.frame? k <;> simp
  · simp [hk]

/-- Binding a function changes what its own frame binds it to, and nothing else. -/
theorem localFunction?_defineFunction {f : F} (h : s.Has i) :
    (s.defineFunction i x f).localFunction? k y =
      if k = i ∧ y = x then some f else s.localFunction? k y := by
  obtain ⟨fr, hf⟩ := h.frame?
  unfold localFunction? defineFunction
  rw [frame?_modifyFrame]
  by_cases hk : k = i
  · subst hk
    by_cases hy : y = x <;> simp [hf, hy]
  · simp [hk]

/-! ## New scopes -/

theorem frame?_add (o : List ScopeId) :
    (s.add o).2.frame? k = if k = s.fresh then some ⟨.empty, .empty, o⟩ else s.frame? k := by
  simp only [frame?, add, fresh, Array.getElem?_push, ScopeId.ext_iff]

theorem has_add (o : List ScopeId) : (s.add o).2.Has k ↔ s.Has k ∨ k = s.fresh := by
  simp only [Has, add, fresh, Array.size_push, ScopeId.ext_iff]
  omega

theorem not_has_fresh : ¬s.Has s.fresh := Nat.lt_irrefl _

theorem Has.ne_fresh (h : s.Has k) : k ≠ s.fresh := fun e => not_has_fresh (e ▸ h)

theorem outer_add (o : List ScopeId) :
    (s.add o).2.outer k = if k = s.fresh then o else s.outer k := by
  simp only [outer, frame?_add]
  by_cases h : k = s.fresh <;> simp [h]

@[simp] theorem local?_add (o : List ScopeId) : (s.add o).2.local? k x = s.local? k x := by
  simp only [local?, frame?_add]
  by_cases h : k = s.fresh
  · simp [h, frame?_eq_none not_has_fresh]
  · simp [h]

@[simp] theorem localFunction?_add (o : List ScopeId) :
    (s.add o).2.localFunction? k x = s.localFunction? k x := by
  simp only [localFunction?, frame?_add]
  by_cases h : k = s.fresh
  · simp [h, frame?_eq_none not_has_fresh]
  · simp [h]

theorem local?_eq_none (h : ¬s.Has k) : s.local? k x = none := by
  simp [local?, frame?_eq_none h]

theorem has_of_binds (h : s.binds k x = true) : s.Has k := by
  by_cases hk : s.Has k
  · exact hk
  · simp [binds, local?_eq_none hk] at h

/-- Binding anew where a name is bound already adds no name. -/
theorem binds_define_of_binds {y : String} (h : s.binds i x = true) :
    (s.define i x v).binds k y = s.binds k y := by
  unfold binds at h ⊢
  rw [local?_define (has_of_binds h)]
  split
  · rename_i hk
    rw [hk.1, hk.2, h]
    rfl
  · rfl

/-- A name means what the frame that owns it binds it to. -/
theorem find?_eq_bind_owner? : s.find? i x = (s.owner? i x).bind (s.local? · x) := by
  unfold find? owner?
  induction s.chain i with
  | nil => rfl
  | cons k ks ih =>
      rw [List.findSome?_cons, List.find?_cons, binds]
      cases h : s.local? k x with
      | none => exact ih
      | some v => exact h.symm

/-- What a name means depends on the frames of the chain alone. -/
theorem find?_congr {t : Scopes V F} (hchain : t.chain k = s.chain k)
    (h : ∀ m ∈ s.chain k, t.local? m x = s.local? m x) : t.find? k x = s.find? k x := by
  unfold find?
  rw [hchain]
  generalize s.chain k = ks at h ⊢
  induction ks with
  | nil => rfl
  | cons m ms ih =>
      obtain ⟨hm, hms⟩ := List.forall_mem_cons.mp h
      rw [List.findSome?_cons, List.findSome?_cons, hm, ih hms]

theorem find?_define (h : s.Has i) : (s.define i x v).find? i y = if y = x then some v else s.find? i y := by
  unfold find?
  rw [chain_define, chain, List.findSome?_cons, List.findSome?_cons, local?_define h]
  by_cases hy : y = x
  · simp [hy]
  · have hrest : ∀ k, (s.define i x v).local? k y = s.local? k y := fun k => by
      rw [local?_define h, if_neg fun hk => hy hk.2]
    simp only [hy, and_false, if_false, hrest]

/-! ## The invariant -/

theorem WellFormed.outer_lt (hs : s.WellFormed) (hi : s.Has i) : ∀ k ∈ s.outer i, k.index < i.index := by
  obtain ⟨n, hn⟩ : ∃ n, i.index = n := ⟨_, rfl⟩
  induction n using Nat.strongRecOn generalizing i with
  | _ n ih =>
      intro k hk
      rcases hs i hi with h | ⟨p, hp, h⟩
      · simp [h] at hk
      · rw [h, chain, List.mem_cons] at hk
        rcases hk with rfl | hk
        · exact hp
        · exact Nat.lt_trans (ih p.index (hn ▸ hp) (Nat.lt_trans hp hi) rfl k hk) hp

theorem WellFormed.has_of_mem_chain (hs : s.WellFormed) (hi : s.Has i) (hk : k ∈ s.chain i) : s.Has k := by
  rcases List.mem_cons.mp hk with rfl | hk
  · exact hi
  · exact Nat.lt_trans (hs.outer_lt hi k hk) hi

theorem WellFormed.not_mem_outer (hs : s.WellFormed) (hi : s.Has i) : i ∉ s.outer i := fun h =>
  Nat.lt_irrefl _ (hs.outer_lt hi i h)

theorem WellFormed.nodup_chain (hs : s.WellFormed) (hi : s.Has i) : (s.chain i).Nodup := by
  obtain ⟨n, hn⟩ : ∃ n, i.index = n := ⟨_, rfl⟩
  induction n using Nat.strongRecOn generalizing i with
  | _ n ih =>
      refine List.nodup_cons.mpr ⟨hs.not_mem_outer hi, ?_⟩
      rcases hs i hi with h | ⟨p, hp, h⟩
      · simp [h]
      · rw [h]
        exact ih p.index (hn ▸ hp) (Nat.lt_trans hp hi) rfl

theorem WellFormed.define (hs : s.WellFormed) : (s.define i x v).WellFormed := by
  intro k hk
  simpa using hs k (by simpa using hk)

theorem WellFormed.defineFunction {f : F} (hs : s.WellFormed) : (s.defineFunction i x f).WellFormed := by
  intro k hk
  simpa [chain] using hs k (by simpa using hk)

theorem chain_add_of_has (o : List ScopeId) (h : s.Has k) : (s.add o).2.chain k = s.chain k := by
  simp [chain, outer_add, h.ne_fresh]

/-- A new scope keeps the table well-formed when it lies in no scope, or in one that exists. -/
theorem WellFormed.add (hs : s.WellFormed) {o : List ScopeId}
    (ho : o = [] ∨ ∃ p, s.Has p ∧ o = s.chain p) : (s.add o).2.WellFormed := by
  intro k hk
  rw [outer_add]
  rcases (has_add _).mp hk with hk | rfl
  · rw [if_neg hk.ne_fresh]
    rcases hs k hk with h | ⟨p, hp, h⟩
    · exact .inl h
    · exact .inr ⟨p, hp, h.trans (chain_add_of_has _ (Nat.lt_trans hp hk)).symm⟩
  · rw [if_pos rfl]
    rcases ho with h | ⟨p, hp, h⟩
    · exact .inl h
    · exact .inr ⟨p, hp, h.trans (chain_add_of_has _ hp).symm⟩

theorem WellFormed.child (hs : s.WellFormed) (hi : s.Has i) : (s.child i).2.WellFormed :=
  hs.add (.inr ⟨i, hi, rfl⟩)

theorem WellFormed.root (hs : s.WellFormed) : s.root.2.WellFormed := hs.add (.inl rfl)

theorem has_child : (s.child i).2.Has k ↔ s.Has k ∨ k = (s.child i).1 := has_add _

theorem outer_child : (s.child i).2.outer (s.child i).1 = s.chain i := by
  show (s.add (s.chain i)).2.outer s.fresh = s.chain i
  rw [outer_add, if_pos rfl]

/-- In a new scope a name means what it means around it. -/
theorem find?_child : (s.child i).2.find? (s.child i).1 x = s.find? i x := by
  have hlocal : ∀ k, (s.child i).2.local? k x = s.local? k x := fun k => local?_add _
  have hnew : s.local? (s.child i).1 x = none := local?_eq_none not_has_fresh
  unfold find?
  rw [chain, outer_child, List.findSome?_cons, hlocal, hnew, funext hlocal]

theorem WellFormed.empty : (Scopes.empty : Scopes V F).WellFormed := fun _ h =>
  absurd h (Nat.not_lt_zero _)

end ScriptEngine.Scopes
