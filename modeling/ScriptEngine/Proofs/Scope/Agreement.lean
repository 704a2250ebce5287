import Mathlib.Data.List.Forall2
import ScriptEngine.Proofs.Scope.WellFormed

/-!
# Scopes in agreement

Two scopes, of two tables, agree when their frames do, taken in pairs from the nearest on: both frames
of a pair bind the same names, and what they bind a name to stands in a given relation. Agreement is
kept by opening a scope on both sides, by binding a name on both sides, and by binding a name anew on one
side where it is bound.
-/

namespace ScriptEngine.Scopes

variable {V W F H : Type} {R R' : V → W → Prop} {s s' : Scopes V F} {t t' : Scopes W H}
  {i j k : ScopeId} {x : String} {v : V} {w : W}

/-- One frame of each table, binding the same names to related things. -/
def FrameAgree (R : V → W → Prop) (s : Scopes V F) (t : Scopes W H) (i j : ScopeId) : Prop :=
  ∀ x, Option.Rel R (s.local? i x) (t.local? j x)

/-- The frames of two lists of scopes agree in pairs. -/
abbrev FramesAgree (R : V → W → Prop) (s : Scopes V F) (t : Scopes W H) :
    List ScopeId → List ScopeId → Prop :=
  List.Forall₂ (FrameAgree R s t)

/-- The scope `i` of `s` and the scope `j` of `t` agree frame by frame. -/
def Agree (R : V → W → Prop) (s : Scopes V F) (i : ScopeId) (t : Scopes W H) (j : ScopeId) : Prop :=
  FramesAgree R s t (s.chain i) (t.chain j)

/-! ## Frames -/

theorem FrameAgree.binds_eq (h : FrameAgree R s t i j) (x : String) : s.binds i x = t.binds j x := by
  have hx := h x
  unfold binds
  cases hs : s.local? i x <;> cases ht : t.local? j x <;> rw [hs, ht] at hx <;> first | rfl | cases hx

theorem FrameAgree.mono (hR : ∀ v w, R v w → R' v w) (h : FrameAgree R s t i j) :
    FrameAgree R' s t i j := by
  intro x
  have hx := h x
  generalize s.local? i x = a at hx ⊢
  generalize t.local? j x = b at hx ⊢
  cases hx with
  | some hr => exact .some (hR _ _ hr)
  | none => exact .none

theorem FrameAgree.congr (hs : ∀ x, s'.local? i x = s.local? i x) (ht : ∀ x, t'.local? j x = t.local? j x)
    (h : FrameAgree R s t i j) : FrameAgree R s' t' i j := by
  intro x
  rw [hs, ht]
  exact h x

theorem FrameAgree.define (hi : s.Has i) (hj : t.Has j) (hvw : R v w) (h : FrameAgree R s t i j) :
    FrameAgree R (s.define i x v) (t.define j x w) i j := by
  intro y
  rw [local?_define hi, local?_define hj]
  by_cases hy : y = x
  · simpa [hy] using Option.Rel.some hvw
  · simpa [hy] using h y

theorem FrameAgree.rebind (hi : s.Has i) (hw : t.local? j x = some w) (hvw : R v w)
    (h : FrameAgree R s t i j) : FrameAgree R (s.define i x v) t i j := by
  intro y
  rw [local?_define hi]
  by_cases hy : y = x
  · subst hy
    rw [hw, if_pos ⟨rfl, rfl⟩]
    exact .some hvw
  · simpa [hy] using h y

/-! ## Lists of frames -/

section

variable {is js : List ScopeId}

theorem FramesAgree.mono (hR : ∀ v w, R v w → R' v w) (h : FramesAgree R s t is js) :
    FramesAgree R' s t is js := List.Forall₂.imp (fun _ _ => FrameAgree.mono hR) h

theorem FramesAgree.congr (hs : ∀ k ∈ is, ∀ x, s'.local? k x = s.local? k x)
    (ht : ∀ k ∈ js, ∀ x, t'.local? k x = t.local? k x) (h : FramesAgree R s t is js) :
    FramesAgree R s' t' is js := by
  induction h with
  | nil => exact .nil
  | cons hf _ ih =>
      refine .cons (hf.congr (hs _ (by simp)) (ht _ (by simp))) (ih ?_ ?_)
      · exact fun k hk => hs k (List.mem_cons_of_mem _ hk)
      · exact fun k hk => ht k (List.mem_cons_of_mem _ hk)

/-- The first frame that binds a name is at the same place on both sides. -/
theorem FramesAgree.findSome? (h : FramesAgree R s t is js) (x : String) :
    Option.Rel R (is.findSome? (s.local? · x)) (js.findSome? (t.local? · x)) := by
  induction h with
  | nil => exact .none
  | @cons i j is js hf _ ih =>
      have hx := hf x
      simp only [List.findSome?_cons]
      generalize s.local? i x = a at hx ⊢
      generalize t.local? j x = b at hx ⊢
      cases hx with
      | some hr => exact .some hr
      | none => exact ih

theorem FramesAgree.rebind (hn : is.Nodup) (hh : ∀ i ∈ is, s.Has i)
    (hk : is.find? (s.binds · x) = some k) (hw : js.findSome? (t.local? · x) = some w) (hvw : R v w)
    (h : FramesAgree R s t is js) : FramesAgree R (s.define k x v) t is js := by
  induction h with
  | nil => simp at hk
  | @cons i j is js hf hfs ih =>
      obtain ⟨hni, hn⟩ := List.nodup_cons.mp hn
      simp only [List.find?_cons] at hk
      simp only [List.findSome?_cons] at hw
      by_cases hb : s.binds i x = true
      · simp only [hb, Option.some.injEq] at hk
        subst hk
        have hbt : t.binds j x = true := hf.binds_eq x ▸ hb
        obtain ⟨w', hw'⟩ := Option.isSome_iff_exists.mp hbt
        simp only [hw', Option.some.injEq] at hw
        subst hw
        refine .cons (hf.rebind (hh i (by simp)) hw' hvw) ?_
        refine FramesAgree.congr (fun i' hi' y => ?_) (fun _ _ _ => rfl) hfs
        exact local?_define_ne fun e => hni (e ▸ hi')
      · have hbt : t.local? j x = none := by
          have := hf.binds_eq x
          rw [Bool.eq_false_iff.mpr hb] at this
          simpa [binds] using this.symm
        simp only [hb, hbt] at hk hw
        have hki : i ≠ k := fun e => hni (e ▸ List.mem_of_find?_eq_some hk)
        refine .cons (hf.congr (fun _ => local?_define_ne hki) fun _ => rfl) ?_
        exact ih hn (fun i' hi' => hh i' (List.mem_cons_of_mem _ hi')) hk hw

end

/-! ## Scopes -/

theorem Agree.mono (hR : ∀ v w, R v w → R' v w) (h : Agree R s i t j) : Agree R' s i t j :=
  FramesAgree.mono hR h

theorem Agree.own (h : Agree R s i t j) : FrameAgree R s t i j := (List.forall₂_cons.mp h).1

theorem Agree.outer (h : Agree R s i t j) : FramesAgree R s t (s.outer i) (t.outer j) :=
  (List.forall₂_cons.mp h).2

theorem Agree.find? (h : Agree R s i t j) (x : String) :
    Option.Rel R (s.find? i x) (t.find? j x) := FramesAgree.findSome? h x

/-- Agreement depends only on the scopes of the two chains and on what they bind. -/
theorem Agree.congr (hso : s'.outer i = s.outer i) (hto : t'.outer j = t.outer j)
    (hs : ∀ k ∈ s.chain i, ∀ x, s'.local? k x = s.local? k x)
    (ht : ∀ k ∈ t.chain j, ∀ x, t'.local? k x = t.local? k x) (h : Agree R s i t j) :
    Agree R s' i t' j := by
  unfold Agree chain
  rw [hso, hto]
  exact FramesAgree.congr hs ht h

theorem Agree.add {is js : List ScopeId} (h : FramesAgree R s t is js) :
    Agree R (s.add is).2 (s.add is).1 (t.add js).2 (t.add js).1 := by
  have hs : (s.add is).2.outer s.fresh = is := by rw [outer_add, if_pos rfl]
  have ht : (t.add js).2.outer t.fresh = js := by rw [outer_add, if_pos rfl]
  show FramesAgree R _ _ (s.fresh :: (s.add is).2.outer s.fresh) (t.fresh :: (t.add js).2.outer t.fresh)
  rw [hs, ht]
  refine .cons (fun x => ?_) ?_
  · rw [local?_add, local?_add, local?_eq_none not_has_fresh, local?_eq_none not_has_fresh]
    exact .none
  · exact FramesAgree.congr (fun k _ x => local?_add _) (fun k _ x => local?_add _) h

theorem Agree.child (h : Agree R s i t j) :
    Agree R (s.child i).2 (s.child i).1 (t.child j).2 (t.child j).1 := Agree.add h

theorem Agree.root : Agree R s.root.2 s.root.1 t.root.2 t.root.1 := Agree.add .nil

theorem Agree.define (hs : s.WellFormed) (ht : t.WellFormed) (hi : s.Has i) (hj : t.Has j) (hvw : R v w)
    (h : Agree R s i t j) : Agree R (s.define i x v) i (t.define j x w) j := by
  unfold Agree
  rw [chain_define, chain_define]
  refine .cons (h.own.define hi hj hvw) (FramesAgree.congr (fun k hk y => ?_) (fun k hk y => ?_) h.outer)
  · exact local?_define_ne fun e => hs.not_mem_outer hi (e ▸ hk)
  · exact local?_define_ne fun e => ht.not_mem_outer hj (e ▸ hk)

/-- A name that both sides bind is bound anew where it is bound. -/
theorem Agree.set (hs : s.WellFormed) (hi : s.Has i) (hk : s.owner? i x = some k)
    (hw : t.find? j x = some w) (hvw : R v w) (h : Agree R s i t j) :
    Agree R (s.define k x v) i t j := by
  unfold Agree
  rw [chain_define]
  exact FramesAgree.rebind (hs.nodup_chain hi) (fun _ => hs.has_of_mem_chain hi) hk hw hvw h

theorem owner?_isSome : (s.owner? i x).isSome = (s.find? i x).isSome := by
  unfold owner? find?
  induction s.chain i with
  | nil => rfl
  | cons k ks ih =>
      simp only [List.find?_cons, List.findSome?_cons]
      cases hk : s.local? k x with
      | none => simpa [binds, hk] using ih
      | some v => simp [binds, hk]

end ScriptEngine.Scopes
