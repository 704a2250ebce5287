import ScriptEngine.Proofs.Execution.Tandem
import ScriptEngine.Proofs.Scope.WellFormed
import ScriptEngine.Proofs.Typing.Tandem

/-!
# Empty frames

A frame that binds nothing decides no name. So a table of scopes may have one more, between scopes that it leaves
as they are, and a program does not notice. A body whose statements declare nothing themselves leaves its frame
empty, so it may as well run in the scope around it, and be checked there.
-/

namespace ScriptEngine

/-- Where a scope stands once a frame has been put in at the place `n`: the scopes from there on move up by one. -/
def ScopeId.past (n : Nat) (k : ScopeId) : ScopeId := if k.index < n then k else ⟨k.index + 1⟩

namespace ScopeId

variable {n : Nat} {k l : ScopeId}

theorem past_of_lt (h : k.index < n) : k.past n = k := if_pos h

theorem past_of_le (h : n ≤ k.index) : k.past n = ⟨k.index + 1⟩ := if_neg (Nat.not_lt.mpr h)

theorem past_ne : k.past n ≠ ⟨n⟩ := by
  rcases Nat.lt_or_ge k.index n with h | h
  · rw [past_of_lt h, ne_eq, Scopes.ScopeId.ext_iff]
    exact Nat.ne_of_lt h
  · rw [past_of_le h, ne_eq, Scopes.ScopeId.ext_iff]
    exact Nat.ne_of_gt (Nat.lt_succ_of_le h)

theorem past_inj : k.past n = l.past n ↔ k = l := by
  refine ⟨fun h => ?_, fun h => h ▸ rfl⟩
  rw [Scopes.ScopeId.ext_iff] at h ⊢
  rcases Nat.lt_or_ge k.index n with hk | hk <;> rcases Nat.lt_or_ge l.index n with hl | hl
  · rwa [past_of_lt hk, past_of_lt hl] at h
  · rw [past_of_lt hk, past_of_le hl] at h
    exact absurd h (Nat.ne_of_lt (Nat.lt_succ_of_lt (Nat.lt_of_lt_of_le hk hl)))
  · rw [past_of_le hk, past_of_lt hl] at h
    exact absurd h.symm (Nat.ne_of_lt (Nat.lt_succ_of_lt (Nat.lt_of_lt_of_le hl hk)))
  · rw [past_of_le hk, past_of_le hl] at h
    exact Nat.succ.inj h

end ScopeId

/-! ## Tables with one empty frame more -/

/-- The table `t` is `s` with an empty frame at the place `n`, whose scope lies in the scope `i`. Chains may pass
through it. -/
structure Scopes.Padded {V F : Type} (n : Nat) (i : ScopeId) (s t : Scopes V F) : Prop where
  place : n ≤ s.frames.size
  has_around : s.Has i
  size : t.frames.size = s.frames.size + 1
  vars : ∀ k x, t.local? (k.past n) x = s.local? k x
  functions : ∀ k x, t.localFunction? (k.past n) x = s.localFunction? k x
  empty : ∀ x, t.local? ⟨n⟩ x = none
  chain : ∀ k, (t.chain (k.past n)).filter (· ≠ ⟨n⟩) = (s.chain k).map (ScopeId.past n)
  around : (t.chain ⟨n⟩).filter (· ≠ ⟨n⟩) = (s.chain i).map (ScopeId.past n)

/-- Scopes that see the same frames, but for the empty one. -/
def ScopeId.SeesAs (n : Nat) (i k l : ScopeId) : Prop := l = k.past n ∨ (k = i ∧ l = ⟨n⟩)

namespace Scopes.Padded

variable {V F : Type} {n : Nat} {i j k l : ScopeId} {x : String} {v : V} {s t : Scopes V F}

/-- A new scope in `i` is an empty frame at the end of the table. -/
theorem of_child (hs : s.WellFormed) (hi : s.Has i) : Padded s.frames.size i s (s.child i).2 := by
  have hpast : ∀ k, s.Has (k.past s.frames.size) ↔ s.Has k := fun k => by
    by_cases hk : s.Has k
    · rw [ScopeId.past_of_lt hk]
    · rw [ScopeId.past_of_le (Nat.not_lt.mp hk)]
      exact ⟨fun h => Nat.lt_of_succ_lt h, fun h => absurd h hk⟩
  have hold : ∀ ks : List ScopeId, (∀ m ∈ ks, s.Has m) →
      ks.filter (· ≠ ⟨s.frames.size⟩) = ks.map (ScopeId.past s.frames.size) := fun ks hks => by
    have hkeep : ks.filter (· ≠ ⟨s.frames.size⟩) = ks :=
      List.filter_eq_self.mpr fun m hm => decide_eq_true (hks m hm).ne_fresh
    have hstay : ks.map (ScopeId.past s.frames.size) = ks.map id :=
      List.map_congr_left fun m hm => ScopeId.past_of_lt (hks m hm)
    rw [hkeep, hstay, List.map_id]
  exact {
    place := Nat.le_refl _
    has_around := hi
    size := by simp [Scopes.child, add]
    vars := fun k x => by
      rw [Scopes.child, local?_add]
      by_cases hk : s.Has k
      · rw [ScopeId.past_of_lt hk]
      · rw [local?_eq_none hk, local?_eq_none (mt (hpast k).mp hk)]
    functions := fun k x => by
      rw [Scopes.child, localFunction?_add]
      by_cases hk : s.Has k
      · rw [ScopeId.past_of_lt hk]
      · simp only [localFunction?, frame?_eq_none hk, frame?_eq_none (mt (hpast k).mp hk)]
    empty := fun x => by
      rw [Scopes.child, local?_add]
      exact local?_eq_none not_has_fresh
    chain := fun k => by
      by_cases hk : s.Has k
      · rw [ScopeId.past_of_lt hk, Scopes.child, chain_add_of_has _ hk]
        exact hold _ fun m hm => hs.has_of_mem_chain hk hm
      · have hnone : s.outer k = [] := by simp only [outer, frame?_eq_none hk]
        have hnone' : (s.child i).2.outer (k.past s.frames.size) = [] := by
          have hne : k.past s.frames.size ≠ s.fresh := ScopeId.past_ne
          rw [Scopes.child, outer_add, if_neg hne, outer, frame?_eq_none (mt (hpast k).mp hk)]
        simp only [Scopes.chain, hnone, hnone', List.map_cons, List.map_nil]
        exact List.filter_eq_self.mpr fun m hm => decide_eq_true (List.mem_singleton.mp hm ▸ ScopeId.past_ne)
    around := by
      have hchain : (s.child i).2.chain ⟨s.frames.size⟩ = ⟨s.frames.size⟩ :: s.chain i := congrArg _ outer_child
      rw [hchain, List.filter_cons_of_neg (by simp)]
      exact hold _ fun m hm => hs.has_of_mem_chain hi hm }

theorem has (h : Padded n i s t) : t.Has (k.past n) ↔ s.Has k := by
  unfold Has
  rw [h.size]
  have hplace := h.place
  rcases Nat.lt_or_ge k.index n with hk | hk
  · rw [ScopeId.past_of_lt hk]
    omega
  · rw [ScopeId.past_of_le hk]
    exact Nat.succ_lt_succ_iff

theorem fresh (h : Padded n i s t) : t.fresh = s.fresh.past n := by
  have hle : n ≤ s.fresh.index := h.place
  rw [ScopeId.past_of_le hle, Scopes.fresh, h.size]
  rfl

/-- Without the empty frame, the chains are the same. -/
theorem chain_of_sees (h : Padded n i s t) (hkl : ScopeId.SeesAs n i k l) :
    (t.chain l).filter (· ≠ ⟨n⟩) = (s.chain k).map (ScopeId.past n) := by
  rcases hkl with rfl | ⟨rfl, rfl⟩
  · exact h.chain k
  · exact h.around

/-- The empty frame owns no name, so the owner is the same frame. -/
theorem owner? (h : Padded n i s t) (hkl : ScopeId.SeesAs n i k l) (x : String) :
    t.owner? l x = (s.owner? k x).map (ScopeId.past n) := by
  have hbinds : (t.binds · x) ∘ ScopeId.past n = (s.binds · x) := funext fun m => by
    simp only [Function.comp_apply, binds, h.vars]
  have hskip : (fun m => decide (decide (m ≠ (⟨n⟩ : ScopeId)) = true ∧ t.binds m x = true)) = (t.binds · x) :=
    funext fun m => by
      by_cases hm : m = ⟨n⟩
      · simp [hm, binds, h.empty]
      · simp [hm]
  calc t.owner? l x
      = ((t.chain l).filter (· ≠ ⟨n⟩)).find? (t.binds · x) := by rw [List.find?_filter, hskip]; rfl
    _ = (s.owner? k x).map (ScopeId.past n) := by rw [h.chain_of_sees hkl, List.find?_map, hbinds]; rfl

theorem find? (h : Padded n i s t) (hkl : ScopeId.SeesAs n i k l) (x : String) : t.find? l x = s.find? k x := by
  rw [find?_eq_bind_owner?, find?_eq_bind_owner?, h.owner? hkl, Option.bind_map]
  exact congrArg _ (funext fun m => h.vars m x)

theorem define (h : Padded n i s t) : Padded n i (s.define k x v) (t.define (k.past n) x v) where
  place := by simpa [Scopes.define, modifyFrame] using h.place
  has_around := has_define.mpr h.has_around
  size := by simpa [Scopes.define, modifyFrame] using h.size
  vars m y := by
    by_cases hk : s.Has k
    · simp only [local?_define hk, local?_define (h.has.mpr hk), ScopeId.past_inj, h.vars]
    · rw [define_of_not_has hk, define_of_not_has (mt h.has.mp hk), h.vars]
  functions m y := by rw [localFunction?_define, localFunction?_define, h.functions]
  empty y := by rw [local?_define_ne ScopeId.past_ne.symm, h.empty]
  chain m := by rw [chain_define, chain_define, h.chain]
  around := by rw [chain_define, chain_define, h.around]

theorem child (h : Padded n i s t) (hkl : ScopeId.SeesAs n i k l) :
    Padded n i (s.child k).2 (t.child l).2 := by
  have hfresh : t.fresh ≠ ⟨n⟩ := h.fresh ▸ ScopeId.past_ne
  have hnew : ∀ m, m.past n = t.fresh ↔ m = s.fresh := fun m => by rw [h.fresh, ScopeId.past_inj]
  exact {
    place := by
      have := h.place
      simp only [Scopes.child, add, Array.size_push]
      omega
    has_around := has_child.mpr (.inl h.has_around)
    size := by simp [Scopes.child, add, h.size]
    vars := fun m x => by rw [Scopes.child, Scopes.child, local?_add, local?_add, h.vars]
    functions := fun m x => by rw [Scopes.child, Scopes.child, localFunction?_add, localFunction?_add, h.functions]
    empty := fun x => by rw [Scopes.child, local?_add, h.empty]
    chain := fun m => by
      have hm := h.chain m
      have hk := h.chain_of_sees hkl
      simp only [Scopes.chain, List.filter_cons, ScopeId.past_ne, List.map_cons, ne_eq, not_false_iff, decide_true,
        if_true, Scopes.child, outer_add, hnew, List.cons.injEq, true_and] at hm ⊢
      split
      · exact hk
      · exact hm
    around := by
      have hn := h.around
      have hik : i ≠ s.fresh := h.has_around.ne_fresh
      simpa [Scopes.chain, Scopes.child, outer_add, hfresh.symm, hik] using hn }

end Scopes.Padded

/-- An empty frame is not seen by any name. -/
def Mirror.padded {V F : Type} (n : Nat) (i : ScopeId) : Mirror V F where
  holds := Scopes.Padded n i
  scope := ScopeId.SeesAs n i
  frame k l := l = k.past n
  name _ := True
  find? h hkl _ := h.find? hkl _
  owner? {s t k l x} h hkl _ := by
    rw [h.owner? hkl]
    cases s.owner? k x with
    | none => exact .none
    | some m => exact .some rfl
  define v h hkl _ := hkl ▸ h.define
  child h hkl := h.child hkl
  child_scope h _ := .inl h.fresh
  child_frame h _ := h.fresh

/-! ## Runs and checks -/

/-- What the scopes of `s` bind is the same in `t` and `t'`. -/
structure Scopes.BindAlike {V F : Type} (s t t' : Scopes V F) : Prop where
  vars : ∀ k x, s.Has k → t'.local? k x = t.local? k x
  functions : ∀ k x, s.Has k → t'.localFunction? k x = t.localFunction? k x

theorem Scopes.Padded.bindAlike {V F : Type} {i : ScopeId} {s t t' : Scopes V F}
    (h : Padded s.frames.size i t t') : s.BindAlike t t' where
  vars k x hk := by
    have hx := h.vars k x
    rwa [ScopeId.past_of_lt hk] at hx
  functions k x hk := by
    have hx := h.functions k x
    rwa [ScopeId.past_of_lt hk] at hx

/-- From the store `σ`, all that was there and all lists are the same in `τ` and `τ'`. -/
structure Store.LeavesAlike (σ τ τ' : Store) : Prop where
  scopes : σ.scopes.BindAlike τ.scopes τ'.scopes
  lists : τ'.lists = τ.lists
  functions : τ'.functions = τ.functions

/-- A body that declares nothing itself needs no scope of its own. Run in a new scope or in the scope around it, it
ends with the same signal or error, and leaves the same lists and the same bindings in all scopes that were there.
Its check has the same result in both. -/
theorem empty_frame_transparent {b : List Stmt} (hb : ∀ ds, Stmt.declare ds ∉ b) :
    (∀ (rounds : Nat) (i : ScopeId) (σ : Store), σ.scopes.WellFormed → σ.scopes.Has i →
      SameOutcome Eq σ.LeavesAlike (runBlock rounds i b σ) (runStmt rounds i (.block b) σ)) ∧
    ∀ (j : ScopeId) (G : TypeScopes), G.WellFormed → G.Has j →
      SameOutcome Eq G.BindAlike (checkBlock j none b G) (checkStmt j (.block b) G) := by
  have hnone : ∀ {P : Prop} ds, Stmt.declare ds ∈ b → P := fun ds hds => absurd hds (hb ds)
  refine ⟨fun rounds i σ hσ hi => ?_, fun j G hG hj => ?_⟩
  · have hrun := Mirror.alike_block (M := .padded σ.scopes.frames.size i) rounds (.inr ⟨rfl, rfl⟩) b
      (fun _ _ => trivial) (fun _ _ => trivial) hnone σ (σ.child i).2 ⟨.of_child hσ hi, rfl, rfl⟩
    rw [runStmt]
    exact hrun.mono fun _ _ h => ⟨h.scopes.bindAlike, h.lists, h.functions⟩
  · have hcheck := Mirror.agrees_block (M := .padded G.frames.size j) (.inr ⟨rfl, rfl⟩) none b
      (fun _ _ => trivial) (fun _ _ => trivial) hnone G (G.child j).2 (.of_child hG hj)
    rw [checkStmt]
    exact hcheck.mono fun _ _ h => h.bindAlike

/-- A loop whose body declares a name: `while n < 2 { let m: int = n + 1; n = m; } return n;`. -/
def countToTwo : List Stmt :=
  [.loop (.binary .lt (.var "n") (.constant (.int 2)))
      [.declare [⟨"m", .int, some (.binary .add (.var "n") (.constant (.int 1)))⟩], .assign (.var "n") (.var "m")],
    .ret (some (.var "n"))]

/-- The rounds of the loop open scopes of their own, below the empty one or not. With braces around the program it
returns the same, the outer scope binds the same, and the check finds the same type. -/
theorem countToTwo_needs_no_scope :
    let σ : Store := ⟨((Scopes.empty.root.2.define ⟨0⟩ "n" (.int 0)).child ⟨0⟩).2, #[], #[]⟩
    let G : TypeScopes := ((Scopes.empty.root.2.define ⟨0⟩ "n" .int).child ⟨0⟩).2
    (∃ τ, runBlock 3 ⟨1⟩ countToTwo σ = .ok (some (.ret (.int 2))) τ ∧
      τ.scopes.local? ⟨0⟩ "n" = some (.int 2)) ∧
    (∃ τ, runStmt 3 ⟨1⟩ (.block countToTwo) σ = .ok (some (.ret (.int 2))) τ ∧
      τ.scopes.local? ⟨0⟩ "n" = some (.int 2)) ∧
    (∃ H, checkBlock ⟨1⟩ none countToTwo G = .ok (some .int) H) ∧
    ∃ H, checkStmt ⟨1⟩ (.block countToTwo) G = .ok (some .int) H := by
  intro σ G
  have hwell : ∀ {V F : Type} (v : V),
      ((Scopes.empty : Scopes V F).root.2.define ⟨0⟩ "n" v).WellFormed ∧
      ((Scopes.empty : Scopes V F).root.2.define ⟨0⟩ "n" v).Has ⟨0⟩ := fun v =>
    ⟨Scopes.WellFormed.empty.root.define, Nat.zero_lt_one⟩
  obtain ⟨hrun, hcheck⟩ := empty_frame_transparent (b := countToTwo) (by simp [countToTwo])
  have hσ := hrun 3 ⟨1⟩ σ ((hwell _).1.child (hwell _).2) (Scopes.has_child.mpr (.inr rfl))
  have hG := hcheck ⟨1⟩ G ((hwell _).1.child (hwell _).2) (Scopes.has_child.mpr (.inr rfl))
  have hdirect : ∃ τ, runBlock 3 ⟨1⟩ countToTwo σ = .ok (some (.ret (.int 2))) τ ∧
      τ.scopes.local? ⟨0⟩ "n" = some (.int 2) := ⟨_, rfl, rfl⟩
  have htype : ∃ H, checkBlock ⟨1⟩ none countToTwo G = .ok (some .int) H := ⟨_, rfl⟩
  refine ⟨hdirect, ?_, htype, ?_⟩
  · obtain ⟨τ, hτ, hn⟩ := hdirect
    rw [hτ] at hσ
    obtain ⟨_, τ', hτ', rfl, halike⟩ := hσ.exists_ok
    exact ⟨τ', hτ', (halike.scopes.vars ⟨0⟩ "n" Nat.zero_lt_two).trans hn⟩
  · obtain ⟨H, hH⟩ := htype
    rw [hH] at hG
    obtain ⟨_, H', hH', rfl, _⟩ := hG.exists_ok
    exact ⟨H', hH'⟩

end ScriptEngine
