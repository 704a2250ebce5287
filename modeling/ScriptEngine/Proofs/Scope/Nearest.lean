import Mathlib.Logic.Relation
import ScriptEngine.Proofs.Ends
import ScriptEngine.Proofs.Scope.WellFormed

/-!
# The nearest binding

Scopes are shared, so a name is bound for everyone who looks it up from further inside and finds no binding
on the way. The way leads from each scope to the one directly around it and cannot come back, however the
scopes have been made and bound. From this it follows who sees a new binding, who sees a new value for an
old one, and that nobody else does.
-/

namespace ScriptEngine

namespace Scopes

variable {V F α : Type} {s : Scopes V F} {i j k p : ScopeId} {x : String} {v : V}

/-- The tables that can be built from nothing, each step through a scope that exists. -/
inductive Reachable : Scopes V F → Prop where
  | empty : Reachable .empty
  | root {s : Scopes V F} : Reachable s → Reachable s.root.2
  | child {s : Scopes V F} {i : ScopeId} : Reachable s → s.Has i → Reachable (s.child i).2
  | define {s : Scopes V F} {i : ScopeId} (x : String) (v : V) : Reachable s → s.Has i →
      Reachable (s.define i x v)
  | defineFunction {s : Scopes V F} {i : ScopeId} (x : String) (f : F) : Reachable s → s.Has i →
      Reachable (s.defineFunction i x f)
  | set {s s' : Scopes V F} {i : ScopeId} {x : String} {v : V} : Reachable s → s.Has i →
      s.set i x v = .ok s' → Reachable s'

/-- From the scope `i` one comes to `k`, outwards over scopes that do not bind. -/
inductive Leads (s : Scopes V F) (binds : ScopeId → Bool) : ScopeId → ScopeId → Prop where
  | here {i : ScopeId} : Leads s binds i i
  | up {i p k : ScopeId} : binds i = false → s.parent? i = some p → Leads s binds p k → Leads s binds i k

/-- The scope `k` is the first from `i` outwards that binds the variable `x`. -/
def Resolves (s : Scopes V F) (i : ScopeId) (x : String) (k : ScopeId) : Prop :=
  s.Leads (s.binds · x) i k ∧ s.binds k x = true

/-- Whether the frame of `i` itself binds the function `x`. -/
def bindsFunction (s : Scopes V F) (i : ScopeId) (x : String) : Bool := (s.localFunction? i x).isSome

/-- The scope `k` is the first from `i` outwards that binds the function `x`. -/
def ResolvesFunction (s : Scopes V F) (i : ScopeId) (x : String) (k : ScopeId) : Prop :=
  s.Leads (s.bindsFunction · x) i k ∧ s.bindsFunction k x = true

/-- Whoever `sees` a change finds `a`, and everyone else what was found before. -/
def Updates (find find' : ScopeId → String → Except Error α) (sees : ScopeId → String → Prop) (a : α) : Prop :=
  ∀ j y, (sees j y → find' j y = .ok a) ∧ (¬sees j y → find' j y = find j y)

/-- What it means for a table that a name means what the nearest scope binds it to. -/
structure NearestBinding (s : Scopes V F) : Prop where
  acyclic : ∀ i, ¬Relation.TransGen (fun j p => s.parent? j = some p) i i
  find_ok : ∀ i x v, s.find i x = .ok v ↔ ∃ k, s.Resolves i x k ∧ s.local? k x = some v
  find_error : ∀ i x e, s.find i x = .error e ↔
    (∀ k, ¬s.Resolves i x k) ∧ e = .plain (.undefinedVariable x)
  set_ok : ∀ i x v, (∃ s', s.set i x v = .ok s') ↔ ∃ w, s.find i x = .ok w
  set_error : ∀ i x v e, s.set i x v = .error e → e = .plain (.undefinedVariable x)
  /-- A new value is seen from where the variable means the same. -/
  set : ∀ i x v s', s.set i x v = .ok s' →
    Updates s.find s'.find (fun j y => y = x ∧ ∃ k, s.Resolves i x k ∧ s.Resolves j x k) v ∧
    (∀ k y, s'.binds k y = s.binds k y) ∧ ∀ j y, s'.findFunction j y = s.findFunction j y
  /-- A new binding is seen from where no nearer scope binds the variable. -/
  define : ∀ i x v, s.Has i →
    Updates s.find (s.define i x v).find (fun j y => y = x ∧ s.Leads (s.binds · x) j i) v ∧
    ∀ j y, (s.define i x v).findFunction j y = s.findFunction j y
  findFunction_ok : ∀ i x f, s.findFunction i x = .ok f ↔
    ∃ k, s.ResolvesFunction i x k ∧ s.localFunction? k x = some f
  findFunction_error : ∀ i x e, s.findFunction i x = .error e ↔
    (∀ k, ¬s.ResolvesFunction i x k) ∧ e = .plain (.undefinedFunction x)
  defineFunction : ∀ i x f, s.Has i →
    Updates s.findFunction (s.defineFunction i x f).findFunction
      (fun j y => y = x ∧ s.Leads (s.bindsFunction · x) j i) f ∧
    ∀ j y, (s.defineFunction i x f).find j y = s.find j y

/-! ## The way outwards -/

theorem has_of_parent (h : s.parent? i = some p) : s.Has i := by
  by_cases hi : s.Has i
  · exact hi
  · simp [parent?, outer, frame?_eq_none hi] at h

theorem WellFormed.outer_of_parent (hs : s.WellFormed) (h : s.parent? i = some p) :
    p.index < i.index ∧ s.outer i = s.chain p := by
  rcases hs i (has_of_parent h) with ho | ⟨q, hq, ho⟩
  · simp [parent?, ho] at h
  · simp only [parent?, ho, chain, List.head?_cons, Option.some.injEq] at h
    exact h ▸ ⟨hq, ho⟩

theorem WellFormed.acyclic (hs : s.WellFormed) (i : ScopeId) :
    ¬Relation.TransGen (fun j p => s.parent? j = some p) i i := by
  have hlt : ∀ {i k}, Relation.TransGen (fun j p => s.parent? j = some p) i k → k.index < i.index := by
    intro i k h
    induction h with
    | single h => exact (hs.outer_of_parent h).1
    | tail _ h ih => exact Nat.lt_trans (hs.outer_of_parent h).1 ih
  exact fun h => Nat.lt_irrefl _ (hlt h)

theorem Leads.index_le {b : ScopeId → Bool} (hs : s.WellFormed) (h : s.Leads b i k) : k.index ≤ i.index := by
  induction h with
  | here => exact Nat.le_refl _
  | up _ hp _ ih => exact Nat.le_trans ih (Nat.le_of_lt (hs.outer_of_parent hp).1)

/-! ## The nearest answer -/

/-- What the first scope from `i` outwards answers that has an answer. -/
def nearest (s : Scopes V F) (ask : ScopeId → Option α) (i : ScopeId) : Option α := (s.chain i).findSome? ask

variable {ask ask' : ScopeId → Option α} {a : α}

theorem nearest_of_some (h : ask i = some a) : s.nearest ask i = some a := by
  simp [nearest, chain, h]

/-- A scope without an answer leaves it to the scope around it. -/
theorem nearest_of_none (hs : s.WellFormed) (h : ask i = none) :
    s.nearest ask i = (s.parent? i).bind (s.nearest ask) := by
  have hout : s.nearest ask i = (s.outer i).findSome? ask := by simp [nearest, chain, h]
  rw [hout]
  cases hp : s.parent? i with
  | none =>
      have hnil : s.outer i = [] := List.head?_eq_none_iff.mp hp
      simp [hnil]
  | some p =>
      rw [(hs.outer_of_parent hp).2]
      rfl

theorem nearest_eq_some_iff (hs : s.WellFormed) :
    s.nearest ask i = some a ↔
      ∃ k, (s.Leads (fun j => (ask j).isSome) i k ∧ (ask k).isSome = true) ∧ ask k = some a := by
  constructor
  · obtain ⟨n, hn⟩ : ∃ n, i.index = n := ⟨_, rfl⟩
    induction n using Nat.strongRecOn generalizing i with
    | _ n ih =>
        intro h
        cases hi : ask i with
        | some b =>
            rw [nearest_of_some hi] at h
            exact ⟨i, ⟨.here, by simp [hi]⟩, hi.trans h⟩
        | none =>
            rw [nearest_of_none hs hi] at h
            obtain ⟨p, hp, h⟩ := Option.bind_eq_some_iff.mp h
            obtain ⟨k, ⟨hk, hb⟩, ha⟩ := ih p.index (hn ▸ (hs.outer_of_parent hp).1) rfl h
            exact ⟨k, ⟨.up (by simp [hi]) hp hk, hb⟩, ha⟩
  · rintro ⟨k, ⟨hk, -⟩, ha⟩
    induction hk with
    | here => exact nearest_of_some ha
    | up hi hp _ ih =>
        rw [nearest_of_none hs (by simpa using hi), hp]
        exact ih ha

theorem nearest_eq_none_iff (hs : s.WellFormed) :
    s.nearest ask i = none ↔
      ∀ k, ¬(s.Leads (fun j => (ask j).isSome) i k ∧ (ask k).isSome = true) := by
  constructor
  · rintro h k ⟨hk, hb⟩
    obtain ⟨a, ha⟩ := Option.isSome_iff_exists.mp hb
    have hsome := (nearest_eq_some_iff hs).mpr ⟨k, ⟨hk, hb⟩, ha⟩
    rw [h] at hsome
    cases hsome
  · intro h
    cases hn : s.nearest ask i with
    | none => rfl
    | some a =>
        obtain ⟨k, hk, _⟩ := (nearest_eq_some_iff hs).mp hn
        exact absurd hk (h k)

/-- A new answer of the scope `k` is heard from where one comes to `k` without an answer. -/
theorem nearest_update (hs : s.WellFormed) (hask : ∀ j, ask' j = if j = k then some a else ask j) :
    (s.Leads (fun j => (ask j).isSome) i k → s.nearest ask' i = some a) ∧
    (¬s.Leads (fun j => (ask j).isSome) i k → s.nearest ask' i = s.nearest ask i) := by
  constructor
  · intro h
    induction h with
    | here => exact nearest_of_some (by rw [hask, if_pos rfl])
    | @up i p k hi hp h ih =>
        -- the way does not come back, so the new answer is not that of `i` itself
        have hne : i ≠ k := by
          rintro rfl
          exact Nat.lt_irrefl _ (Nat.lt_of_le_of_lt (h.index_le hs) (hs.outer_of_parent hp).1)
        rw [nearest_of_none hs (by rw [hask, if_neg hne]; simpa using hi), hp]
        exact ih hask
  · obtain ⟨n, hn⟩ : ∃ n, i.index = n := ⟨_, rfl⟩
    induction n using Nat.strongRecOn generalizing i with
    | _ n ih =>
        intro h
        have hne : i ≠ k := by
          rintro rfl
          exact h .here
        have hi : ask' i = ask i := by rw [hask, if_neg hne]
        cases ha : ask i with
        | some b => rw [nearest_of_some ha, nearest_of_some (hi.trans ha)]
        | none =>
            rw [nearest_of_none hs ha, nearest_of_none hs (hi.trans ha)]
            cases hp : s.parent? i with
            | none => rfl
            | some p =>
                have hlt : p.index < n := hn ▸ (hs.outer_of_parent hp).1
                exact ih p.index hlt rfl fun hl => h (.up (by simp [ha]) hp hl)

theorem nearest_congr {s' : Scopes V F} (hout : ∀ k, s'.outer k = s.outer k) (hask : ∀ k, ask' k = ask k) :
    s'.nearest ask' i = s.nearest ask i := by
  have heq : ask' = ask := funext hask
  rw [nearest, nearest, chain, chain, hout, heq]

/-! ## Looking up and binding -/

/-- An answer, or the error that there is none. -/
def answered (e : Error) : Option α → Except Error α
  | some a => .ok a
  | none => .error e

theorem answered_eq_ok_iff {e : Error} {o : Option α} : answered e o = .ok a ↔ o = some a := by
  cases o <;> simp [answered]

theorem answered_eq_error_iff {e e' : Error} {o : Option α} :
    answered e o = .error e' ↔ o = none ∧ e' = e := by
  cases o <;> simp [answered, eq_comm]

theorem find_eq (s : Scopes V F) :
    s.find = fun i x => answered (.plain (.undefinedVariable x)) (s.nearest (s.local? · x) i) := by
  funext i x
  show (match s.nearest (s.local? · x) i with | some v => _ | none => _) = _
  cases s.nearest (s.local? · x) i <;> rfl

theorem findFunction_eq (s : Scopes V F) : s.findFunction = fun i x =>
    answered (.plain (.undefinedFunction x)) (s.nearest (s.localFunction? · x) i) := by
  funext i x
  show (match s.nearest (s.localFunction? · x) i with | some v => _ | none => _) = _
  cases s.nearest (s.localFunction? · x) i <;> rfl

/-- Where one scope answers anew for one name, that is what changes. -/
theorem updates_nearest {s' : Scopes V F} {ask ask' : String → ScopeId → Option α} (e : String → Error)
    (hs : s.WellFormed) (hout : ∀ j, s'.outer j = s.outer j)
    (hask : ∀ y j, ask' y j = if j = k ∧ y = x then some a else ask y j) :
    Updates (fun j y => answered (e y) (s.nearest (ask y) j))
      (fun j y => answered (e y) (s'.nearest (ask' y) j))
      (fun j y => y = x ∧ s.Leads (fun i => (ask x i).isSome) j k) a := by
  intro j y
  dsimp only
  rw [nearest_congr hout fun _ => rfl]
  by_cases hy : y = x
  · subst hy
    have hone : ∀ j, ask' y j = if j = k then some a else ask y j := fun j => by
      rw [hask]
      simp
    obtain ⟨hnew, hold⟩ := nearest_update (i := j) hs hone
    refine ⟨fun h => ?_, fun h => ?_⟩
    · rw [hnew h.2]
      rfl
    · rw [hold fun hl => h ⟨rfl, hl⟩]
  · refine ⟨fun h => absurd h.1 hy, fun _ => ?_⟩
    rw [nearest_congr (fun _ => rfl) fun j => (hask y j).trans (if_neg fun h => hy h.2)]

theorem WellFormed.updates_define (hs : s.WellFormed) (hi : s.Has i) :
    Updates s.find (s.define i x v).find (fun j y => y = x ∧ s.Leads (s.binds · x) j i) v := by
  rw [find_eq, find_eq]
  exact updates_nearest _ hs (fun _ => outer_define) fun y j => local?_define hi

theorem WellFormed.updates_defineFunction {f : F} (hs : s.WellFormed) (hi : s.Has i) :
    Updates s.findFunction (s.defineFunction i x f).findFunction
      (fun j y => y = x ∧ s.Leads (s.bindsFunction · x) j i) f := by
  rw [findFunction_eq, findFunction_eq]
  exact updates_nearest _ hs (fun _ => outer_defineFunction) fun y j => localFunction?_defineFunction hi

theorem findFunction_define : (s.define i x v).findFunction = s.findFunction := by
  rw [findFunction_eq, findFunction_eq]
  funext j y
  rw [nearest_congr (fun _ => outer_define) fun _ => localFunction?_define]

theorem find_defineFunction {f : F} : (s.defineFunction i x f).find = s.find := by
  rw [find_eq, find_eq]
  funext j y
  rw [nearest_congr (fun _ => outer_defineFunction) fun _ => local?_defineFunction]

/-! ## Binding anew -/

theorem WellFormed.owner?_eq_some_iff (hs : s.WellFormed) : s.owner? i x = some k ↔ s.Resolves i x k := by
  have hguard : s.owner? i x = s.nearest (Option.guard (s.binds · x)) i := List.find?_eq_findSome?_guard
  rw [hguard, nearest_eq_some_iff hs, Resolves]
  simp only [Option.isSome_guard, Option.guard_eq_some_iff]
  constructor
  · rintro ⟨k, hk, rfl, _⟩
    exact hk
  · intro hk
    exact ⟨k, hk, rfl, hk.2⟩

theorem set_eq_ok_iff {s' : Scopes V F} :
    s.set i x v = .ok s' ↔ ∃ k, s.owner? i x = some k ∧ s' = s.define k x v := by
  unfold Scopes.set set?
  cases s.owner? i x <;> simp [eq_comm]

theorem set_eq_error_iff {e : Error} :
    s.set i x v = .error e ↔ s.owner? i x = none ∧ e = .plain (.undefinedVariable x) := by
  unfold Scopes.set set?
  cases s.owner? i x <;> simp [eq_comm]

theorem WellFormed.updates_set {s' : Scopes V F} (hs : s.WellFormed) (h : s.set i x v = .ok s') :
    Updates s.find s'.find (fun j y => y = x ∧ ∃ k, s.Resolves i x k ∧ s.Resolves j x k) v ∧
      ∀ k y, s'.binds k y = s.binds k y := by
  obtain ⟨k, hk, rfl⟩ := set_eq_ok_iff.mp h
  have hres := hs.owner?_eq_some_iff.mp hk
  refine ⟨fun j y => ?_, fun _ _ => binds_define_of_binds hres.2⟩
  obtain ⟨hnew, hold⟩ := hs.updates_define (v := v) (has_of_binds hres.2) j y
  refine ⟨?_, fun hn => hold ?_⟩
  · rintro ⟨rfl, k', hk', hj⟩
    have hsame := hs.owner?_eq_some_iff.mpr hk'
    rw [hk] at hsame
    cases hsame
    exact hnew ⟨rfl, hj.1⟩
  · rintro ⟨rfl, hj⟩
    exact hn ⟨rfl, k, hres, hj, hres.2⟩

/-! ## The laws -/

theorem Reachable.wellFormed (h : s.Reachable) : s.WellFormed := by
  induction h with
  | empty => exact .empty
  | root _ ih => exact ih.root
  | child _ hi ih => exact ih.child hi
  | define _ _ _ _ ih => exact ih.define
  | defineFunction _ _ _ _ ih => exact ih.defineFunction
  | set _ _ hset ih =>
      obtain ⟨k, _, rfl⟩ := set_eq_ok_iff.mp hset
      exact ih.define

theorem WellFormed.nearestBinding (hs : s.WellFormed) : s.NearestBinding where
  acyclic := hs.acyclic
  find_ok i x v := by
    rw [find_eq, answered_eq_ok_iff, nearest_eq_some_iff hs]
    rfl
  find_error i x e := by
    rw [find_eq, answered_eq_error_iff, nearest_eq_none_iff hs]
    rfl
  set_ok i x v := by
    constructor
    · rintro ⟨s', hset⟩
      obtain ⟨k, hk, _⟩ := set_eq_ok_iff.mp hset
      have hres := hs.owner?_eq_some_iff.mp hk
      obtain ⟨w, hw⟩ := Option.isSome_iff_exists.mp hres.2
      refine ⟨w, ?_⟩
      rw [find_eq, answered_eq_ok_iff, nearest_eq_some_iff hs]
      exact ⟨k, hres, hw⟩
    · rintro ⟨w, hw⟩
      rw [find_eq, answered_eq_ok_iff, nearest_eq_some_iff hs] at hw
      obtain ⟨k, hres, _⟩ := hw
      exact ⟨_, set_eq_ok_iff.mpr ⟨k, hs.owner?_eq_some_iff.mpr hres, rfl⟩⟩
  set_error i x v e h := (set_eq_error_iff.mp h).2
  set i x v s' h := by
    obtain ⟨hup, hnames⟩ := hs.updates_set h
    obtain ⟨k, _, rfl⟩ := set_eq_ok_iff.mp h
    exact ⟨hup, hnames, fun _ _ => by rw [findFunction_define]⟩
  define i x v hi := ⟨hs.updates_define hi, fun _ _ => by rw [findFunction_define]⟩
  findFunction_ok i x f := by
    rw [findFunction_eq, answered_eq_ok_iff, nearest_eq_some_iff hs]
    rfl
  findFunction_error i x e := by
    rw [findFunction_eq, answered_eq_error_iff, nearest_eq_none_iff hs]
    rfl
  defineFunction i x f hi := ⟨hs.updates_defineFunction hi, fun _ _ => by rw [find_defineFunction]⟩

end Scopes

open Scopes

/-- A variable of a run is given a new value as a table of scopes has it, and if that fails the store is
left as it was. -/
theorem writeVar_eq (σ : Store) (i : ScopeId) (x : String) (v : Value) :
    writeVar i x v σ =
      match σ.scopes.set i x v with
      | .ok scopes => .ok () { σ with scopes := scopes }
      | .error e => .error e σ := by
  have hget : (get : EStateM Error Store Store) σ = .ok σ σ := rfl
  unfold writeVar Scopes.set set?
  rw [bind_apply, hget]
  dsimp only
  cases σ.scopes.owner? i x <;> rfl

/-- In every table that can be built, the scopes around a scope do not come back to it, a name means what
the nearest scope binds it to, and a change is seen by those whose nearest scope it is made in. A new value
for a variable that is not bound is refused and changes nothing. -/
theorem scopes_bind_nearest {V F : Type} {s : Scopes V F} (h : s.Reachable) :
    s.NearestBinding ∧ ∀ (σ : Store) (i : ScopeId) (x : String) (v : Value),
      writeVar i x v σ =
        match σ.scopes.set i x v with
        | .ok scopes => .ok () { σ with scopes := scopes }
        | .error e => .error e σ :=
  ⟨h.wellFormed.nearestBinding, writeVar_eq⟩

/-- Two scopes inside one that binds `x`, the second of which binds it too. -/
def siblings : Scopes Nat Unit :=
  ((((empty.root.2.define ⟨0⟩ "x" 1).child ⟨0⟩).2.child ⟨0⟩).2).define ⟨2⟩ "x" 2

theorem siblings_reachable : siblings.Reachable := by
  have hroot : (empty : Scopes Nat Unit).root.2.Has ⟨0⟩ := (has_add _).mpr (.inr rfl)
  have houter : (empty.root.2.define ⟨0⟩ "x" 1 : Scopes Nat Unit).Has ⟨0⟩ := has_define.mpr hroot
  have hfirst := (Reachable.define "x" 1 (.root .empty) hroot).child houter
  have hsecond := hfirst.child (has_child.mpr (.inl houter))
  exact .define "x" 2 hsecond (has_child.mpr (.inr rfl))

/-- A new value through the first sibling is seen from the scope around it and not from the second. -/
theorem siblings_bind_nearest : siblings.Reachable ∧ ∃ s', siblings.set ⟨1⟩ "x" 5 = .ok s' ∧
    s'.find ⟨0⟩ "x" = .ok 5 ∧ s'.find ⟨2⟩ "x" = siblings.find ⟨2⟩ "x" := by
  refine ⟨siblings_reachable, _, rfl, ?_⟩
  obtain ⟨hseen, -, -⟩ := (scopes_bind_nearest siblings_reachable).1.set ⟨1⟩ "x" 5 _ rfl
  have hfirst : siblings.Resolves ⟨1⟩ "x" ⟨0⟩ := ⟨.up rfl rfl .here, rfl⟩
  refine ⟨(hseen ⟨0⟩ "x").1 ⟨rfl, ⟨0⟩, hfirst, .here, rfl⟩, (hseen ⟨2⟩ "x").2 ?_⟩
  rintro ⟨-, k, ⟨h₁, -⟩, ⟨h₂, -⟩⟩
  cases h₂ with
  | here =>
      have hle := h₁.index_le siblings_reachable.wellFormed
      exact absurd hle (by decide)
  | up hb => cases hb

end ScriptEngine
