import ScriptEngine.Proofs.Ends
import ScriptEngine.Proofs.Scope.Alters
import ScriptEngine.Typing

/-!
# What a check changes

A check changes no scope but the one it is made in, also when it fails, and there it changes only what
the declarations of the checked statements say. Everything that is opened on the way is new.
-/

namespace ScriptEngine

open Scopes

variable {G G' : TypeScopes} {j : ScopeId} {r : Option Ty}

/-! ## The steps of a check -/

namespace Ends

variable {α : Type} {bad : Error → TypeScopes → Prop}

@[simp] theorem checkExpr_iff {e : Expr} {good : Ty → TypeScopes → Prop} :
    Ends (Check.expr j e) G good bad ↔
      (∀ t, typeOf G j e = .ok t → good t G) ∧ ∀ err, typeOf G j e = .error err → bad err G := by
  unfold Ends Check.expr
  cases typeOf G j e <;> simp

@[simp] theorem checkEnter_iff {good : ScopeId → TypeScopes → Prop} :
    Ends (Check.enter j) G good bad ↔ good (G.child j).1 (G.child j).2 := Iff.rfl

@[simp] theorem checkDeclare_iff {ds : List Decl} {good : Unit → TypeScopes → Prop} :
    Ends (Check.declare j ds) G good bad ↔
      good () (G.defineAll j (ds.map fun d => (d.name, d.type))) := Iff.rfl

theorem checkMerge {a b : Option Ty} {good : Option Ty → TypeScopes → Prop} (hg : ∀ r, good r G)
    (hb : ∀ e, bad e G) : Ends (Check.merge a b) G good bad := by
  unfold Check.merge
  split
  · exact hg _
  · exact hg _
  · split
    · exact hg _
    · exact hb _

end Ends

/-! ## Statements -/

/-- A check in the scope `j`, whether it succeeds or fails, alters no more than binding the names `xs` there
does. -/
abbrev BindsOnly {α : Type} (j : ScopeId) (xs : List String) (x : Check α) (G : TypeScopes) : Prop :=
  Ends x G (fun _ G' => AltersAt j xs G G') (fun _ G' => AltersAt j xs G G')

theorem checkAssign_binds {xs : List String} (target e : Expr) :
    BindsOnly j xs (Check.assign j target e) G := by
  unfold Check.assign
  split
  · simp only [Ends.bind_iff, Ends.checkExpr_iff]
    refine ⟨fun t _ => ⟨fun u _ => ?_, fun _ _ => .refl _ _ G⟩, fun _ _ => .refl _ _ G⟩
    split
    · exact .refl _ _ G
    · exact .refl _ _ G
  · exact .refl _ _ G

mutual

theorem checkStmt_binds {G : TypeScopes} {j : ScopeId} (hj : G.Has j) :
    (st : Stmt) → BindsOnly j st.declares (checkStmt j st) G
  | .block body => by
      simp only [checkStmt, Ends.bind_iff, Ends.checkEnter_iff]
      exact (checkBlock_binds none (has_child.mpr (.inr rfl)) body).mono
        (fun _ _ h => h.of_child hj) (fun _ _ h => h.of_child hj)
  | .noop => by simp only [checkStmt]; exact .refl _ _ G
  | .break => by simp only [checkStmt]; exact .refl _ _ G
  | .continue => by simp only [checkStmt]; exact .refl _ _ G
  | .expr e => by
      simp only [checkStmt, Ends.bind_iff, Ends.checkExpr_iff, Ends.pure_iff]
      exact ⟨fun _ _ => .refl _ _ G, fun _ _ => .refl _ _ G⟩
  | .branch bs => by
      simp only [checkStmt]
      exact checkBranches_binds none hj bs
  | .loop c body => by
      simp only [checkStmt, Ends.bind_iff, Ends.checkExpr_iff, Ends.checkEnter_iff]
      refine ⟨fun _ _ => ?_, fun _ _ => .refl _ _ G⟩
      exact (checkBlock_binds none (has_child.mpr (.inr rfl)) body).mono
        (fun _ _ h => h.of_child hj) (fun _ _ h => h.of_child hj)
  | .declare ds => by
      simp only [checkStmt, Ends.bind_iff, Ends.checkDeclare_iff, Ends.pure_iff]
      exact (Alters.defineAll hj).atMono (by simp [Stmt.declares, Function.comp_def])
  | .assign target e => by
      simp only [checkStmt, Ends.bind_iff, Ends.pure_iff]
      exact checkAssign_binds target e
  | .ret (some e) => by
      simp only [checkStmt, Ends.bind_iff, Ends.checkExpr_iff, Ends.pure_iff]
      exact ⟨fun _ _ => .refl _ _ G, fun _ _ => .refl _ _ G⟩
  | .ret none => by simp only [checkStmt]; exact .refl _ _ G

/-- The bodies of an `if` are all checked in new scopes, so nothing that was there is altered. -/
theorem checkBranches_binds {G : TypeScopes} {j : ScopeId} (sofar : Option Ty) (hj : G.Has j) :
    (bs : Branches) → BindsOnly j [] (checkBranches j sofar bs) G
  | .arm c body rest => by
      simp only [checkBranches, Ends.bind_iff, Ends.checkExpr_iff, Ends.checkEnter_iff]
      refine ⟨fun _ _ => ?_, fun _ _ => .refl _ _ G⟩
      refine (checkBlock_binds none (has_child.mpr (.inr rfl)) body).mono ?_ (fun _ _ h => h.of_child hj)
      intro found G₂ h
      have hk : AltersAt j [] G G₂ := h.of_child hj
      refine Ends.checkMerge (fun r => ?_) (fun _ => hk)
      exact (checkBranches_binds r (hk.has hj) rest).mono (fun _ _ h => hk.trans h)
        (fun _ _ h => hk.trans h)
  | .otherwise body => by
      simp only [checkBranches, Ends.bind_iff, Ends.checkEnter_iff]
      refine (checkBlock_binds none (has_child.mpr (.inr rfl)) body).mono ?_ (fun _ _ h => h.of_child hj)
      intro found G₂ h
      exact Ends.checkMerge (fun _ => h.of_child hj) (fun _ => h.of_child hj)

/-- A check of statements alters no more than the bindings of the names that the statements themselves
declare, in the scope that they are checked in. -/
theorem checkBlock_binds {G : TypeScopes} {j : ScopeId} (sofar : Option Ty) (hj : G.Has j) :
    (b : List Stmt) → BindsOnly j (declared b) (checkBlock j sofar b) G
  | [] => by simp only [checkBlock]; exact .refl _ _ G
  | st :: rest => by
      simp only [checkBlock, declared_cons, Ends.bind_iff]
      have hl : st.declares ⊆ st.declares ++ declared rest := List.subset_append_left _ _
      have hr : declared rest ⊆ st.declares ++ declared rest := List.subset_append_right _ _
      refine (checkStmt_binds hj st).mono ?_ (fun _ _ h => h.atMono hl)
      intro found G₁ h₁
      refine Ends.checkMerge (fun r => ?_) (fun _ => h₁.atMono hl)
      exact (checkBlock_binds r (h₁.has hj) rest).mono (fun _ _ h => (h₁.atMono hl).trans (h.atMono hr))
        (fun _ _ h => (h₁.atMono hl).trans (h.atMono hr))

end

/-! ## The other scopes -/

/-- A check in the scope `j`, whether it succeeds or fails, keeps the other scopes. -/
abbrev KeepsOthers {α : Type} (j : ScopeId) (x : Check α) (G : TypeScopes) : Prop :=
  Ends x G (fun _ G' => Keeps (· ≠ j) G G') (fun _ G' => Keeps (· ≠ j) G G')

theorem keepsOthers_of_binds {α : Type} {xs : List String} {x : Check α} (h : BindsOnly j xs x G) :
    KeepsOthers j x G :=
  have hk : ∀ G', AltersAt j xs G G' → Keeps (· ≠ j) G G' := fun _ h =>
    h.keeps.mono fun _ _ hk _ hw => hk hw.1
  h.mono (fun _ => hk) (fun _ => hk)

theorem checkStmt_keeps (hj : G.Has j) (st : Stmt) : KeepsOthers j (checkStmt j st) G :=
  keepsOthers_of_binds (checkStmt_binds hj st)

theorem checkBlock_keeps (sofar : Option Ty) (hj : G.Has j) (b : List Stmt) :
    KeepsOthers j (checkBlock j sofar b) G :=
  keepsOthers_of_binds (checkBlock_binds sofar hj b)

theorem checkBranches_keeps (sofar : Option Ty) (hj : G.Has j) (bs : Branches) :
    Ends (checkBranches j sofar bs) G (fun _ G' => Keeps (fun _ => True) G G')
      (fun _ G' => Keeps (fun _ => True) G G') :=
  have hk : ∀ G', AltersAt j [] G G' → Keeps (fun _ => True) G G' := fun _ h =>
    h.keeps.mono fun _ _ _ _ hw => (nomatch hw.2)
  (checkBranches_binds sofar hj bs).mono (fun _ => hk) (fun _ => hk)

/-- A body is checked in a new scope, and nothing else is changed. -/
theorem checkBody_keeps {sofar : Option Ty} {b : List Stmt} (hj : G.Has j)
    (hc : checkBlock (G.child j).1 sofar b (G.child j).2 = .ok r G') : Keeps (fun _ => True) G G' :=
  ((checkBlock_keeps sofar (has_child.mpr (.inr rfl)) b).of_ok hc).of_child hj

/-! ## Checks that succeed -/

@[simp] theorem checkExpr_eq_ok {e : Expr} {t : Ty} :
    Check.expr j e G = .ok t G' ↔ typeOf G j e = .ok t ∧ G' = G := by
  unfold Check.expr
  cases typeOf G j e <;> simp [eq_comm]

@[simp] theorem checkEnter_eq_ok {k : ScopeId} :
    Check.enter j G = .ok k G' ↔ k = (G.child j).1 ∧ G' = (G.child j).2 := by
  simp [Check.enter, eq_comm]

@[simp] theorem checkPure_eq_ok {α : Type} {a b : α} :
    (pure a : Check α) G = .ok b G' ↔ b = a ∧ G' = G := by
  simp [pure, EStateM.pure, eq_comm]

theorem checkAssign_eq_ok {target e : Expr} {u : Unit} : Check.assign j target e G = .ok u G' ↔
    target.isPlace = true ∧ (∃ t, typeOf G j target = .ok t ∧ typeOf G j e = .ok t) ∧ G' = G := by
  unfold Check.assign
  by_cases hp : target.isPlace = true
  · simp only [hp, if_true, bind_eq_ok, checkExpr_eq_ok, true_and]
    constructor
    · rintro ⟨t, _, ⟨ht, rfl⟩, v, _, ⟨hv, rfl⟩, h⟩
      split at h
      · cases h
      · rename_i htv
        cases h
        exact ⟨⟨t, ht, by rw [hv, Decidable.not_not.mp htv]⟩, rfl⟩
    · rintro ⟨⟨t, ht, hv⟩, rfl⟩
      exact ⟨t, _, ⟨ht, rfl⟩, t, _, ⟨hv, rfl⟩, by simp⟩
  · simp [hp, Check.refuse]; intro h; cases h

/-- How the type of a part's returns goes together with those found before. -/
def Check.Merges (sofar found r : Option Ty) : Prop :=
  (found = none ∧ r = sofar) ∨ ∃ t, found = some t ∧ r = some t ∧ (sofar = none ∨ sofar = some t)

theorem merge_eq_ok {a b : Option Ty} : Check.merge a b G = .ok r G' ↔ G' = G ∧ Check.Merges a b r := by
  unfold Check.merge Check.Merges
  constructor
  · intro h
    split at h
    · cases h
      cases r <;> simp
    · cases h; simp
    · rename_i t u
      split at h
      · rename_i htu
        cases h; simp [htu]
      · cases h
  · rintro ⟨rfl, ⟨rfl, rfl⟩ | ⟨t, rfl, rfl, rfl | rfl⟩⟩
    · cases r <;> rfl
    · rfl
    · simp

/-! ## Statements that are accepted -/

section

variable {c e : Expr} {b rest : List Stmt}

theorem checkStmt_block_eq_ok : checkStmt j (.block b) G = .ok r G' ↔
    checkBlock (G.child j).1 none b (G.child j).2 = .ok r G' := Iff.rfl

theorem checkStmt_expr_eq_ok : checkStmt j (.expr e) G = .ok r G' ↔
    (∃ t, typeOf G j e = .ok t) ∧ r = none ∧ G' = G := by
  simp only [checkStmt, bind_eq_ok, checkExpr_eq_ok, checkPure_eq_ok]
  constructor
  · rintro ⟨t, _, ⟨ht, rfl⟩, hr⟩
    exact ⟨⟨t, ht⟩, hr⟩
  · rintro ⟨⟨t, ht⟩, hr⟩
    exact ⟨t, G, ⟨ht, rfl⟩, hr⟩

theorem checkStmt_loop_eq_ok : checkStmt j (.loop c b) G = .ok r G' ↔
    (∃ t, typeOf G j c = .ok t) ∧ checkBlock (G.child j).1 none b (G.child j).2 = .ok r G' := by
  simp only [checkStmt, bind_eq_ok, checkExpr_eq_ok, checkEnter_eq_ok]
  constructor
  · rintro ⟨t, _, ⟨ht, rfl⟩, _, _, ⟨rfl, rfl⟩, hc⟩
    exact ⟨⟨t, ht⟩, hc⟩
  · rintro ⟨⟨t, ht⟩, hc⟩
    exact ⟨t, G, ⟨ht, rfl⟩, _, _, ⟨rfl, rfl⟩, hc⟩

theorem checkStmt_declare_eq_ok {ds : List Decl} : checkStmt j (.declare ds) G = .ok r G' ↔
    r = none ∧ G' = G.defineAll j (ds.map fun d => (d.name, d.type)) := by
  simp only [checkStmt, bind_eq_ok, checkPure_eq_ok]
  constructor
  · rintro ⟨_, _, ⟨⟩, hr⟩
    exact hr
  · intro hr
    exact ⟨_, _, rfl, hr⟩

theorem checkStmt_assign_eq_ok {target : Expr} : checkStmt j (.assign target e) G = .ok r G' ↔
    target.isPlace = true ∧ (∃ t, typeOf G j target = .ok t ∧ typeOf G j e = .ok t) ∧ r = none ∧ G' = G := by
  simp only [checkStmt, bind_eq_ok, checkAssign_eq_ok, checkPure_eq_ok]
  constructor
  · rintro ⟨_, _, ⟨hp, ht, rfl⟩, hr⟩
    exact ⟨hp, ht, hr⟩
  · rintro ⟨hp, ht, hr⟩
    exact ⟨(), G, ⟨hp, ht, rfl⟩, hr⟩

theorem checkStmt_ret_eq_ok : checkStmt j (.ret (some e)) G = .ok r G' ↔
    ∃ t, typeOf G j e = .ok t ∧ r = some t ∧ G' = G := by
  simp only [checkStmt, bind_eq_ok, checkExpr_eq_ok, checkPure_eq_ok]
  constructor
  · rintro ⟨t, _, ⟨ht, rfl⟩, hr⟩
    exact ⟨t, ht, hr⟩
  · rintro ⟨t, ht, hr⟩
    exact ⟨t, G, ⟨ht, rfl⟩, hr⟩

theorem checkBranches_arm_eq_ok {sofar : Option Ty} {bs : Branches} :
    checkBranches j sofar (.arm c b bs) G = .ok r G' ↔
      (∃ t, typeOf G j c = .ok t) ∧ ∃ found G₁ m,
        checkBlock (G.child j).1 none b (G.child j).2 = .ok found G₁ ∧ Check.Merges sofar found m ∧
        checkBranches j m bs G₁ = .ok r G' := by
  simp only [checkBranches, bind_eq_ok, checkExpr_eq_ok, checkEnter_eq_ok, merge_eq_ok]
  constructor
  · rintro ⟨t, _, ⟨ht, rfl⟩, _, _, ⟨rfl, rfl⟩, found, G₁, hb, m, _, ⟨rfl, hm⟩, hbs⟩
    exact ⟨⟨t, ht⟩, found, _, m, hb, hm, hbs⟩
  · rintro ⟨⟨t, ht⟩, found, G₁, m, hb, hm, hbs⟩
    exact ⟨t, G, ⟨ht, rfl⟩, _, _, ⟨rfl, rfl⟩, found, G₁, hb, m, G₁, ⟨rfl, hm⟩, hbs⟩

theorem checkBranches_otherwise_eq_ok {sofar : Option Ty} :
    checkBranches j sofar (.otherwise b) G = .ok r G' ↔
      ∃ found, checkBlock (G.child j).1 none b (G.child j).2 = .ok found G' ∧ Check.Merges sofar found r := by
  simp only [checkBranches, bind_eq_ok, checkEnter_eq_ok, merge_eq_ok]
  constructor
  · rintro ⟨_, _, ⟨rfl, rfl⟩, found, _, hb, rfl, hm⟩
    exact ⟨found, hb, hm⟩
  · rintro ⟨found, hb, hm⟩
    exact ⟨_, _, ⟨rfl, rfl⟩, found, G', hb, rfl, hm⟩

theorem checkBlock_cons_eq_ok {sofar : Option Ty} {st : Stmt} :
    checkBlock j sofar (st :: rest) G = .ok r G' ↔
      ∃ found G₁ m, checkStmt j st G = .ok found G₁ ∧ Check.Merges sofar found m ∧
        checkBlock j m rest G₁ = .ok r G' := by
  simp only [checkBlock, bind_eq_ok, merge_eq_ok]
  constructor
  · rintro ⟨found, G₁, hst, m, _, ⟨rfl, hm⟩, hrest⟩
    exact ⟨found, _, m, hst, hm, hrest⟩
  · rintro ⟨found, G₁, m, hst, hm, hrest⟩
    exact ⟨found, G₁, hst, m, G₁, ⟨rfl, hm⟩, hrest⟩

end

/-! ## The type of the returns -/

/-- A type of returns found once is the type of all. -/
theorem checkBlock_sofar {t : Ty} : {b : List Stmt} → {G G' : TypeScopes} →
    checkBlock j (some t) b G = .ok r G' → r = some t
  | [], _, _, h => by simp only [checkBlock] at h; cases h; rfl
  | st :: rest, _, _, h => by
      obtain ⟨found, G₁, m, _, hm, hrest⟩ := checkBlock_cons_eq_ok.mp h
      rcases hm with ⟨_, rfl⟩ | ⟨u, rfl, rfl, ⟨⟨⟩⟩ | ⟨⟨⟩⟩⟩
      · exact checkBlock_sofar hrest
      · exact checkBlock_sofar hrest

theorem checkBranches_sofar {t : Ty} : {bs : Branches} → {G G' : TypeScopes} →
    checkBranches j (some t) bs G = .ok r G' → r = some t
  | .arm c body rest, _, _, h => by
      obtain ⟨_, found, G₁, m, _, hm, hrest⟩ := checkBranches_arm_eq_ok.mp h
      rcases hm with ⟨_, rfl⟩ | ⟨u, rfl, rfl, ⟨⟨⟩⟩ | ⟨⟨⟩⟩⟩
      · exact checkBranches_sofar hrest
      · exact checkBranches_sofar hrest
  | .otherwise body, _, _, h => by
      obtain ⟨found, _, hm⟩ := checkBranches_otherwise_eq_ok.mp h
      rcases hm with ⟨_, rfl⟩ | ⟨u, rfl, rfl, ⟨⟨⟩⟩ | ⟨⟨⟩⟩⟩
      · rfl
      · rfl

theorem Check.Merges.found {a m : Option Ty} {t : Ty} (h : Check.Merges a (some t) m) : m = some t := by
  rcases h with ⟨h, _⟩ | ⟨u, h, hm, _⟩
  · cases h
  · cases h; exact hm

end ScriptEngine
