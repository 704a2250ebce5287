import ScriptEngine.Proofs.Execution.Lockstep
import ScriptEngine.Proofs.Typing.Expr

/-!
# Check and run agree on names

What a checked program means by a name is settled before it runs. The check does not look at what a
declaration starts from, so this is asked for apart: the variables in it have to be known where the
declaration stands, whatever their types.
-/

namespace ScriptEngine

open Scopes

namespace Typing

/-- The variables that a declaration starts from are known. -/
def Resolved (G : TypeScopes) (j : ScopeId) (d : Decl) : Prop :=
  ∀ e, d.value = some e → ∀ x ∈ e.vars, (G.find? j x).isSome = true

/-- An error that has to do neither with a name nor with an assignment to what is no place. -/
def Nameless (e : Error) : Prop := e.cause.kind ≠ .name ∧ e.cause ≠ .fault .notAssignable

/-- Programs whose declarations start from known variables, run on any values. -/
def naming : Discipline where
  World := Unit
  le _ _ := True
  holds _ _ := True
  fits _ _ _ := True
  expr _ _ _ := True
  decl := Resolved
  tolerates := Nameless

end Typing

open Typing

variable {σ σ' : Store} {G G' : TypeScopes} {i j : ScopeId}

/-! ## The laws -/

/-- All variables of an expression that has a type are known. -/
theorem find?_isSome_of_typeOf : {e : Expr} → {t : Ty} → typeOf G j e = .ok t →
    ∀ x ∈ e.vars, (G.find? j x).isSome = true
  | .constant _, _, _, _, hx => nomatch hx
  | .var y, _, ht, x, hx => by
      rw [Expr.vars, List.mem_singleton] at hx
      rw [hx, typeOf_var_eq_ok.mp ht]
      rfl
  | .unary op e, _, ht, x, hx => by
      obtain ⟨u, hu, _⟩ := typeOf_unary_eq_ok.mp ht
      exact find?_isSome_of_typeOf hu x hx
  | .binary op l r, _, ht, x, hx => by
      obtain ⟨a, b, hl, hr, _⟩ := typeOf_binary_eq_ok.mp ht
      rcases List.mem_append.mp hx with hx | hx
      · exact find?_isSome_of_typeOf hl x hx
      · exact find?_isSome_of_typeOf hr x hx
  | .index b k, _, ht, x, hx => by
      obtain ⟨a, c, hb, hk, _⟩ := typeOf_index_eq_ok.mp ht
      rcases List.mem_append.mp hx with hx | hx
      · exact find?_isSome_of_typeOf hb x hx
      · exact find?_isSome_of_typeOf hk x hx

theorem nameless_ofFault {f : Fault} (h : f ≠ .notAssignable) : Nameless (.ofFault f) :=
  ⟨nofun, fun he => h (Cause.fault.inj he)⟩

theorem Fault.OfOperator.nameless {f : Fault} (h : f.OfOperator) : Nameless (.ofFault f) :=
  nameless_ofFault (by rintro rfl; exact h)

/-- Where the variables of an expression are known, no name is missing in its evaluation. -/
theorem eval_nameless {e : Expr} (ha : Agree (fun _ _ => True) σ.scopes i G j)
    (hv : ∀ x ∈ e.vars, (G.find? j x).isSome = true) :
    Ends (eval i e) σ (fun _ σ' => σ'.scopes = σ.scopes) (fun err _ => Nameless err) := by
  refine (eval_explained i e σ).mono (fun _ _ h => h) ?_
  rintro _ _ (⟨x, hx, hnone, _⟩ | ⟨f, rfl, hf⟩)
  · have hr := ha.find? x
    obtain ⟨t, ht⟩ := Option.isSome_iff_exists.mp (hv x hx)
    rw [hnone, ht] at hr
    cases hr
  · exact hf.nameless

theorem assignElement_nameless {b k : Expr} {v : Value} (ha : Agree (fun _ _ => True) σ.scopes i G j)
    (hv : ∀ x ∈ (Expr.index b k).vars, (G.find? j x).isSome = true) :
    Ends (assign i (.index b k) v) σ (fun _ _ => True) (fun err _ => Nameless err) := by
  simp only [assign, Ends.bind_iff]
  refine (eval_nameless ha fun x hx => hv x (List.mem_append_left _ hx)).mono ?_ (fun _ _ h => h)
  intro base σ₁ h₁
  rw [← h₁] at ha
  refine (eval_nameless ha fun x hx => hv x (List.mem_append_right _ hx)).mono ?_ (fun _ _ h => h)
  intro index σ₂ _
  split
  · simp only [Ends.bind_iff, Ends.get_iff, Ends.orFault_iff, Ends.modify_iff]
    exact ⟨fun _ _ => trivial, fun f hf => (FailsAsOperator.resolve _ _ f hf).nameless⟩
  · simp only [Ends.orFault_iff]
    refine ⟨fun _ _ => trivial, ?_⟩
    rintro _ ⟨⟩
    exact nameless_ofFault nofun

theorem naming_lawful : naming.Lawful where
  refl _ := trivial
  trans _ _ := trivial
  fits_mono _ _ := trivial
  holds_congr _ _ := trivial
  null _ := trivial
  eval ha _ _ ht := (eval_nameless ha (find?_isSome_of_typeOf ht)).mono
    (fun _ _ _ => ⟨(), trivial, trivial, trivial⟩) fun _ _ h => ⟨h, (), trivial, trivial⟩
  initial {_ _ _ _ _ d} ha _ hd := by
    obtain ⟨x, t, value⟩ := d
    cases value with
    | none => exact ⟨(), trivial, trivial, trivial⟩
    | some e =>
        exact (eval_nameless ha (hd e rfl)).mono
          (fun _ _ _ => ⟨(), trivial, trivial, trivial⟩) fun _ _ h => ⟨h, (), trivial, trivial⟩
  element ha _ _ ht _ := (assignElement_nameless ha (find?_isSome_of_typeOf ht)).mono
    (fun _ _ _ => ⟨(), trivial, trivial⟩) fun _ _ h => ⟨h, (), trivial, trivial⟩

/-! ## Programs -/

/-- A checked program whose declarations start from known variables, started in a scope whose chain
binds the same names as that of the type scope, meets no unknown name and assigns only to places. If it
falls through, its scope binds the names that the check leaves; if it stops early, some of them. The
scopes around keep their names on both sides. -/
theorem checked_run_scoping {b : List Stmt} {r : Option Ty} (rounds : Nat) (hG : G.WellFormed)
    (hj : G.Has j) (hs : σ.scopes.WellFormed) (hi : σ.scopes.Has i)
    (ha : Agree (fun _ _ => True) σ.scopes i G j) (hd : naming.block j b G)
    (hc : check j b G = .ok r G') :
    (∀ k ∈ G.outer j, ∀ x, G'.binds k x = G.binds k x) ∧
    Ends (runBlock rounds i b) σ
      (fun signal σ' => (signal = none → ∀ x, σ'.scopes.binds i x = G'.binds j x) ∧
        (∀ x, σ'.scopes.binds i x = true → G'.binds j x = true) ∧
        ∀ k ∈ σ.scopes.outer i, ∀ x, σ'.scopes.binds k x = σ.scopes.binds k x)
      (fun a σ' => (∀ e, a = .error e → e.cause.kind ≠ .name ∧ e.cause ≠ .fault .notAssignable) ∧
        (∀ x, σ'.scopes.binds i x = true → G'.binds j x = true) ∧
        ∀ k ∈ σ.scopes.outer i, ∀ x, σ'.scopes.binds k x = σ.scopes.binds k x) := by
  have hin : naming.InStep () G j σ i := ⟨hG, hj, hs, hi, ha, trivial⟩
  have hk := (checkBlock_keeps none hj b).of_ok hc
  have hkept : ∀ σ', σ.RunsIn i σ' → ∀ k ∈ σ.scopes.outer i, ∀ x, σ'.scopes.binds k x = σ.scopes.binds k x := by
    intro σ' hrun k hk x
    refine hrun.names k (hs.has_of_mem_chain hi (List.mem_cons_of_mem _ hk)) ?_ x
    rintro rfl
    exact hs.not_mem_outer hi hk
  refine ⟨fun k hko x => ?_, ?_⟩
  · have hne : k ≠ j := by
      rintro rfl
      exact hG.not_mem_outer hj hko
    unfold binds
    rw [hk.vars k (hG.has_of_mem_chain hj (List.mem_cons_of_mem _ hko)) hne x]
  · have hstep := Discipline.runBlock_inStep naming_lawful rounds b hin hd hc
    refine (hstep.and (runBlock_confined b σ hi)).mono ?_ ?_
    · rintro signal σ' ⟨h, hrun⟩
      obtain ⟨_, _, hleft, _⟩ := h.left
      refine ⟨?_, hleft.names, hkept σ' hrun⟩
      rintro rfl x
      obtain ⟨_, _, h⟩ := h
      exact h.agree.own.binds_eq x
    · rintro a σ' ⟨⟨he, _, _, hleft⟩, hrun⟩
      exact ⟨he, hleft.names, hkept σ' hrun⟩

/-- A declaration of the wrong type, and one that hides a name in the body of a loop:
`let y: str = -x; while x { let x: int = y; x = 1; } x = 0;`. -/
def hideInLoop : List Stmt :=
  [.declare [⟨"y", .str, some (.unary .minus (.var "x"))⟩],
    .loop (.var "x") [.declare [⟨"x", .int, some (.var "y")⟩], .assign (.var "x") (.constant (.int 1))],
    .assign (.var "x") (.constant (.int 0))]

theorem hideInLoop_keeps :
    naming.block ⟨0⟩ hideInLoop (Scopes.empty.root.2.define ⟨0⟩ "x" .int) := by
  refine ⟨⟨?_, trivial⟩, ?_⟩
  · rintro _ ⟨⟩ x hx
    rw [List.mem_singleton.mp hx]
    rfl
  rintro _ _ ⟨⟩
  refine ⟨⟨trivial, ⟨?_, trivial⟩, fun _ _ _ => ⟨⟨trivial, trivial⟩, fun _ _ _ => trivial⟩⟩, ?_⟩
  · rintro _ ⟨⟩ x hx
    rw [List.mem_singleton.mp hx]
    rfl
  · exact fun _ _ _ => ⟨⟨trivial, trivial⟩, fun _ _ _ => trivial⟩

/-- The program is accepted, and no run of it, from any value of `x`, meets an unknown name. -/
theorem hiding_run_scoping :
    (∃ G', check ⟨0⟩ hideInLoop (Scopes.empty.root.2.define ⟨0⟩ "x" .int) = .ok none G') ∧
    ∀ rounds v, Ends (runBlock rounds ⟨0⟩ hideInLoop) ⟨Scopes.empty.root.2.define ⟨0⟩ "x" v, #[], #[]⟩
      (fun _ _ => True) (fun a _ => ∀ e, a = .error e → e.cause.kind ≠ .name) := by
  refine ⟨⟨_, rfl⟩, fun rounds v => ?_⟩
  have hroot : ∀ {V F : Type}, (Scopes.empty : Scopes V F).root.2.WellFormed := WellFormed.empty.root
  have hhas : ∀ {V F : Type}, (Scopes.empty : Scopes V F).root.2.Has ⟨0⟩ := Nat.lt_add_one 0
  have ha : Agree (fun _ _ => True)
      (Store.scopes ⟨Scopes.empty.root.2.define ⟨0⟩ "x" v, #[], #[]⟩) ⟨0⟩
      (Scopes.empty.root.2.define ⟨0⟩ "x" .int : TypeScopes) ⟨0⟩ :=
    Agree.root.define hroot hroot hhas hhas trivial
  have hrun := (checked_run_scoping rounds hroot.define (has_define.mpr hhas) hroot.define
    (has_define.mpr hhas) ha hideInLoop_keeps rfl).2
  exact hrun.mono (fun _ _ _ => trivial) fun _ _ h e he => (h.1 e he).1

end ScriptEngine
