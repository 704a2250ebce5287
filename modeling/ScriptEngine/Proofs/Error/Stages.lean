import ScriptEngine.Proofs.Execution.Sites
import ScriptEngine.Proofs.Parser.Placement
import ScriptEngine.Proofs.Typing.Effect
import ScriptEngine.Text.Unicode

/-!
# The errors of each stage

Reading, checking and running have errors of their own kinds. Only those of reading have a position. Checks and
runs can both miss a variable, which then occurs in the program, and a run misses it where no frame of the chain
binds it at that moment.
-/

namespace ScriptEngine

/-! ## Checks -/

/-- An error that a check of code with the variables `xs` stops with: one about types, or a variable that is not
declared. It has no position. -/
def CheckError (xs : List String) (e : Error) : Prop :=
  e.position = none ∧ (e.cause.kind = .type ∨ ∃ x ∈ xs, e.cause = .undefinedVariable x)

theorem CheckError.mono {xs ys : List String} {e : Error} (hxs : xs ⊆ ys) (h : CheckError xs e) :
    CheckError ys e := by
  obtain ⟨hp, hk | ⟨x, hx, hc⟩⟩ := h
  · exact ⟨hp, .inl hk⟩
  · exact ⟨hp, .inr ⟨x, hxs hx, hc⟩⟩

theorem checkError_plain {c : Cause} {xs : List String} (h : c.kind = .type) : CheckError xs (.plain c) :=
  ⟨rfl, .inl h⟩

theorem Typing.kind_of_unary {op : UnaryOp} {t : Ty} {c : Cause} (h : unary op t = .error c) :
    c.kind = .type := by
  unfold unary at h
  split at h
  · cases h
  · split at h
    · cases h
    · split at h <;> cases h
      rfl

theorem Typing.kind_of_binary {op : BinaryOp} {t u : Ty} {c : Cause} (h : binary op t u = .error c) :
    c.kind = .type := by
  unfold binary at h
  repeat' split at h
  all_goals cases h
  rfl

theorem Typing.kind_of_index {t u : Ty} {c : Cause} (h : index t u = .error c) : c.kind = .type := by
  unfold index at h
  split at h
  · cases h
    rfl
  · split at h
    · cases h
    · split at h <;> cases h
      rfl

theorem Typing.orError_eq_error {α : Type} {r : Except Cause α} {e : Error} (h : orError r = .error e) :
    ∃ c, r = .error c ∧ e = .plain c := by
  cases r with
  | ok a => cases h
  | error c =>
      cases h
      exact ⟨c, rfl, rfl⟩

theorem exceptBind_eq_error {ε α β : Type} {x : Except ε α} {f : α → Except ε β} {e : ε}
    (h : (x >>= f) = .error e) : x = .error e ∨ ∃ a, x = .ok a ∧ f a = .error e := by
  cases x with
  | error e' =>
      cases h
      exact .inl rfl
  | ok a => exact .inr ⟨a, rfl, h⟩

theorem typeOf_error {G : TypeScopes} {j : ScopeId} : {a : Expr} → {e : Error} → typeOf G j a = .error e →
    CheckError a.vars e
  | .constant _, _, h => nomatch h
  | .var x, e, h => by
      simp only [typeOf, Scopes.find] at h
      split at h <;> cases h
      exact ⟨rfl, .inr ⟨x, List.mem_cons_self, rfl⟩⟩
  | .unary op a, e, h => by
      rcases exceptBind_eq_error h with h | ⟨t, _, h⟩
      · exact @typeOf_error G j a e h
      · obtain ⟨c, hc, rfl⟩ := Typing.orError_eq_error h
        exact checkError_plain (Typing.kind_of_unary hc)
  | .binary op l r, e, h => by
      rcases exceptBind_eq_error h with h | ⟨t, _, h⟩
      · exact (typeOf_error h).mono (List.subset_append_left _ _)
      · rcases exceptBind_eq_error h with h | ⟨u, _, h⟩
        · exact (typeOf_error h).mono (List.subset_append_right _ _)
        · obtain ⟨c, hc, rfl⟩ := Typing.orError_eq_error h
          exact checkError_plain (Typing.kind_of_binary hc)
  | .index b k, e, h => by
      rcases exceptBind_eq_error h with h | ⟨t, _, h⟩
      · exact (typeOf_error h).mono (List.subset_append_left _ _)
      · rcases exceptBind_eq_error h with h | ⟨u, _, h⟩
        · exact (typeOf_error h).mono (List.subset_append_right _ _)
        · obtain ⟨c, hc, rfl⟩ := Typing.orError_eq_error h
          exact checkError_plain (Typing.kind_of_index hc)

/-- A step of a check of code with the variables `xs` fails with an error of checks. -/
def Complains {α : Type} (xs : List String) (x : Check α) : Prop :=
  ∀ G, Ends x G (fun _ _ => True) (fun e _ => CheckError xs e)

namespace Complains

variable {α β : Type} {xs ys : List String} {x : Check α} {f : α → Check β} {j : ScopeId}

theorem pure (a : α) : Complains xs (pure a : Check α) := fun _ => trivial

theorem mono (hxs : xs ⊆ ys) (h : Complains xs x) : Complains ys x := fun G =>
  (h G).mono (fun _ _ h => h) (fun _ _ h => h.mono hxs)

theorem bind (hx : Complains xs x) (hf : ∀ a, Complains xs (f a)) : Complains xs (x >>= f) := fun G =>
  Ends.bind_iff.mpr ((hx G).mono (fun a G' _ => hf a G') (fun _ _ h => h))

theorem expr (e : Expr) : Complains e.vars (Check.expr j e) := fun _ =>
  Ends.checkExpr_iff.mpr ⟨fun _ _ => trivial, fun _ h => typeOf_error h⟩

theorem within {f : ScopeId → Check α} (hf : ∀ k, Complains xs (f k)) :
    Complains xs (do f (← Check.enter j)) := fun G => hf _ (G.child j).2

theorem merge (a b : Option Ty) : Complains xs (Check.merge a b) := by
  intro G
  unfold Check.merge
  split
  · trivial
  · trivial
  · split
    · trivial
    · exact checkError_plain rfl

theorem assign (target e : Expr) : Complains (target.vars ++ e.vars) (Check.assign j target e) := by
  unfold Check.assign
  split
  · refine .bind ((expr target).mono (List.subset_append_left _ _)) fun t => ?_
    refine .bind ((expr e).mono (List.subset_append_right _ _)) fun u => ?_
    split
    · exact fun _ => checkError_plain rfl
    · exact .pure _
  · exact fun _ => checkError_plain rfl

end Complains

mutual

theorem checkStmt_complains (j : ScopeId) : (s : Stmt) → Complains s.vars (checkStmt j s)
  | .block b => .within fun k => checkBlock_complains k none b
  | .noop => .pure _
  | .break => .pure _
  | .continue => .pure _
  | .expr e => .bind (.expr e) fun _ => .pure _
  | .branch bs => checkBranches_complains j none bs
  | .loop c b => by
      refine .bind ((Complains.expr c).mono (List.subset_append_left _ _)) fun _ => ?_
      exact .within fun k => (checkBlock_complains k none b).mono (List.subset_append_right _ _)
  | .declare ds => fun _ => trivial
  | .assign target e => .bind (.assign target e) fun _ => .pure _
  | .ret (some e) => .bind (.expr e) fun _ => .pure _
  | .ret none => .pure _

theorem checkBranches_complains (j : ScopeId) (sofar : Option Ty) : (bs : Branches) →
    Complains bs.vars (checkBranches j sofar bs)
  | .arm c b rest => by
      refine .bind ((Complains.expr c).mono (List.subset_append_left _ _)) fun _ => .within fun k => ?_
      have hbody := (checkBlock_complains k none b).mono (List.subset_append_left _ rest.vars)
      have hrest : ∀ r, Complains (blockVars b ++ rest.vars) (checkBranches j r rest) := fun r =>
        (checkBranches_complains j r rest).mono (List.subset_append_right _ _)
      exact (Complains.bind hbody fun found => .bind (.merge _ _) hrest).mono (List.subset_append_right _ _)
  | .otherwise b => .within fun k => .bind (checkBlock_complains k none b) fun found => .merge _ _

theorem checkBlock_complains (j : ScopeId) (sofar : Option Ty) : (b : List Stmt) →
    Complains (blockVars b) (checkBlock j sofar b)
  | [] => .pure _
  | s :: rest => by
      refine .bind ((checkStmt_complains j s).mono (List.subset_append_left _ _)) fun found => ?_
      refine .bind (.merge _ _) fun r => ?_
      exact (checkBlock_complains j r rest).mono (List.subset_append_right _ _)

end

theorem checkFunction_complains (j : ScopeId) (f : Function) :
    Complains (blockVars f.body) (checkFunction j f) := by
  refine .within fun k => .bind (fun _ => trivial) fun _ => ?_
  refine .bind (checkBlock_complains k none f.body) fun found => ?_
  cases found with
  | none => exact .pure _
  | some t =>
      dsimp only
      split
      · exact fun _ => checkError_plain rfl
      · exact .pure _

/-! ## Calls -/

/-- The sites that a call reaches. -/
def CallReaches (f : Function) (rounds : Nat) (arguments : List Value) (σ : Store) (site : Site) : Prop :=
  BlockReaches rounds site (σ.child f.scope).1 f.body (f.entered arguments σ)

theorem call_fails (f : Function) (rounds : Nat) (arguments : List Value) (σ : Store) :
    Ends (f.call rounds arguments) σ (fun _ _ => True) (fun a σ' => ∀ e, a = .error e →
      e = .ofFault (.arity f.parameters.length arguments.length) ∨
        StopsAt (CallReaches f rounds arguments σ) e σ') := by
  unfold Function.call
  split
  · rintro _ ⟨⟩
    exact .inl rfl
  · simp only [Ends.bind_iff, Ends.enter_iff, Ends.modify_iff]
    refine Ends.mono (runBlock_failsAt _ f.body (f.entered arguments σ)) (fun signal _ _ => ?_)
      (fun _ _ h e he => .inr (h e he))
    split <;> trivial

/-! ## All stages -/

/-- Errors of reading are syntactic and have a position. Errors of a check are about types, or about a variable of
the checked code. Errors of an evaluation, a run or a call are faults, or about a variable of an expression that
is reached, which no frame of the chain binds when they arise. -/
theorem errors_belong_to_stage [Alphabet] :
    (∀ source e, parse source = .error e ∨ parseExpr source = .error e →
      e.cause.kind = .syntactic ∧ ∃ p, e.position = some p) ∧
    (∀ (G : TypeScopes) (j : ScopeId),
      (∀ a e, typeOf G j a = .error e → CheckError a.vars e) ∧
      (∀ b e G', check j b G = .error e G' → CheckError (blockVars b) e) ∧
      ∀ f e G', checkFunction j f G = .error e G' → CheckError (blockVars f.body) e) ∧
    ∀ σ : Store,
      (∀ i a e σ', eval i a σ = .error e σ' → RunError i a.vars e σ') ∧
      (∀ rounds i b e σ', runBlock rounds i b σ = .error (.error e) σ' →
        StopsAt (fun site => BlockReaches rounds site i b σ ∧ site.expr.vars ⊆ blockVars b) e σ') ∧
      ∀ f rounds arguments e σ', f.call rounds arguments σ = .error (.error e) σ' →
        e = .ofFault (.arity f.parameters.length arguments.length) ∨
          StopsAt (fun site => CallReaches f rounds arguments σ site ∧ site.expr.vars ⊆ blockVars f.body) e σ' := by
  refine ⟨fun source e h => ?_, fun G j => ⟨?_, ?_, ?_⟩, fun σ => ⟨?_, ?_, ?_⟩⟩
  · obtain ⟨hkind, p, hp, _⟩ := blames_of_parse h
    exact ⟨hkind, p, hp⟩
  · exact fun a e h => typeOf_error h
  · exact fun b e G' h => (checkBlock_complains j none b G).of_error h
  · exact fun f e G' h => (checkFunction_complains j f G).of_error h
  · exact fun i a e σ' h => ((eval_failsIn i a σ).of_error h).2
  · intro rounds i b e σ' h
    obtain ⟨site, hsite, hrest⟩ := (runBlock_failsAt i b σ).of_error h e rfl
    exact ⟨site, ⟨hsite, hsite.vars_subset⟩, hrest⟩
  · intro f rounds arguments e σ' h
    rcases (call_fails f rounds arguments σ).of_error h e rfl with he | ⟨site, hsite, hrest⟩
    · exact .inl he
    · exact .inr ⟨site, ⟨hsite, hsite.vars_subset⟩, hrest⟩

open scoped Unicode16

/-- A variable that nothing binds, in a body inside an empty scope. -/
theorem unbound_belongs_to_run :
    let b : List Stmt := [.block [.expr (.var "x")]]
    let σ : Store := ⟨Scopes.empty.root.2, #[], #[]⟩
    let e : Error := .plain (.undefinedVariable "x")
    runBlock 1 ⟨0⟩ b σ = .error (.error e) (σ.child ⟨0⟩).2 ∧
      StopsAt (fun site => BlockReaches 1 site ⟨0⟩ b σ ∧ site.expr.vars ⊆ blockVars b) e (σ.child ⟨0⟩).2 := by
  intro b σ e
  have hrun : runBlock 1 ⟨0⟩ b σ = .error (.error e) (σ.child ⟨0⟩).2 := rfl
  exact ⟨hrun, (errors_belong_to_stage.2.2 σ).2.1 1 ⟨0⟩ b e _ hrun⟩

end ScriptEngine
