import ScriptEngine.Execution
import ScriptEngine.Proofs.Execution.Effect
import ScriptEngine.Proofs.Typing.Effect

/-!
# What runs, calls and checks change

A run of statements binds the names that the statements themselves declare, and gives other values to the
variables that it sees. A call runs its body in a new scope, so it binds no name in a scope that was there.
A check binds the names that the run would, and changes nothing else. All of this holds wherever they stop.
-/

namespace ScriptEngine

open Scopes

theorem Bounded.defineAll {i : ScopeId} {xs : List String} {bs : List (String × Value)}
    (hbs : bs.map Prod.fst ⊆ xs) : Bounded i xs (modify (·.mapScopes (·.defineAll i bs))) := by
  intro s hi
  rw [Ends.modify_iff]
  refine .mapScopes ((Scopes.Alters.defineAll hi).mono ?_ ?_)
  · rintro k _ _ ⟨rfl, _⟩
    exact List.mem_cons_self
  · rintro k _ _ ⟨rfl, hx⟩
    exact ⟨rfl, hbs hx⟩

/-- A call alters the values that its body sees of the scopes from before, and binds no name in them. -/
theorem call_bounded (f : Function) (rounds : Nat) (arguments : List Value) :
    Bounded f.scope [] (f.call rounds arguments) := by
  let bs := (f.parameters.map Prod.fst).zip arguments
  unfold Function.call
  split
  · exact fun s _ => .refl _ _ s
  -- the parameters and what the body declares are names of the new scope
  refine .within (bs.map Prod.fst ++ declared f.body) fun j => ?_
  refine .bind (.defineAll (List.subset_append_left _ _)) fun _ => ?_
  refine .bind ((runBlock_bounded f.body).mono (List.subset_append_right _ _)) fun signal => ?_
  split
  · exact .pure _
  · exact .pure _

/-- Wherever it stops, a run in a scope keeps the frames that it does not see, the functions and places of
all others, and the length of every list. It changes values in the frames around its own and binds in its
own only what the statements themselves declare. A call does so in the scope that the function captured and
binds nothing. A check changes its own frame alone, at the names that the statements declare. -/
theorem changes_stay_in_scope :
    (∀ (rounds : Nat) (i : ScopeId) (b : List Stmt) (σ : Store), σ.scopes.Has i →
      Ends (runBlock rounds i b) σ (fun _ σ' => σ.AltersIn i (declared b) σ')
        (fun _ σ' => σ.AltersIn i (declared b) σ')) ∧
    (∀ (f : Function) (rounds : Nat) (arguments : List Value) (σ : Store), σ.scopes.Has f.scope →
      Ends (f.call rounds arguments) σ (fun _ σ' => σ.AltersIn f.scope [] σ')
        (fun _ σ' => σ.AltersIn f.scope [] σ')) ∧
    ∀ (j : ScopeId) (sofar : Option Ty) (b : List Stmt) (G : TypeScopes), G.Has j →
      Ends (checkBlock j sofar b) G (fun _ G' => AltersAt j (declared b) G G')
        (fun _ G' => AltersAt j (declared b) G G') := by
  refine ⟨fun rounds i b σ hi => ?_, fun f rounds arguments σ hf => ?_, fun j sofar b G hj => ?_⟩
  · exact runBlock_bounded b σ hi
  · exact call_bounded f rounds arguments σ hf
  · exact checkBlock_binds sofar hj b

/-- Two scopes, of which the outer one binds `n`. -/
def twoScopes {V F : Type} (v : V) : Scopes V F := ((Scopes.empty.root.2.define ⟨0⟩ "n" v).child ⟨0⟩).2

/-- A declaration in a body, where an assignment fails in the end:
`let m: int; { let k: int; n = k; m = z; }`. -/
def hiddenLet : List Stmt :=
  [.declare [⟨"m", .int, none⟩],
    .block [.declare [⟨"k", .int, none⟩], .assign (.var "n") (.var "k"), .assign (.var "m") (.var "z")]]

/-- In the inner scope the program binds no `k`, and a call of it no `p`. Its check leaves the type of `n`. -/
theorem hiddenLet_stays_in_scope :
    (∀ rounds, Ends (runBlock rounds ⟨1⟩ hiddenLet) ⟨twoScopes (.int 1), #[], #[]⟩
      (fun _ σ' => σ'.scopes.binds ⟨1⟩ "k" = false) (fun _ σ' => σ'.scopes.binds ⟨1⟩ "k" = false)) ∧
    (∀ rounds arguments, Ends (Function.call ⟨[("p", .int)], .int, hiddenLet, ⟨1⟩⟩ rounds arguments)
      ⟨twoScopes (.int 1), #[], #[]⟩
      (fun _ σ' => σ'.scopes.binds ⟨1⟩ "p" = false) (fun _ σ' => σ'.scopes.binds ⟨1⟩ "p" = false)) ∧
    Ends (checkBlock ⟨1⟩ none hiddenLet) (twoScopes .int)
      (fun _ G' => G'.local? ⟨0⟩ "n" = some .int) (fun _ G' => G'.local? ⟨0⟩ "n" = some .int) := by
  obtain ⟨hrun, hcall, hcheck⟩ := changes_stay_in_scope
  have hin : ∀ {V F : Type} (v : V), (twoScopes v : Scopes V F).Has ⟨1⟩ := fun v => has_child.mpr (.inr rfl)
  have hout : ∀ {V F : Type} (v : V), (twoScopes v : Scopes V F).Has ⟨0⟩ := fun v =>
    has_child.mpr (.inl (has_define.mpr (Nat.lt_add_one 0)))
  refine ⟨fun rounds => ?_, fun rounds arguments => ?_, ?_⟩
  · have hk : ∀ σ', Store.AltersIn ⟨1⟩ (declared hiddenLet) ⟨twoScopes (.int 1), #[], #[]⟩ σ' →
        σ'.scopes.binds ⟨1⟩ "k" = false := fun _ h =>
      (h.scopes.names ⟨1⟩ "k" (hin _) (by decide)).trans rfl
    exact (hrun rounds ⟨1⟩ hiddenLet _ (hin _)).mono (fun _ => hk) (fun _ => hk)
  · have hp : ∀ σ', Store.AltersIn ⟨1⟩ [] ⟨twoScopes (.int 1), #[], #[]⟩ σ' →
        σ'.scopes.binds ⟨1⟩ "p" = false := fun _ h =>
      (h.scopes.names ⟨1⟩ "p" (hin _) (by decide)).trans rfl
    exact (hcall _ rounds arguments _ (hin _)).mono (fun _ => hp) (fun _ => hp)
  · have hn : ∀ G' : TypeScopes, AltersAt ⟨1⟩ (declared hiddenLet) (twoScopes .int) G' →
        G'.local? ⟨0⟩ "n" = some .int := by
      intro G' h
      rw [h.vars ⟨0⟩ "n" (hout _) (by decide)]
      rfl
    exact (hcheck ⟨1⟩ none hiddenLet _ (hin _)).mono (fun _ => hn) (fun _ => hn)

end ScriptEngine
