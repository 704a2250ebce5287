import Mathlib.Data.Option.Basic
import ScriptEngine.Scope

/-!
# Tables of scopes that mirror each other

Two tables of scopes can differ and still be the same for a program that uses some names only. A mirror says when
they are: which tables go together, which scopes mean the same names by the same things, and which scopes are
changed together. What a program does with a table keeps them together: it looks a name up, binds it anew where it
is bound, declares it, and opens a scope.
-/

namespace ScriptEngine

/-- A correspondence of tables that all uses of the names in `name` respect. -/
structure Mirror (V F : Type) where
  /-- The tables go together. -/
  holds : Scopes V F → Scopes V F → Prop
  /-- A name means the same in both scopes. -/
  scope : ScopeId → ScopeId → Prop
  /-- A name is bound in both scopes at once. -/
  frame : ScopeId → ScopeId → Prop
  name : String → Prop
  find? {s t : Scopes V F} {i j : ScopeId} {x : String} :
    holds s t → scope i j → name x → t.find? j x = s.find? i x
  owner? {s t : Scopes V F} {i j : ScopeId} {x : String} :
    holds s t → scope i j → name x → Option.Rel frame (s.owner? i x) (t.owner? j x)
  define {s t : Scopes V F} {i j : ScopeId} {x : String} (v : V) :
    holds s t → frame i j → name x → holds (s.define i x v) (t.define j x v)
  child {s t : Scopes V F} {i j : ScopeId} :
    holds s t → scope i j → holds (s.child i).2 (t.child j).2
  child_scope {s t : Scopes V F} {i j : ScopeId} :
    holds s t → scope i j → scope (s.child i).1 (t.child j).1
  child_frame {s t : Scopes V F} {i j : ScopeId} :
    holds s t → scope i j → frame (s.child i).1 (t.child j).1

theorem Mirror.defineAll {V F : Type} (M : Mirror V F) {i j : ScopeId} (hij : M.frame i j)
    {bindings : List (String × V)} (hb : ∀ b ∈ bindings, M.name b.1) {s t : Scopes V F} (h : M.holds s t) :
    M.holds (s.defineAll i bindings) (t.defineAll j bindings) := by
  unfold Scopes.defineAll
  induction bindings generalizing s t with
  | nil => exact h
  | cons b bs ih =>
      obtain ⟨hx, hbs⟩ := List.forall_mem_cons.mp hb
      exact ih hbs (M.define b.2 h hij hx)

end ScriptEngine
