import ScriptEngine.Proofs.Evaluation.Effect
import ScriptEngine.Syntax.Stmt

/-!
# Values that conform to types

Lists are shared and can be changed, so what a list holds is no matter of the value that names it: each
list of the store is assigned the type of its elements once and for all, and a value conforms to a list
type when its list is assigned the right one. The assignment grows as lists are made.
-/

namespace ScriptEngine

/-- The element type of each list of a store. -/
abbrev ElementTypes := List Ty

/-- A value conforms to a type. Types without a meaning of their own ask for nothing. -/
def Conforms (E : ElementTypes) (v : Value) : Ty → Prop
  | .basic "int" => ∃ n, v = .int n
  | .basic "float" => ∃ x, v = .float x
  | .basic "bool" => ∃ b, v = .bool b
  | .basic "str" => ∃ s, v = .str s
  | .basic "None" => v = .null
  | .template "list" ts => ∃ l, v = .list l ∧ E[l.index]? = some (ts.head?.getD .null)
  | .template "function" _ => ∃ f, v = .function f
  | _ => True

/-- Each list of the store has elements that conform to its element type. -/
structure Store.Typed (E : ElementTypes) (σ : Store) : Prop where
  size : E.length = σ.lists.size
  items : ∀ {l : ListId} {t : Ty}, E[l.index]? = some t → ∀ v ∈ σ.items l, Conforms E v t

variable {E E' : ElementTypes} {v w : Value} {t u : Ty} {σ σ' : Store}

/-! ## Shapes of values -/

theorem Conforms.mono (hE : E <+: E') (h : Conforms E v t) : Conforms E' v t := by
  unfold Conforms at h ⊢
  split
  · exact h
  · exact h
  · exact h
  · exact h
  · exact h
  · obtain ⟨l, rfl, hl⟩ := h
    obtain ⟨E₁, rfl⟩ := hE
    obtain ⟨hlt, _⟩ := List.getElem?_eq_some_iff.mp hl
    exact ⟨l, rfl, by rw [List.getElem?_append_left hlt, hl]⟩
  · exact h
  · trivial

theorem numeric_cases (h : t.isNumeric = true) : t = .int ∨ t = .float ∨ t = .bool := by
  simpa [Ty.isNumeric, or_assoc] using h

theorem subscriptable_cases (h : t.isSubscriptable = true) : t = .str ∨ ∃ ts, t = .template "list" ts := by
  cases t with
  | basic n => exact .inl (by rw [Ty.str, show n = "str" by simpa [Ty.isSubscriptable] using h])
  | template n ts => exact .inr ⟨ts, by rw [show n = "list" by simpa [Ty.isSubscriptable] using h]⟩

/-- The types of whole numbers compute as whole numbers. -/
theorem Conforms.asInt? (ht : t = .int ∨ t = .bool) (h : Conforms E v t) : ∃ a, v.asInt? = some a := by
  rcases ht with rfl | rfl
  · obtain ⟨n, rfl⟩ := h; exact ⟨n, rfl⟩
  · obtain ⟨b, rfl⟩ := h; exact ⟨_, rfl⟩

theorem Conforms.asInt?_float (h : Conforms E v .float) : v.asInt? = none := by
  obtain ⟨x, rfl⟩ := h
  rfl

theorem Conforms.asFloat? (ht : t.isNumeric = true) (h : Conforms E v t) : ∃ x, v.asFloat? = some x := by
  rcases numeric_cases ht with rfl | rfl | rfl
  · obtain ⟨n, rfl⟩ := h; exact ⟨_, rfl⟩
  · obtain ⟨x, rfl⟩ := h; exact ⟨x, rfl⟩
  · obtain ⟨b, rfl⟩ := h; exact ⟨_, rfl⟩

/-! ## Stores -/

theorem Store.Typed.congr (hl : σ'.lists = σ.lists) (h : σ.Typed E) : σ'.Typed E where
  size := by rw [h.size, hl]
  items hE v hv := h.items hE v (by rw [Store.items, hl] at hv; exact hv)

theorem Store.Typed.newList (h : σ.Typed E) {items : Array Value} (hi : ∀ v ∈ items, Conforms E v t) :
    (σ.newList items).2.Typed (E ++ [t]) := by
  have hsub : E <+: E ++ [t] := List.prefix_append _ _
  refine ⟨by simp [Store.newList, h.size], fun {l u} hl v hv => ?_⟩
  by_cases hlt : l.index < E.length
  · rw [List.getElem?_append_left hlt] at hl
    refine (h.items hl v ?_).mono hsub
    have hne : l.index ≠ σ.lists.size := by rw [← h.size]; omega
    simpa [Store.newList, Store.items, Array.getElem?_push, hne] using hv
  · have hli : l.index = E.length := by
      have := (List.getElem?_eq_some_iff.mp hl).1
      simp at this
      omega
    have hut : u = t := by simpa [hli] using hl.symm
    subst hut
    refine (hi v ?_).mono hsub
    simpa [Store.newList, Store.items, hli, h.size] using hv

theorem Store.Typed.newList_conforms (h : σ.Typed E) (items : Array Value) {ts : List Ty} :
    Conforms (E ++ [ts.head?.getD .null]) (σ.newList items).1 (.template "list" ts) :=
  ⟨⟨σ.lists.size⟩, rfl, by simp [h.size]⟩

theorem Store.Typed.setItem (h : σ.Typed E) {l : ListId} {p : Nat} (hl : E[l.index]? = some t)
    (hv : Conforms E v t) : (σ.setItem l p v).Typed E := by
  refine ⟨by simp [Store.setItem, h.size], fun {m u} hm y hy => ?_⟩
  simp only [Store.items, Store.setItem, Array.getElem?_modify] at hy
  by_cases hlm : l.index = m.index
  · rw [hlm, hm] at hl
    cases hl
    rw [if_pos hlm] at hy
    cases hs : σ.lists[m.index]? with
    | none => simp [hs] at hy
    | some items =>
        simp only [hs, Option.map_some, Option.getD_some] at hy
        rcases Array.mem_or_eq_of_mem_setIfInBounds hy with hy | rfl
        · exact h.items hm y (by simpa [Store.items, hs] using hy)
        · exact hv
  · rw [if_neg hlm] at hy
    exact h.items hm y hy

end ScriptEngine
