import Mathlib.Data.List.Induction
import ScriptEngine.Syntax.Expr

/-!
# Folding by priority

In the expression that a chain of operands and operators stands for, the root is the leftmost operator
of the lowest priority. The chains on its two sides are folded in the same way. The spine that is built
from left to right gives this expression and no other.
-/

namespace ScriptEngine

/-- The chain of `first` and of the operators and operands after it stands for the expression `e`. -/
inductive Folds : (first : Expr) → (chain : List (BinaryOp × Expr)) → (e : Expr) → Prop where
  | single (e : Expr) : Folds e [] e
  | split {first x l r : Expr} {left right : List (BinaryOp × Expr)} {op : BinaryOp} :
      Folds first left l → Folds x right r →
      (∀ n ∈ left, op.priority < n.1.priority) → (∀ n ∈ right, ¬n.1.priority < op.priority) →
      Folds first (left ++ (op, x) :: right) (.binary op l r)

namespace Folds

/-- Where a chain is split does not depend on the derivation. -/
theorem left_eq {left left' right right' : List (BinaryOp × Expr)} {op op' : BinaryOp} {x x' : Expr}
    (h : left ++ (op, x) :: right = left' ++ (op', x') :: right')
    (hleft' : ∀ n ∈ left', op'.priority < n.1.priority)
    (hright : ∀ n ∈ right, ¬n.1.priority < op.priority)
    (hleft : ∀ n ∈ left, op.priority < n.1.priority)
    (hright' : ∀ n ∈ right', ¬n.1.priority < op'.priority) : left = left' := by
  obtain ⟨mid, hl, hr⟩ | ⟨mid, hl, hr⟩ := List.append_eq_append_iff.mp h
  · cases mid with
    | nil => simp [hl]
    | cons n mid =>
        -- The first split point lies left of the second, which is then on its right.
        simp only [List.cons_append, List.cons.injEq] at hr
        obtain ⟨rfl, rfl⟩ := hr
        exact absurd (hleft' (op, x) (by simp [hl])) (hright (op', x') (by simp))
  · cases mid with
    | nil => simp [hl]
    | cons n mid =>
        simp only [List.cons_append, List.cons.injEq] at hr
        obtain ⟨rfl, rfl⟩ := hr
        exact absurd (hleft (op', x') (by simp [hl])) (hright' (op, x) (by simp))

theorem unique {first e e' : Expr} {chain : List (BinaryOp × Expr)} (h : Folds first chain e)
    (h' : Folds first chain e') : e = e' := by
  induction h generalizing e' with
  | single e =>
      generalize hc : ([] : List (BinaryOp × Expr)) = chain at h'
      cases h' with
      | single => rfl
      | split => simp at hc
  | @split first x l r left right op _ _ hleft hright ihl ihr =>
      generalize hc : left ++ (op, x) :: right = chain at h'
      cases h' with
      | single => simp at hc
      | split hl hr hleft' hright' =>
          cases left_eq hc hleft' hright hleft hright'
          simp only [List.append_cancel_left_eq, List.cons.injEq, Prod.mk.injEq] at hc
          obtain ⟨⟨rfl, rfl⟩, rfl⟩ := hc
          rw [ihl hl, ihr hr]

end Folds

namespace Spine

/-- The nodes and the last operand are the spine of the expression that a chain stands for. -/
inductive Represents :
    (first : Expr) → (chain : List (BinaryOp × Expr)) → List (Expr × BinaryOp) → Expr → Prop where
  | last (e : Expr) : Represents e [] [] e
  | node {first x l last : Expr} {left right : List (BinaryOp × Expr)} {op : BinaryOp}
      {nodes : List (Expr × BinaryOp)} :
      Folds first left l → Represents x right nodes last →
      (∀ n ∈ left, op.priority < n.1.priority) → (∀ n ∈ right, ¬n.1.priority < op.priority) →
      Represents first (left ++ (op, x) :: right) ((l, op) :: nodes) last

variable {first last : Expr} {chain : List (BinaryOp × Expr)} {nodes : List (Expr × BinaryOp)}

theorem Represents.folds (h : Represents first chain nodes last) :
    Folds first chain (collapse nodes last) := by
  induction h with
  | last e => exact .single e
  | node hl _ hleft hright ih => exact .split hl ih hleft hright

theorem Represents.push (h : Represents first chain nodes last) (op : BinaryOp) (e : Expr) :
    Represents first (chain ++ [(op, e)]) (Spine.push ⟨nodes, last⟩ (op, e)).nodes e := by
  induction h with
  | last x => exact .node (.single x) (.last e) (by simp) (by simp)
  | @node first x l last left right op₁ nodes hl hr hleft hright ih =>
      by_cases hstays : op.priority < op₁.priority
      · -- The new operator binds less tightly than all others, so it is the root.
        have hbelow : ∀ n ∈ left ++ (op₁, x) :: right, op.priority < n.1.priority := by
          intro n hn
          rw [List.mem_append, List.mem_cons] at hn
          rcases hn with hn | rfl | hn
          · exact Nat.lt_trans hstays (hleft n hn)
          · exact hstays
          · exact Nat.lt_of_lt_of_le hstays (Nat.le_of_not_lt (hright n hn))
        have hfolds := (Represents.node hl hr hleft hright).folds
        simpa [Spine.push, staysAbove, hstays] using
          Represents.node hfolds (.last e) hbelow (by simp)
      · have habove : ∀ n ∈ right ++ [(op, e)], ¬n.1.priority < op₁.priority := by
          intro n hn
          rw [List.mem_append, List.mem_singleton] at hn
          rcases hn with hn | rfl
          · exact hright n hn
          · exact hstays
        simpa [Spine.push, staysAbove, hstays] using Represents.node hl ih hleft habove

theorem represents_ofChain (first : Expr) (chain : List (BinaryOp × Expr)) :
    Represents first chain (ofChain first chain).nodes (ofChain first chain).last := by
  induction chain using List.reverseRecOn with
  | nil => exact .last first
  | append_singleton chain next ih =>
      obtain ⟨op, e⟩ := next
      have hpush : ofChain first (chain ++ [(op, e)]) = Spine.push (ofChain first chain) (op, e) := by
        simp [ofChain]
      rw [hpush]
      exact ih.push op e

/-- The spine of a chain gives the expression that the chain stands for. -/
theorem toExpr_ofChain_eq_iff {e : Expr} :
    (ofChain first chain).toExpr = e ↔ Folds first chain e := by
  have hfolds : Folds first chain (ofChain first chain).toExpr := (represents_ofChain first chain).folds
  constructor
  · rintro rfl
    exact hfolds
  · intro h
    exact hfolds.unique h

-- `a - b * c - d` is `a - ((b * c) - d)`.
example :
    (ofChain (.var "a") [(.sub, .var "b"), (.mul, .var "c"), (.sub, .var "d")]).toExpr =
      .binary .sub (.var "a") (.binary .sub (.binary .mul (.var "b") (.var "c")) (.var "d")) := rfl

end Spine

end ScriptEngine
