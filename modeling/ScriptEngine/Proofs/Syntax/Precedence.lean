import Mathlib.Data.List.TakeWhile
import ScriptEngine.Proofs.Syntax.Folding

/-!
# Trees by priority

The tree of a chain can be said without regard to the order of reading: the leftmost operator of the lowest
priority is its root, and the chains on both sides of it are the two subtrees. The operands are its leaves,
and none of them is looked into. The spine that is built from left to right is the right edge of this tree, so
its priorities never go down on the way from the root.
-/

namespace ScriptEngine

/-- Operators over operands. An operand is a leaf, also if it is itself an expression with operators. -/
inductive OpTree where
  | leaf (operand : Expr)
  | node (op : BinaryOp) (left right : OpTree)

namespace OpTree

def toExpr : OpTree → Expr
  | .leaf e => e
  | .node op l r => .binary op l.toExpr r.toExpr

/-- The operands from left to right. -/
def operands : OpTree → List Expr
  | .leaf e => [e]
  | .node _ l r => l.operands ++ r.operands

/-- The operators from left to right. -/
def operators : OpTree → List BinaryOp
  | .leaf _ => []
  | .node op l r => l.operators ++ op :: r.operators

/-- A chain cut at one of its operators. -/
structure Cut where
  before : List (BinaryOp × Expr)
  root : BinaryOp × Expr
  after : List (BinaryOp × Expr)

/-- The chain of `link` and the links after it, cut at the leftmost operator of the lowest priority. -/
def cut (link : BinaryOp × Expr) : List (BinaryOp × Expr) → Cut
  | [] => ⟨[], link, []⟩
  | next :: rest =>
    let c := cut next rest
    if c.root.1.priority < link.1.priority then { c with before := link :: c.before }
    else ⟨[], link, next :: rest⟩

theorem cut_eq (link : BinaryOp × Expr) (rest : List (BinaryOp × Expr)) :
    (cut link rest).before ++ (cut link rest).root :: (cut link rest).after = link :: rest := by
  induction rest generalizing link with
  | nil => rfl
  | cons next rest ih =>
      simp only [cut]
      split
      · simp [ih next]
      · rfl

theorem length_cut (link : BinaryOp × Expr) (rest : List (BinaryOp × Expr)) :
    (cut link rest).before.length + (cut link rest).after.length = rest.length := by
  have h := congrArg List.length (cut_eq link rest)
  simp only [List.length_append, List.length_cons] at h
  omega

/-- The tree of a first operand and the operators and operands after it. -/
def ofChain (first : Expr) : List (BinaryOp × Expr) → OpTree
  | [] => .leaf first
  | link :: rest =>
    .node (cut link rest).root.1 (ofChain first (cut link rest).before)
      (ofChain (cut link rest).root.2 (cut link rest).after)
termination_by chain => chain.length
decreasing_by
  all_goals
    have := length_cut link rest
    simp only [List.length_cons]
    omega

/-! ## The root -/

theorem before_cut_lower (link : BinaryOp × Expr) (rest : List (BinaryOp × Expr)) :
    ∀ n ∈ (cut link rest).before, (cut link rest).root.1.priority < n.1.priority := by
  induction rest generalizing link with
  | nil => simp [cut]
  | cons next rest ih =>
      intro n hn
      simp only [cut] at hn ⊢
      split at hn
      · rename_i hlower
        rw [if_pos hlower]
        rcases List.mem_cons.mp hn with rfl | hn
        · exact hlower
        · exact ih next n hn
      · simp at hn

theorem after_cut_not_lower (link : BinaryOp × Expr) (rest : List (BinaryOp × Expr)) :
    ∀ n ∈ (cut link rest).after, ¬n.1.priority < (cut link rest).root.1.priority := by
  induction rest generalizing link with
  | nil => simp [cut]
  | cons next rest ih =>
      intro n hn
      simp only [cut] at hn ⊢
      split at hn
      · rename_i hlower
        rw [if_pos hlower]
        exact ih next n hn
      · rename_i hlower
        rw [if_neg hlower]
        -- `n` binds no looser than the lowest operator of the rest, and that no looser than `link`
        have hlow : ¬n.1.priority < (cut next rest).root.1.priority := by
          rw [← cut_eq next rest, List.mem_append, List.mem_cons] at hn
          rcases hn with hn | rfl | hn
          · exact Nat.lt_asymm (before_cut_lower next rest n hn)
          · exact Nat.lt_irrefl _
          · exact ih next n hn
        exact fun h => hlower (Nat.lt_of_le_of_lt (Nat.le_of_not_lt hlow) h)

theorem folds_ofChain (first : Expr) (chain : List (BinaryOp × Expr)) :
    Folds first chain (ofChain first chain).toExpr := by
  fun_induction ofChain first chain with
  | case1 first => exact .single first
  | case2 first link rest ihl ihr =>
      have h : Folds first ((cut link rest).before ++ (cut link rest).root :: (cut link rest).after) _ :=
        .split ihl ihr (before_cut_lower link rest) (after_cut_not_lower link rest)
      rw [cut_eq] at h
      exact h

/-! ## The leaves -/

theorem operands_ofChain (first : Expr) (chain : List (BinaryOp × Expr)) :
    (ofChain first chain).operands = first :: chain.map Prod.snd := by
  fun_induction ofChain first chain with
  | case1 first => rfl
  | case2 first link rest ihl ihr =>
      have h := congrArg (List.map Prod.snd) (cut_eq link rest)
      rw [List.map_append, List.map_cons] at h
      rw [operands, ihl, ihr, List.cons_append, h]

theorem operators_ofChain (first : Expr) (chain : List (BinaryOp × Expr)) :
    (ofChain first chain).operators = chain.map Prod.fst := by
  fun_induction ofChain first chain with
  | case1 first => rfl
  | case2 first link rest ihl ihr =>
      have h := congrArg (List.map Prod.fst) (cut_eq link rest)
      rw [List.map_append, List.map_cons] at h
      rw [operators, ihl, ihr, h]

end OpTree

namespace Spine

theorem toExpr_ofChain (first : Expr) (chain : List (BinaryOp × Expr)) :
    (ofChain first chain).toExpr = (OpTree.ofChain first chain).toExpr :=
  toExpr_ofChain_eq_iff.mpr (OpTree.folds_ofChain first chain)

/-- From the root on, no operator of the spine binds looser than one before it. -/
def Sorted (s : Spine) : Prop := s.nodes.Pairwise fun a b => ¬b.2.priority < a.2.priority

theorem Sorted.push {s : Spine} (h : s.Sorted) (link : BinaryOp × Expr) : (s.push link).Sorted := by
  unfold Sorted Spine.push at *
  rw [List.pairwise_append]
  refine ⟨h.sublist (List.takeWhile_sublist _), List.pairwise_singleton _ _, fun a ha b hb => ?_⟩
  have hstays := List.mem_takeWhile_imp ha
  rw [List.mem_singleton.mp hb]
  simpa [staysAbove] using hstays

end Spine

end ScriptEngine
