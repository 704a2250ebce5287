import ScriptEngine.Token.Basic

/-!
# Expressions

An expression is built from constants and names by operators and indices. Prefix operators stand before one operand,
binary operators between two. Each binary operator has a priority, and of two neighbours the one of higher priority
takes the operand between them.
-/

namespace ScriptEngine

/-! ## Operators -/

/-- Operators before one operand. -/
inductive UnaryOp where
  | plus | minus | not | invert
deriving DecidableEq, Repr

/-- Operators between two operands. -/
inductive BinaryOp where
  | mul | div | mod | add | sub | shl | shr
  | eq | ne | gt | lt | ge | le
  | bitAnd | bitOr | bitXor | and | or
deriving DecidableEq, Repr

/-- How tightly an operator binds, loosest first. -/
inductive Priority where
  | default | logicalOr | logicalAnd | bitXor | bitOr | bitAnd | relational | equality | shift
  | additive | multiplicative | unary | index
deriving DecidableEq, Repr

namespace Priority

/-- The place of a priority among all, from the loosest. -/
def rank : Priority → Nat
  | default => 0 | logicalOr => 1 | logicalAnd => 2 | bitXor => 3 | bitOr => 4 | bitAnd => 5
  | relational => 6 | equality => 7 | shift => 8 | additive => 9 | multiplicative => 10
  | unary => 11 | index => 12

instance : LT Priority := ⟨fun p q => p.rank < q.rank⟩

instance (p q : Priority) : Decidable (p < q) := inferInstanceAs (Decidable (p.rank < q.rank))

end Priority

namespace UnaryOp

def symbol : UnaryOp → Symbol
  | plus => .plus | minus => .minus | not => .bang | invert => .tilde

def text (op : UnaryOp) : String := op.symbol.text

def ofSymbol? : Symbol → Option UnaryOp
  | .plus => some plus | .minus => some minus | .bang => some not | .tilde => some invert
  | _ => none

theorem ofSymbol?_eq_some_iff {s : Symbol} {op : UnaryOp} :
    ofSymbol? s = some op ↔ s = op.symbol := by
  cases s <;> cases op <;> decide

end UnaryOp

namespace BinaryOp

def symbol : BinaryOp → Symbol
  | mul => .star | div => .slash | mod => .percent | add => .plus | sub => .minus
  | shl => .shiftLeft | shr => .shiftRight
  | eq => .equal | ne => .notEqual | gt => .greater | lt => .less | ge => .greaterEqual
  | le => .lessEqual | bitAnd => .ampersand | bitOr => .pipe | bitXor => .caret
  | and => .andAnd | or => .orOr

def text (op : BinaryOp) : String := op.symbol.text

def ofSymbol? : Symbol → Option BinaryOp
  | .star => some mul | .slash => some div | .percent => some mod | .plus => some add
  | .minus => some sub | .shiftLeft => some shl | .shiftRight => some shr
  | .equal => some eq | .notEqual => some ne | .greater => some gt | .less => some lt
  | .greaterEqual => some ge | .lessEqual => some le | .ampersand => some bitAnd
  | .pipe => some bitOr | .caret => some bitXor | .andAnd => some and | .orOr => some or
  | _ => none

def priority : BinaryOp → Priority
  | or => .logicalOr | and => .logicalAnd
  | bitXor => .bitXor | bitOr => .bitOr | bitAnd => .bitAnd
  | lt | le | gt | ge => .relational
  | eq | ne => .equality
  | shl | shr => .shift
  | add | sub => .additive
  | mul | div | mod => .multiplicative

/-- The operators that ask for the order of their operands. -/
def isRelational : BinaryOp → Bool
  | gt | lt | ge | le => true
  | _ => false

theorem ofSymbol?_eq_some_iff {s : Symbol} {op : BinaryOp} :
    ofSymbol? s = some op ↔ s = op.symbol := by
  cases s <;> cases op <;> decide

end BinaryOp

/-! ## Trees -/

/-- Expressions. -/
inductive Expr where
  | constant (l : Literal)
  | var (name : String)
  | unary (op : UnaryOp) (operand : Expr)
  | binary (op : BinaryOp) (left right : Expr)
  | index (base index : Expr)
deriving Repr

/-- Whether an expression names a place that can be assigned to. -/
def Expr.isPlace : Expr → Bool
  | .var _ => true
  | .index _ _ => true
  | _ => false

/-!
## Folding operators

A chain of operands with operators between them is folded into one expression from left to right. The
expression so far is kept as its right spine: the left operands and operators met on the way from the
root to the rightmost operand. A new operator goes below every node that binds no tighter than it and
takes all that is left of the spine as its left operand. Hence of two operators with one priority the
right one nests in the left one.
-/

/-- An expression as its right spine, root first, and its rightmost operand. -/
structure Spine where
  nodes : List (Expr × BinaryOp)
  last : Expr

namespace Spine

/-- The expression of some nodes over a rightmost operand. -/
def collapse (nodes : List (Expr × BinaryOp)) (last : Expr) : Expr :=
  nodes.foldr (fun node right => .binary node.2 node.1 right) last

/-- A node stays above a new operator `op` unless it binds tighter. -/
def staysAbove (op : BinaryOp) (node : Expr × BinaryOp) : Bool :=
  !decide (op.priority < node.2.priority)

/-- The spine after one more operator and operand. -/
def push (s : Spine) (next : BinaryOp × Expr) : Spine :=
  let above := s.nodes.takeWhile (staysAbove next.1)
  let below := s.nodes.dropWhile (staysAbove next.1)
  ⟨above ++ [(collapse below s.last, next.1)], next.2⟩

def toExpr (s : Spine) : Expr := collapse s.nodes s.last

/-- The spine of a first operand and the operators and operands after it. -/
def ofChain (first : Expr) (chain : List (BinaryOp × Expr)) : Spine :=
  chain.foldl push ⟨[], first⟩

end Spine

end ScriptEngine
