import ScriptEngine.Scope

/-!
# Values and the store

Lists are shared: a list value is the identity of a list in the store, and every copy of the value
means the same elements. Functions are shared in the same way. All that a running program can change
is in the store: the scopes and the lists.
-/

namespace ScriptEngine

/-- The identity of a list. -/
structure ListId where
  index : Nat
deriving DecidableEq, Repr

/-- The identity of a function. -/
structure FunctionId where
  index : Nat
deriving DecidableEq, Repr

/-- Values of a running program. -/
inductive Value where
  | null
  | int (n : Int64)
  | float (x : Float)
  | bool (b : Bool)
  | str (s : String)
  | list (l : ListId)
  | function (f : FunctionId)
deriving Repr

/-- A function: what it takes and returns, its body, and the scope that the body sees. -/
structure Function where
  parameters : List (String × Ty)
  returns : Ty
  body : List Stmt
  scope : ScopeId

/-- All that a running program can see and change. -/
structure Store where
  scopes : Scopes Value FunctionId
  lists : Array (Array Value)
  functions : Array Function

namespace Value

/-- The kind of a value. -/
def kind : Value → ValueKind
  | .null => .null
  | .int _ => .int
  | .float _ => .float
  | .bool _ => .bool
  | .str _ => .str
  | .list _ => .list
  | .function _ => .function

def ofLiteral : Literal → Value
  | .int n => .int n
  | .float x => .float x
  | .bool b => .bool b
  | .str s => .str s
  | .null => .null

/-- Integers and truth values as integers. -/
def asInt? : Value → Option Int64
  | .int n => some n
  | .bool b => some (if b then 1 else 0)
  | _ => none

/-- Numbers and truth values as floats. -/
def asFloat? : Value → Option Float
  | .float x => some x
  | v => v.asInt?.map Int64.toFloat

end Value

/-- The type of a function: what it returns, then what it takes. -/
def Function.signature (f : Function) : Ty := .function f.returns (f.parameters.map Prod.snd)

namespace Store

def empty : Store := ⟨.empty, #[], #[]⟩

def items (s : Store) (l : ListId) : Array Value := (s.lists[l.index]?).getD #[]

def newList : Store → Array Value → Value × Store
  | ⟨scopes, lists, functions⟩, items => (.list ⟨lists.size⟩, ⟨scopes, lists.push items, functions⟩)

/-- Changes one element of a list. -/
def setItem : Store → ListId → Nat → Value → Store
  | ⟨scopes, lists, functions⟩, l, i, v =>
    ⟨scopes, lists.modify l.index (·.setIfInBounds i v), functions⟩

def function? (s : Store) (f : FunctionId) : Option Function := s.functions[f.index]?

def newFunction (s : Store) (f : Function) : FunctionId × Store :=
  (⟨s.functions.size⟩, { s with functions := s.functions.push f })

/-- Changes the scopes only. -/
def mapScopes (f : Scopes Value FunctionId → Scopes Value FunctionId) : Store → Store
  | ⟨scopes, lists, functions⟩ => ⟨f scopes, lists, functions⟩

def child : Store → ScopeId → ScopeId × Store
  | ⟨scopes, lists, functions⟩, i =>
    let (j, scopes) := scopes.child i
    (j, ⟨scopes, lists, functions⟩)

/-- Whether a value counts as true: the absent value, zero, the empty string and the empty list do
not. -/
def isTruthy (s : Store) : Value → Bool
  | .null => false
  | .int n => n != 0
  | .float x => x != 0.0
  | .bool b => b
  | .str t => !t.isEmpty
  | .list l => !(s.items l).isEmpty
  | .function _ => true

/-- The value that a declared type stands for by itself: zero, an empty sequence, or nothing. -/
def default (s : Store) (t : Ty) : Value × Store :=
  if t = .int then (.int 0, s)
  else if t = .float then (.float 0.0, s)
  else if t = .bool then (.bool false, s)
  else if t = .str then (.str "", s)
  else if t.isSubscriptable then s.newList #[]
  else (.null, s)

end Store

/-!
## Equality of values

Numbers and truth values are equal when they are the same number, lists when their elements are, and
functions when they are the same function. A list equals itself whatever it holds. Lists of different
lengths differ at once; otherwise elements are compared from the front up to the first difference, so
what stands behind a difference does not matter, not even a list that holds itself. Between two different
lists that hold themselves there may be no difference to find: such a comparison has no end and overflows
the stack of the program.
-/

namespace Store

/-- Equality of values in which lists are nested at most `depth` deep. Lists that reach deeper count as
different, unless they are the same. -/
def equalWithin (s : Store) : Nat → Value → Value → Bool
  | _, .null, .null => true
  | _, .str a, .str b => a == b
  | _, .function f, .function g => f == g
  | 0, .list l, .list m => l == m
  | depth + 1, .list l, .list m =>
    l == m ||
      ((s.items l).size == (s.items m).size &&
        (s.items l).toList.isEqv (s.items m).toList (s.equalWithin depth))
  | _, .float x, v => v.asFloat?.any (x == ·)
  | _, v, .float y => v.asFloat?.any (· == y)
  | _, v, w =>
    match v.asInt?, w.asInt? with
    | some a, some b => a == b
    | _, _ => false

/-- Equality of values. A comparison that ends meets no pair of lists twice on its way down, so it is
not deeper than there are pairs. One that goes deeper has no end, and what this answers then stands for no
run of the program. -/
def equal (s : Store) (v w : Value) : Bool := s.equalWithin (s.lists.size * s.lists.size) v w

end Store

/-!
## Values as trees

Unfolding a value replaces the identity of each list by its elements and that of each function by its
signature. A list that is reached again inside itself is not unfolded twice: it becomes a reference to
the list around it. The text of a value is the text of its tree.
-/

/-- A value with its lists unfolded. -/
inductive Tree where
  | null
  | int (n : Int64)
  | float (x : Float)
  | bool (b : Bool)
  | str (s : String)
  | list (items : List Tree)
  | function (signature : Ty)
  /-- A list around this place; zero is the nearest. -/
  | cycle (distance : Nat)
deriving Repr

/-- The tree of a value inside the lists `path`, nearest first. Each level enters a list that is not on
the path, so `depth` levels suffice when it is the number of lists. -/
def Store.unfoldWithin (s : Store) : (depth : Nat) → (path : List ListId) → Value → Tree
  | _, _, .null => .null
  | _, _, .int n => .int n
  | _, _, .float x => .float x
  | _, _, .bool b => .bool b
  | _, _, .str t => .str t
  | _, _, .function f =>
    match s.function? f with
    | some g => .function g.signature
    | none => .null
  | 0, path, .list l => .cycle (path.idxOf l)
  | depth + 1, path, .list l =>
    if path.contains l then .cycle (path.idxOf l)
    else .list ((s.items l).toList.map (s.unfoldWithin depth (l :: path)))

/-- The tree of a value. -/
def Store.unfold (s : Store) (v : Value) : Tree := s.unfoldWithin (s.lists.size + 1) [] v

namespace Tree

mutual

/-- The text of a tree. A tree with a cycle has none. -/
def text? : Tree → Option String
  | .null => some "None"
  | .int n => some (toString n.toInt)
  | .float x => some (Number.floatText x)
  | .bool b => some (boolText b)
  | .str s => some s
  | .list items => (itemTexts? items).map fun texts => "[" ++ ", ".intercalate texts ++ "]"
  | .function t => some ("<" ++ t.text ++ ">")
  | .cycle _ => none

/-- The texts of the elements of a list, in which strings are quoted. -/
def itemTexts? : List Tree → Option (List String)
  | [] => some []
  | .str s :: rest => (itemTexts? rest).map (Text.quote s :: ·)
  | t :: rest =>
    match text? t, itemTexts? rest with
    | some x, some xs => some (x :: xs)
    | _, _ => none

end

end Tree

/-- The text of a value. A list that holds itself has none. -/
def Store.text? (s : Store) (v : Value) : Option String := (s.unfold v).text?

end ScriptEngine
