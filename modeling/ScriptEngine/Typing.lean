import ScriptEngine.Value

/-!
# Typing

A program is checked before it runs: every expression has to have a type, and all returns of a body the same one.
-/

/-!
## Types of expressions

The type of an expression depends on its parts from left to right. Comparisons for equality and the
logical operators take operands of any types; the other operators take numbers, of which a single
float makes the result a float, and some take strings and lists.
-/

namespace ScriptEngine

/-- Scopes that bind variables to their types and functions to their signatures. -/
abbrev TypeScopes := Scopes Ty Ty

namespace Typing

def literal : Literal → Ty
  | .int _ => .int
  | .float _ => .float
  | .bool _ => .bool
  | .str _ => .str
  | .null => .null

def unary (op : UnaryOp) (t : Ty) : Except Cause Ty :=
  if op = .not then .ok .bool
  else if t = .int ∨ t = .bool then .ok .int
  else if t = .float then .ok .float
  else .error (.unsupportedUnary op.text t)

/-- The operators that any two operands can stand around. -/
def takesAny : BinaryOp → Bool
  | .eq | .ne | .and | .or => true
  | _ => false

def numeric (op : BinaryOp) (t u : Ty) : Ty :=
  if op.isRelational then .bool else if t = .float ∨ u = .float then .float else .int

/-- The type of a binary operator between two operands. -/
def binary (op : BinaryOp) (t u : Ty) : Except Cause Ty :=
  if takesAny op then .ok .bool
  else if t.isNumeric && u.isNumeric then .ok (numeric op t u)
  else if op = .add ∧ t.isSubscriptable ∧ u.isSubscriptable then .ok t
  else if op = .mul ∧ t = .int ∧ u.isSubscriptable then .ok u
  else if op = .mul ∧ t.isSubscriptable ∧ u = .int then .ok t
  else .error (.unsupportedBinary op.text t u)

/-- The type of an element. A list whose element type is not given has elements of the absent
value's type. -/
def index (base index : Ty) : Except Cause Ty :=
  if index ≠ .int then .error (.invalidIndex index)
  else if base = .str then .ok .str
  else if base.isSubscriptable then .ok (base.element?.getD .null)
  else .error (.notSubscriptable base)

/-- A result, or an error for its cause. -/
def orError {α : Type} : Except Cause α → Except Error α
  | .ok a => .ok a
  | .error c => .error (.plain c)

end Typing

/-- The type of an expression in a scope. -/
def typeOf (scopes : TypeScopes) (scope : ScopeId) : Expr → Except Error Ty
  | .constant l => .ok (Typing.literal l)
  | .var x => scopes.find scope x
  | .unary op e => do
    let t ← typeOf scopes scope e
    Typing.orError (Typing.unary op t)
  | .binary op l r => do
    let t ← typeOf scopes scope l
    let u ← typeOf scopes scope r
    Typing.orError (Typing.binary op t u)
  | .index b i => do
    let t ← typeOf scopes scope b
    let u ← typeOf scopes scope i
    Typing.orError (Typing.index t u)

/-!
## Checking statements

Checking follows the scopes of a program and collects the types of its returns, reachable or not,
which have to be one. A declaration binds a name to its declared type; what the name starts from is
not looked at.
-/

/-- Steps of a check. -/
abbrev Check := EStateM Error TypeScopes

namespace Check

def expr (scope : ScopeId) (e : Expr) : Check Ty := fun s =>
  match typeOf s scope e with
  | .ok t => .ok t s
  | .error err => .error err s

def enter (i : ScopeId) : Check ScopeId := fun s =>
  let (j, s') := s.child i
  .ok j s'

def refuse {α : Type} (cause : Cause) : Check α := throw (.plain cause)

/-- The type of all returns so far together with that of one more part. -/
def merge (sofar found : Option Ty) : Check (Option Ty) :=
  match sofar, found with
  | none, found => return found
  | some t, none => return some t
  | some t, some u => if t = u then return some t else refuse (.conflictingReturn t u)

/-- Binds the declared names to their types, in order. -/
def declare (scope : ScopeId) (ds : List Decl) : Check Unit :=
  modify fun s => s.defineAll scope (ds.map fun d => (d.name, d.type))

/-- An assignment needs a place and a value of one type. -/
def assign (scope : ScopeId) (target value : Expr) : Check Unit := do
  if target.isPlace then
    let t ← expr scope target
    let u ← expr scope value
    if t ≠ u then refuse (.assignMismatch t u)
  else refuse .notAPlace

end Check

mutual

/-- Checks one statement; the result is the type of its returns, if it has any. -/
def checkStmt (scope : ScopeId) : Stmt → Check (Option Ty)
  | .block body => do checkBlock (← Check.enter scope) none body
  | .noop => return none
  | .break => return none
  | .continue => return none
  | .expr e => do
    let _ ← Check.expr scope e
    return none
  | .branch branches => checkBranches scope none branches
  | .loop condition body => do
    let _ ← Check.expr scope condition
    checkBlock (← Check.enter scope) none body
  | .declare ds => do
    Check.declare scope ds
    return none
  | .assign target e => do
    Check.assign scope target e
    return none
  | .ret (some e) => do return some (← Check.expr scope e)
  | .ret none => return some .null

def checkBranches (scope : ScopeId) (sofar : Option Ty) : Branches → Check (Option Ty)
  | .arm condition body rest => do
    let _ ← Check.expr scope condition
    let found ← checkBlock (← Check.enter scope) none body
    checkBranches scope (← Check.merge sofar found) rest
  | .otherwise body => do
    let found ← checkBlock (← Check.enter scope) none body
    Check.merge sofar found

def checkBlock (scope : ScopeId) (sofar : Option Ty) : List Stmt → Check (Option Ty)
  | [] => return sofar
  | s :: rest => do
    let found ← checkStmt scope s
    checkBlock scope (← Check.merge sofar found) rest

end

/-- Checks a program in a scope; the result is the type of its returns, if it has any. -/
def check (scope : ScopeId) (program : List Stmt) : Check (Option Ty) :=
  checkBlock scope none program

/-- Checks the body of a function, in a scope of its own that binds the parameters, against what the
function is declared to return. A body without a return is accepted. -/
def checkFunction (scope : ScopeId) (f : Function) : Check Unit := do
  let inner ← Check.enter scope
  modify fun s => s.defineAll inner f.parameters
  match ← checkBlock inner none f.body with
  | some t => if t ≠ f.returns then Check.refuse (.returnMismatch f.returns t)
  | none => return ()

end ScriptEngine
