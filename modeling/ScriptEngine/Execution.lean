import ScriptEngine.Evaluation.Expr

/-!
# Execution

Statements are run one after the other, in the scope of the body that they stand in, until one of them sends a signal.
-/

/-!
## Signals

A statement either lets the next one run or sends a signal. A loop takes the signals to leave it or to
go on with it; the signal to return goes up to whoever started the program.
-/

namespace ScriptEngine

/-- How a statement ends that does not let the next one run. -/
inductive Signal where
  | ret (v : Value)
  | break
  | continue
deriving Repr

/-- Why a run stops early. Running out of rounds is no error of the program. -/
inductive Abort where
  | error (e : Error)
  | exhausted
deriving DecidableEq, Repr

/-- Steps of a run. -/
abbrev Exec := EStateM Abort Store

namespace Exec

def ofEval {α : Type} (x : EStateM Error Store α) : Exec α := fun s =>
  match x s with
  | .ok a s' => .ok a s'
  | .error e s' => .error (.error e) s'

def enter (i : ScopeId) : Exec ScopeId := fun s =>
  let (j, s') := s.child i
  .ok j s'

/-- Binds a variable in the frame of the scope `i`. -/
def define (i : ScopeId) (x : String) (v : Value) : Exec Unit :=
  modify (·.mapScopes (·.define i x v))

end Exec

/-!
## Running statements

A body runs in a scope of its own, one for each time it runs. Only loops can go on for ever, so a run
is given the number of rounds that each loop may take.
-/

/-- Gives a variable a new value where it is bound. -/
def writeVar (scope : ScopeId) (x : String) (v : Value) : EStateM Error Store Unit := do
  match (← get).scopes.owner? scope x with
  | some owner => modify (·.mapScopes (·.define owner x v))
  | none => throw (.plain (.undefinedVariable x))

/-- Writes to the place that an expression names. -/
def assign (scope : ScopeId) (target : Expr) (v : Value) : EStateM Error Store Unit := do
  match target with
  | .var x => writeVar scope x v
  | .index b i =>
    let base ← eval scope b
    let index ← eval scope i
    match base with
    | .list l =>
      let place ← orFault (Sequence.resolve index ((← get).items l).size)
      modify (·.setItem l place v)
    | w => orFault (.error (.noItemAssignment w.kind))
  | _ => orFault (.error .notAssignable)

/-- The value of an expression, or the absent value if there is none. -/
def evalOptional (scope : ScopeId) : Option Expr → EStateM Error Store Value
  | some e => eval scope e
  | none => return .null

def test (scope : ScopeId) (e : Expr) : Exec Bool := do
  let v ← Exec.ofEval (eval scope e)
  return (← get).isTruthy v

def declare (scope : ScopeId) : List Decl → Exec Unit
  | [] => return ()
  | d :: ds => do
    let v ← Exec.ofEval (evalOptional scope d.value)
    Exec.define scope d.name v
    declare scope ds

/-- Runs a body as long as a condition holds, at most `rounds` times. -/
def repeatWhile (condition : Exec Bool) (body : Exec (Option Signal)) :
    (rounds : Nat) → Exec (Option Signal)
  | 0 => throw .exhausted
  | rounds + 1 => do
    if ← condition then
      match ← body with
      | some .break => return none
      | some (.ret v) => return some (.ret v)
      | _ => repeatWhile condition body rounds
    else return none

mutual

def runStmt (rounds : Nat) (scope : ScopeId) : Stmt → Exec (Option Signal)
  | .block body => do runBlock rounds (← Exec.enter scope) body
  | .noop => return none
  | .expr e => do
    let _ ← Exec.ofEval (eval scope e)
    return none
  | .branch branches => runBranches rounds scope branches
  | .loop condition body =>
    repeatWhile (test scope condition) (do runBlock rounds (← Exec.enter scope) body) rounds
  | .declare ds => do
    declare scope ds
    return none
  | .assign target e => do
    let v ← Exec.ofEval (eval scope e)
    Exec.ofEval (assign scope target v)
    return none
  | .ret e => do return some (.ret (← Exec.ofEval (evalOptional scope e)))
  | .break => return some .break
  | .continue => return some .continue

/-- Runs the first arm whose condition holds. -/
def runBranches (rounds : Nat) (scope : ScopeId) : Branches → Exec (Option Signal)
  | .arm condition body rest => do
    if ← test scope condition then runBlock rounds (← Exec.enter scope) body
    else runBranches rounds scope rest
  | .otherwise body => do runBlock rounds (← Exec.enter scope) body

/-- Runs statements in order, up to the first signal. -/
def runBlock (rounds : Nat) (scope : ScopeId) : List Stmt → Exec (Option Signal)
  | [] => return none
  | s :: rest => do
    match ← runStmt rounds scope s with
    | some signal => return some signal
    | none => runBlock rounds scope rest

end

/-- The rounds that a loop may take when nothing else is asked for. -/
def roundLimit : Nat := 0x4000000000000000

/-- Runs a program in a scope. A signal that no loop takes is handed to the caller. -/
def run (scope : ScopeId) (program : List Stmt) : Exec (Option Signal) :=
  runBlock roundLimit scope program

/-!
## Calling functions

A function is built by the host of a program from a body, a signature and the scope that the body
sees. Each call runs in a new scope inside that one, in which the parameters are bound. A body that
does not return yields the absent value, also when a signal for a loop leaves it.
-/

def Function.call (f : Function) (rounds : Nat) (arguments : List Value) : Exec Value := do
  if arguments.length ≠ f.parameters.length then
    throw (.error (.ofFault (.arity f.parameters.length arguments.length)))
  let scope ← Exec.enter f.scope
  modify (·.mapScopes (·.defineAll scope ((f.parameters.map Prod.fst).zip arguments)))
  match ← runBlock rounds scope f.body with
  | some (.ret v) => return v
  | _ => return .null

/-- The names in order between brackets, quoted. -/
def Function.nameList (f : Function) : String :=
  "[" ++ ", ".intercalate (f.parameters.map fun p => Text.quote p.1) ++ "]"

/-- A function described by the names of its parameters and the shape of its signature. -/
def Function.describe (f : Function) : String :=
  "Function \x7b param_names: " ++ f.nameList ++ ", signature: " ++ f.signature.shape ++ ", .. \x7d"

end ScriptEngine
