import ScriptEngine.Evaluation.Operators

/-!
# Evaluating expressions

Operands are evaluated from left to right, and `&&` and `||` leave out the right one when the left one
decides. Evaluation changes nothing that was there before; the store only grows by the lists that `+`
and `*` make.
-/

namespace ScriptEngine

/-- A result, or an error for its fault. -/
def orFault {α : Type} (r : Except Fault α) : EStateM Error Store α := fun s =>
  match r with
  | .ok a => .ok a s
  | .error f => .error (.ofFault f) s

def makeList (items : Array Value) : EStateM Error Store Value := fun s =>
  let (v, s') := s.newList items
  .ok v s'

/-- A sequence repeated; nothing else can be, and only an integer is a count. -/
def repeat? : Value → Option Int64 → Option (EStateM Error Store Value)
  | .str t, some n => some do
    return .str (← orFault (Sequence.repeatString t n))
  | .list l, some n => some do
    makeList (← orFault (Sequence.repeatItems ((← get).items l) n))
  | _, _ => none

def evalUnary (op : UnaryOp) (v : Value) : EStateM Error Store Value := do
  match op with
  | .not => return .bool (!(← get).isTruthy v)
  | .plus => orFault (Arithmetic.pos v)
  | .minus => orFault (Arithmetic.neg v)
  | .invert => orFault (Arithmetic.invert v)

/-- The sum of two values: strings and lists are joined. -/
def evalAdd (v w : Value) : EStateM Error Store Value := do
  match v, w with
  | .str a, .str b => return .str (a ++ b)
  | .list l, .list m => makeList ((← get).items l ++ (← get).items m)
  | v, w => orFault (Arithmetic.add v w)

/-- The product of two values: a sequence and an integer, in either order, is a repetition. -/
def evalMul (v w : Value) : EStateM Error Store Value :=
  match repeat? v w.asInt? with
  | some r => r
  | none =>
    match repeat? w v.asInt? with
    | some r => r
    | none => orFault (Arithmetic.mul v w)

/-- A binary operator applied to a left value and a right operand, which is evaluated only if the left
value does not decide. -/
def evalBinary (op : BinaryOp) (v : Value) (right : EStateM Error Store Value) :
    EStateM Error Store Value := do
  match op with
  | .and =>
    if (← get).isTruthy v then
      let w ← right
      return .bool ((← get).isTruthy w)
    else return .bool false
  | .or =>
    if (← get).isTruthy v then return .bool true
    else
      let w ← right
      return .bool ((← get).isTruthy w)
  | .eq =>
    let w ← right
    return .bool ((← get).equal v w)
  | .ne =>
    let w ← right
    return .bool (!(← get).equal v w)
  | .gt => orFault (relate .gt Comparison.isGt v (← right))
  | .lt => orFault (relate .lt Comparison.isLt v (← right))
  | .ge => orFault (relate .ge Comparison.isGe v (← right))
  | .le => orFault (relate .le Comparison.isLe v (← right))
  | .add => evalAdd v (← right)
  | .mul => evalMul v (← right)
  | .sub => orFault (Arithmetic.sub v (← right))
  | .div => orFault (Arithmetic.div v (← right))
  | .mod => orFault (Arithmetic.rem v (← right))
  | .shl => orFault (Arithmetic.onInts .shl Arithmetic.shiftLeft v (← right))
  | .shr => orFault (Arithmetic.onInts .shr Arithmetic.shiftRight v (← right))
  | .bitAnd => orFault (Arithmetic.onInts .bitAnd (fun a b => .ok (a &&& b)) v (← right))
  | .bitOr => orFault (Arithmetic.onInts .bitOr (fun a b => .ok (a ||| b)) v (← right))
  | .bitXor => orFault (Arithmetic.onInts .bitXor (fun a b => .ok (a ^^^ b)) v (← right))

def evalIndex (base index : Value) : EStateM Error Store Value := do
  match base with
  | .list l =>
    let items := (← get).items l
    let i ← orFault (Sequence.resolve index items.size)
    return items[i]?.getD .null
  | .str t => orFault (Sequence.charAt t index)
  | v => orFault (.error (.notSubscriptable v.kind))

def readVar (scope : ScopeId) (x : String) : EStateM Error Store Value := fun s =>
  match s.scopes.find scope x with
  | .ok v => .ok v s
  | .error e => .error e s

def eval (scope : ScopeId) : Expr → EStateM Error Store Value
  | .constant l => return .ofLiteral l
  | .var x => readVar scope x
  | .unary op e => do evalUnary op (← eval scope e)
  | .binary op l r => do evalBinary op (← eval scope l) (eval scope r)
  | .index b i => do
    let v ← eval scope b
    let w ← eval scope i
    evalIndex v w

end ScriptEngine
