import ScriptEngine.Value

/-!
# Operators

What operators do with values. Numbers and truth values compute and are compared as numbers, strings and lists are
joined and repeated as sequences, and all else is a fault.
-/

namespace ScriptEngine

/-!
## Arithmetic on values

Integers and truth values compute as integers, exactly or not at all; as soon as one operand is a
float, both compute as floats. Division always computes as floats.
-/

/-- The 64-bit integer equal to `n`, or an overflow. -/
def exactly (n : Int) : Except Fault Int64 :=
  match Number.word? n with
  | some w => .ok w
  | none => .error .overflow

namespace Arithmetic

/-- The remainder of a division that rounds toward zero. It overflows when the quotient does. -/
def intRem (a b : Int64) : Except Fault Int64 :=
  if b = 0 then .error .divisionByZero
  else if Number.fits (a.toInt.tdiv b.toInt) then exactly (a.toInt.tmod b.toInt)
  else .error .overflow

def floatDiv (x y : Float) : Except Fault Float :=
  if y == 0.0 then .error .divisionByZero else .ok (x / y)

def floatRem (x y : Float) : Except Fault Float :=
  if y == 0.0 then .error .divisionByZero else .ok (Number.remainder x y)

/-- `a · 2 ^ b`. -/
def shiftLeft (a b : Int64) : Except Fault Int64 :=
  if b < 0 then .error .negativeShift
  else
    match Number.shiftLeft? a b.toInt.toNat with
    | some w => .ok w
    | none => .error .overflow

/-- The floor of `a / 2 ^ b`. -/
def shiftRight (a b : Int64) : Except Fault Int64 :=
  if b < 0 then .error .negativeShift else .ok (Number.shiftRight a b.toInt.toNat)

def onFloats (op : BinaryOp) (f : Float → Float → Except Fault Float) (v w : Value) :
    Except Fault Value :=
  match v.asFloat?, w.asFloat? with
  | some x, some y => (f x y).map Value.float
  | _, _ => .error (.badBinary op v.kind w.kind)

def onInts (op : BinaryOp) (f : Int64 → Int64 → Except Fault Int64) (v w : Value) :
    Except Fault Value :=
  match v.asInt?, w.asInt? with
  | some a, some b => (f a b).map Value.int
  | _, _ => .error (.badBinary op v.kind w.kind)

/-- An operation on integers, or on floats when one operand is a float. -/
def onNumbers (op : BinaryOp) (f : Int64 → Int64 → Except Fault Int64)
    (g : Float → Float → Except Fault Float) (v w : Value) : Except Fault Value :=
  match v.asInt?, w.asInt? with
  | some a, some b => (f a b).map Value.int
  | _, _ => onFloats op g v w

def add : Value → Value → Except Fault Value :=
  onNumbers .add (fun a b => exactly (a.toInt + b.toInt)) (fun x y => .ok (x + y))

def sub : Value → Value → Except Fault Value :=
  onNumbers .sub (fun a b => exactly (a.toInt - b.toInt)) (fun x y => .ok (x - y))

def mul : Value → Value → Except Fault Value :=
  onNumbers .mul (fun a b => exactly (a.toInt * b.toInt)) (fun x y => .ok (x * y))

/-- The quotient of numbers, as floats. -/
def div : Value → Value → Except Fault Value := onFloats .div floatDiv

def rem : Value → Value → Except Fault Value := onNumbers .mod intRem floatRem

def neg : Value → Except Fault Value
  | .float x => .ok (.float (-x))
  | v =>
    match v.asInt? with
    | some a => (exactly (-a.toInt)).map Value.int
    | none => .error (.badUnary .minus v.kind)

/-- A number as it is; a truth value becomes an integer. -/
def pos : Value → Except Fault Value
  | .float x => .ok (.float x)
  | v =>
    match v.asInt? with
    | some a => .ok (.int a)
    | none => .error (.badUnary .plus v.kind)

/-- All bits of an integer inverted. -/
def invert (v : Value) : Except Fault Value :=
  match v.asInt? with
  | some a => .ok (.int (~~~a))
  | none => .error (.badUnary .invert v.kind)

end Arithmetic

/-!
## The order of values

Strings are ordered by their characters, numbers by size. A float that is no number is neither
smaller nor larger than any number, nor equal to it. Nothing else has an order.
-/

/-- How two comparable values stand to each other. -/
inductive Comparison where
  | less | equal | greater | unordered
deriving DecidableEq, Repr

namespace Comparison

/-- Strings in the order of their code points. -/
def ofStrings (a b : String) : Comparison :=
  if a < b then .less else if a = b then .equal else .greater

def ofInts (a b : Int64) : Comparison :=
  if a < b then .less else if a = b then .equal else .greater

def ofFloats (x y : Float) : Comparison :=
  if x < y then .less else if x == y then .equal else if y < x then .greater else .unordered

/-- How two values stand to each other, if they can be compared. -/
def ofValues? : Value → Value → Option Comparison
  | .str a, .str b => some (ofStrings a b)
  | v, w =>
    match v.asInt?, w.asInt? with
    | some a, some b => some (ofInts a b)
    | _, _ =>
      match v.asFloat?, w.asFloat? with
      | some x, some y => some (ofFloats x y)
      | _, _ => none

def isLt (c : Comparison) : Bool := c == .less

def isGt (c : Comparison) : Bool := c == .greater

def isLe (c : Comparison) : Bool := c == .less || c == .equal

def isGe (c : Comparison) : Bool := c == .greater || c == .equal

end Comparison

/-- A question about the order of two values. -/
def relate (op : BinaryOp) (test : Comparison → Bool) (v w : Value) : Except Fault Value :=
  match Comparison.ofValues? v w with
  | some c => .ok (.bool (test c))
  | none => .error (.badBinary op v.kind w.kind)

/-!
## Sequences

Strings are sequences of characters and lists sequences of values. A negative index counts from the
end. A repetition must not ask for more than `2 ^ 63 - 1` bytes, of which a character takes those of
its encoding and a list element twenty-four.
-/

namespace Sequence

/-- The most bytes that a sequence may take. -/
def byteLimit : Nat := 0x7FFFFFFFFFFFFFFF

/-- The bytes that a list element takes. -/
def itemBytes : Nat := 24

/-- The place in a sequence of length `n` that the integer `i` names. -/
def place (i : Int64) (n : Nat) : Except Fault Nat :=
  let p := if i.toInt < 0 then Int.ofNat n + i.toInt else i.toInt
  if 0 ≤ p ∧ p < Int.ofNat n then .ok p.toNat else .error (.outOfRange i)

/-- The place in a sequence of length `n` that an index names. Only integers are indices. -/
def resolve (index : Value) (n : Nat) : Except Fault Nat :=
  match index with
  | .int i => place i n
  | v => .error (.badIndex v.kind)

def charAt (s : String) (index : Value) : Except Fault Value :=
  let cs := s.toList
  match resolve index cs.length with
  | .error f => .error f
  | .ok i => .ok (.str (String.ofList (cs.drop i |>.take 1)))

/-- How often a sequence is repeated: a negative count repeats it not at all. -/
def times (count : Int64) : Nat := count.toInt.toNat

/-- `n` copies of a list, one after the other. -/
def copies {α : Type} (n : Nat) (xs : List α) : List α :=
  if xs.isEmpty then [] else (List.replicate n xs).flatten

/-- Whether `n` copies of `length` things of `size` bytes are too much. Lengths and sizes are words of 64
bits, so each product on the way has to be one. -/
def exceeds (length n size : Nat) : Bool :=
  match Number.unsigned? 64 (length * n) with
  | none => true
  | some total =>
    match Number.unsigned? 64 (total * size) with
    | none => true
    | some bytes => byteLimit < bytes

def repeatString (s : String) (count : Int64) : Except Fault String :=
  if exceeds s.utf8ByteSize (times count) 1 then .error .tooLong
  else .ok (String.ofList (copies (times count) s.toList))

def repeatItems (items : Array Value) (count : Int64) : Except Fault (Array Value) :=
  if exceeds items.size (times count) itemBytes then .error .tooLong
  else .ok (copies (times count) items.toList).toArray

end Sequence

end ScriptEngine
