import ScriptEngine.Source
import ScriptEngine.Syntax.Stmt
import ScriptEngine.Text.Classes

/-!
# Errors

An error is a cause and, if it was found while reading the source, a position. What is said about an error depends on
its cause alone: its name, its kind, a message and, for most, a tip. An error with a position is shown in the line of
the source that it was found in.
-/

namespace ScriptEngine

/-! ## Kinds of values -/

/-- The kinds of values a running program has. -/
inductive ValueKind where
  | null | int | float | bool | str | list | function
deriving DecidableEq, Repr

/-- How a kind of value is named in messages. -/
def ValueKind.text : ValueKind → String
  | null => "None"
  | int => "int"
  | float => "float"
  | bool => "bool"
  | str => "str"
  | list => "list"
  | function => "function"

/-!
## Faults

What can go wrong while a program runs, names apart.
-/

/-- What went wrong while running. -/
inductive Fault where
  /-- An integer result outside 64 bits. -/
  | overflow
  | divisionByZero
  | negativeShift
  /-- A repetition that no memory could hold. -/
  | tooLong
  | badUnary (op : UnaryOp) (operand : ValueKind)
  | badBinary (op : BinaryOp) (left right : ValueKind)
  /-- An index that is no integer. -/
  | badIndex (index : ValueKind)
  | outOfRange (index : Int64)
  | notSubscriptable (base : ValueKind)
  /-- An assignment to an element of something that is no list. -/
  | noItemAssignment (base : ValueKind)
  /-- An assignment to an expression that names no place. -/
  | notAssignable
  | arity (expected given : Nat)
  /-- A failure that the host of a program reports in its own words. -/
  | host (message : String)
deriving DecidableEq, Repr

/-- A text between single quotes. -/
def singleQuoted (s : String) : String := "'" ++ s ++ "'"

/-- What is said about a fault. -/
def Fault.message : Fault → String
  | overflow => "integer overflow"
  | divisionByZero => "division by zero"
  | negativeShift => "negative shift count"
  | tooLong => "repeated sequence is too long"
  | badUnary op k => "bad operand type for unary " ++ op.text ++ ": " ++ singleQuoted k.text
  | badBinary op l r =>
    "unsupported operand type(s) for " ++ op.text ++ ": " ++ singleQuoted l.text ++ " and "
      ++ singleQuoted r.text
  | badIndex k => "indices must be int, not " ++ singleQuoted k.text
  | outOfRange i => "index " ++ toString i.toInt ++ " out of range"
  | notSubscriptable k => singleQuoted k.text ++ " is not subscriptable"
  | noItemAssignment k => singleQuoted k.text ++ " does not support item assignment"
  | notAssignable => "cannot assign to expression"
  | arity expected given =>
    "function takes " ++ toString expected ++ " argument(s) but " ++ toString given ++ " were given"
  | host message => message

/-! ## Causes and messages -/

/-- Why something was refused. -/
inductive Cause where
  | unrecognisedToken (token : String)
  | unexpectedToken (token : String) (expected : Option String)
  | badNumber (token : String)
  | unknownEscape (escape : String)
  | unterminatedString
  | unterminatedComment
  | undefinedVariable (name : String)
  | undefinedFunction (name : String)
  | conflictingReturn (first second : Ty)
  | notAPlace
  | assignMismatch (left right : Ty)
  | unsupportedBinary (operator : String) (left right : Ty)
  | unsupportedUnary (operator : String) (operand : Ty)
  | invalidIndex (index : Ty)
  | notSubscriptable (base : Ty)
  | returnMismatch (expected received : Ty)
  | fault (f : Fault)
deriving DecidableEq, Repr

/-- What a cause has to do with. -/
inductive ErrorKind where
  | syntactic | name | type | fault
deriving DecidableEq, Repr

/-- A cause and where it was found. -/
structure Error where
  cause : Cause
  position : Option Position
deriving DecidableEq, Repr

namespace Cause

/-- The kind of a cause. -/
def kind : Cause → ErrorKind
  | unrecognisedToken _ | unexpectedToken _ _ | badNumber _ | unknownEscape _
  | unterminatedString | unterminatedComment => .syntactic
  | undefinedVariable _ | undefinedFunction _ => .name
  | conflictingReturn _ _ | notAPlace | assignMismatch _ _ | unsupportedBinary _ _ _
  | unsupportedUnary _ _ | invalidIndex _ | notSubscriptable _ | returnMismatch _ _ => .type
  | fault _ => .fault

def name : Cause → String
  | unrecognisedToken _ => "UnrecognisedToken"
  | unexpectedToken _ _ => "UnexpectedToken"
  | badNumber _ => "NumberParseError"
  | unknownEscape _ => "UnknownEscape"
  | unterminatedString => "UnterminatedString"
  | unterminatedComment => "UnterminatedComment"
  | undefinedVariable _ => "VariableNotDeclared"
  | undefinedFunction _ => "FunctionNotDeclared"
  | conflictingReturn _ _ => "ConflictingReturnType"
  | notAPlace => "NotAnLValue"
  | assignMismatch _ _ => "AssignmentTypeMismatch"
  | unsupportedBinary _ _ _ => "UnsupportedBinary"
  | unsupportedUnary _ _ => "UnsupportedUnary"
  | invalidIndex _ => "InvalidIndexType"
  | notSubscriptable _ => "NotSubscriptable"
  | returnMismatch _ _ => "ReturnTypeMismatch"
  | fault _ => "RuntimeFault"

def message : Cause → String
  | unrecognisedToken t => "unrecognised character: " ++ Text.quote t
  | unexpectedToken t _ => "unexpected token: " ++ Text.quote t
  | badNumber t => "wrong number: " ++ Text.quote t
  | unknownEscape e => "unknown escape sequence: \\" ++ e
  | unterminatedString => "unterminated string literal"
  | unterminatedComment => "unterminated block comment"
  | undefinedVariable x => "undefined variable " ++ Text.quote x
  | undefinedFunction f => "undefined function " ++ Text.quote f
  | conflictingReturn t u =>
    "conflicting return type " ++ singleQuoted t.text ++ " and " ++ singleQuoted u.text
  | notAPlace => "left of the assignment is not a l-value"
  | assignMismatch t u =>
    "conflicting left type " ++ singleQuoted t.text ++ " and right type " ++ singleQuoted u.text
      ++ " when assigning"
  | unsupportedBinary op t u =>
    "unsupported binary operation " ++ singleQuoted op ++ " between type " ++ singleQuoted t.text
      ++ " and type " ++ singleQuoted u.text
  | unsupportedUnary op t =>
    "unsupported unary operation " ++ singleQuoted op ++ " on type " ++ singleQuoted t.text
  | invalidIndex t => "can't use type " ++ singleQuoted t.text ++ " as index"
  | notSubscriptable t => "type " ++ singleQuoted t.text ++ " is not subscriptable"
  | returnMismatch t u =>
    "function declared to return " ++ singleQuoted t.text ++ " returns " ++ singleQuoted u.text
  | fault f => "runtime fault: " ++ f.message

/-- A text between backticks. -/
def ticked (s : String) : String := "`" ++ s ++ "`"

/-- What might help to mend a cause. -/
def tip : Cause → Option String
  | unrecognisedToken _ => none
  | unexpectedToken t (some expected) =>
    some ("Unexpected token: " ++ ticked t ++ ", expected " ++ ticked expected)
  | unexpectedToken t none =>
    some ("Unexpected token: " ++ ticked t ++ ", did you miss a semicolon?")
  | badNumber t =>
    some ("Invalid number: " ++ ticked t
      ++ ", is it above the integer limit or does it have more than one dot?")
  | unknownEscape e =>
    some ("Unknown escape sequence " ++ ticked ("\\" ++ e) ++ ", use one of "
      ++ ticked "\\n \\t \\r \\a \\b \\f \\v \\\" \\' \\\\" ++ " or an octal code")
  | unterminatedString => some "String literal is missing its closing `\"`"
  | unterminatedComment => some "Block comment is missing its closing `*/`"
  | undefinedVariable x => some ("Variable " ++ ticked x ++ " not declared")
  | undefinedFunction f => some ("Function " ++ ticked f ++ " not declared")
  | conflictingReturn t u =>
    some ("Every return must produce the same type, found " ++ ticked t.text ++ " and "
      ++ ticked u.text)
  | notAPlace => some "Only variables and index expressions can be assigned to"
  | assignMismatch t u =>
    some ("Cannot assign a value of type " ++ ticked u.text ++ " to a target of type "
      ++ ticked t.text)
  | unsupportedBinary op t u =>
    some ("Operator " ++ ticked op ++ " is not defined between " ++ ticked t.text ++ " and "
      ++ ticked u.text)
  | unsupportedUnary op t =>
    some ("Operator " ++ ticked op ++ " is not defined on " ++ ticked t.text)
  | invalidIndex t => some ("Indices must be `int`, received " ++ ticked t.text)
  | notSubscriptable t =>
    some ("Only `str` and `list<T>` can be indexed, received " ++ ticked t.text)
  | returnMismatch t u =>
    some ("Expected return type " ++ ticked t.text ++ ", received " ++ ticked u.text)
  | fault _ => none

end Cause

namespace Error

/-- An error found at a position of the source. -/
def located (position : Position) (cause : Cause) : Error := ⟨cause, some position⟩

def plain (cause : Cause) : Error := ⟨cause, none⟩

def ofFault (f : Fault) : Error := plain (.fault f)

def message (e : Error) : String :=
  match e.position with
  | some p => e.cause.message ++ " at " ++ p.text
  | none => e.cause.message

end Error

/-!
## Errors drawn into the source

A rendered error is a headline and, below it, either the message or the line of the source with a
caret under the column. The line is shown without the spaces and tabs before it, and the caret moves
left with it. A caret too far to the right is not drawn at all: the widths of formatted text are words
of 16 bits, and any other stops the program.
-/

namespace Error

/-- `Error:`, the name of the cause, and the tip in brackets. -/
def headline (e : Error) : List Char :=
  let tip :=
    match e.cause.tip with
    | some t => " (" ++ t ++ ")"
    | none => ""
  ("Error: " ++ e.cause.name ++ tip ++ "\n").toList

/-- A text with so many of the character `fill` before it that it ends at column `width`. -/
def padded? (fill : Char) (text : List Char) (width : Nat) : Option (List Char) :=
  if width < UInt16.size then some (List.replicate (width - text.length) fill ++ text) else none

/-- The spaces and tabs before a line. -/
def isIndent (c : Char) : Bool := c == ' ' || c == '\t'

/-- A line of the source between two bars, with a caret under the column of `p`. -/
def excerpt? (source : List Char) (p : Position) : Option (List Char) := do
  let line := (Source.line? source p.line).getD []
  let shown := line.dropWhile isIndent
  let removed := line.length - shown.length
  let number := (toString p.line).toList
  let margin ← padded? ' ' ['|'] (number.length + 2)
  let arrow ← padded? '-' ['^'] (max 1 (p.column.toNat - removed))
  return margin ++ ['\n'] ++ number ++ [' ', '|', ' '] ++ Text.trimEnd shown ++ ['\n'] ++ margin ++ [' ']
    ++ arrow ++ ['\n']

/-- The error as it is shown to the author of `source`, if it can be. -/
def render? (source : String) (e : Error) : Option String :=
  match e.position with
  | none => some (String.ofList e.headline ++ "  " ++ e.message ++ "\n")
  | some p => (excerpt? source.toList p).map fun drawing => String.ofList (e.headline ++ drawing)

end Error

end ScriptEngine
