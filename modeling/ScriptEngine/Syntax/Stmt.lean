import ScriptEngine.Syntax.Expr

/-!
# Statements

A program is a list of statements, and so is the body of every construct. A declaration names the type of what it
declares.
-/

/-!
## Types

A type is a plain name or a name applied to an ordered list of types. Two types are equal when their
shapes are: a plain name never equals an application of it, also not to no arguments. Seven names have
a meaning of their own.
-/

namespace ScriptEngine

/-- A plain type name, or a name applied to types. -/
inductive Ty where
  | basic (name : String)
  | template (name : String) (arguments : List Ty)
deriving Repr

namespace Ty

/-! ### Equality -/

mutual

/-- Equality of types is decided shape by shape. -/
def decEq : (t u : Ty) → Decidable (t = u)
  | .basic m, .basic n =>
    if h : m = n then isTrue (by rw [h]) else isFalse (fun e => h (by injection e))
  | .template m ts, .template n us =>
    if h : m = n then
      match decEqList ts us with
      | isTrue e => isTrue (by rw [h, e])
      | isFalse ne => isFalse (fun e => ne (by injection e))
    else isFalse (fun e => h (by injection e))
  | .basic _, .template _ _ => isFalse (fun e => by cases e)
  | .template _ _, .basic _ => isFalse (fun e => by cases e)

/-- Equality of lists of types is decided type by type. -/
def decEqList : (ts us : List Ty) → Decidable (ts = us)
  | [], [] => isTrue rfl
  | t :: ts, u :: us =>
    match decEq t u, decEqList ts us with
    | isTrue h, isTrue e => isTrue (by rw [h, e])
    | isFalse h, _ => isFalse (fun e => h (by injection e))
    | _, isFalse h => isFalse (fun e => h (by injection e))
  | [], _ :: _ => isFalse (fun e => by cases e)
  | _ :: _, [] => isFalse (fun e => by cases e)

end

instance : DecidableEq Ty := decEq

/-! ### The types with a meaning of their own -/

/-- Whole numbers of 64 bits. -/
def int : Ty := .basic "int"

def float : Ty := .basic "float"

def bool : Ty := .basic "bool"

def str : Ty := .basic "str"

/-- The type of the absent value. -/
def null : Ty := .basic "None"

/-- Lists with elements of one type. -/
def list (element : Ty) : Ty := .template "list" [element]

/-- The signature of a function: what it returns, then what it takes. -/
def function (returns : Ty) (parameters : List Ty) : Ty :=
  .template "function" (returns :: parameters)

/-- The outermost name. -/
def name : Ty → String
  | .basic n => n
  | .template n _ => n

/-- The types that plain arithmetic accepts. -/
def isNumeric (t : Ty) : Bool := t == int || t == float || t == bool

/-- Strings and lists can be indexed and concatenated. -/
def isSubscriptable : Ty → Bool
  | .basic n => n == "str"
  | .template n _ => n == "list"

/-- The type of a list's elements, if it is given. -/
def element? : Ty → Option Ty
  | .basic _ => none
  | .template n arguments => if n == "list" then arguments.head? else none

/-! ### Text -/

mutual

/-- The text of a type: `pair<int, str>`. -/
def text : Ty → String
  | .basic n => n
  | .template n arguments => n ++ "<" ++ textList arguments ++ ">"

def textList : List Ty → String
  | [] => ""
  | [t] => text t
  | t :: u :: rest => text t ++ ", " ++ textList (u :: rest)

end

mutual

/-- A type as its constructors, with names quoted. -/
def shape : Ty → String
  | .basic n => "Basic(" ++ Text.quote n ++ ")"
  | .template n arguments => "Template(" ++ Text.quote n ++ ", [" ++ shapeList arguments ++ "])"

def shapeList : List Ty → String
  | [] => ""
  | [t] => shape t
  | t :: u :: rest => shape t ++ ", " ++ shapeList (u :: rest)

end

end Ty

/-! ## Trees -/

/-- One name of a `let`: its declared type and, if given, the expression it starts from. -/
structure Decl where
  name : String
  type : Ty
  value : Option Expr
deriving Repr

mutual

/-- Statements. -/
inductive Stmt where
  | block (body : List Stmt)
  | noop
  | expr (e : Expr)
  | branch (branches : Branches)
  | loop (condition : Expr) (body : List Stmt)
  | declare (decls : List Decl)
  | assign (target value : Expr)
  | ret (value : Option Expr)
  | break
  | continue

/-- The arms of an `if`, tried in turn, and the body taken when no arm is. A missing `else` is an
empty body. -/
inductive Branches where
  | arm (condition : Expr) (body : List Stmt) (rest : Branches)
  | otherwise (body : List Stmt)

end

end ScriptEngine
