import ScriptEngine.Proofs.Evaluation.Effect
import ScriptEngine.Syntax.Stmt

/-!
# The names in a program

The variables that occur in statements and the names that they declare, at any depth.
-/

namespace ScriptEngine

/-- The variables that occur in an expression, if there is one. -/
def optionVars (e : Option Expr) : List String := e.elim [] Expr.vars

mutual

/-- The variables that occur in a statement. -/
def Stmt.vars : Stmt → List String
  | .block body => blockVars body
  | .noop => []
  | .expr e => e.vars
  | .branch branches => branches.vars
  | .loop condition body => condition.vars ++ blockVars body
  | .declare ds => ds.flatMap fun d => optionVars d.value
  | .assign target e => target.vars ++ e.vars
  | .ret e => optionVars e
  | .break => []
  | .continue => []

def Branches.vars : Branches → List String
  | .arm condition body rest => condition.vars ++ (blockVars body ++ rest.vars)
  | .otherwise body => blockVars body

/-- The variables that occur in statements. -/
def blockVars : List Stmt → List String
  | [] => []
  | s :: rest => s.vars ++ blockVars rest

end

mutual

/-- The names that a statement declares. -/
def Stmt.binders : Stmt → List String
  | .block body => blockBinders body
  | .branch branches => branches.binders
  | .loop _ body => blockBinders body
  | .declare ds => ds.map Decl.name
  | _ => []

def Branches.binders : Branches → List String
  | .arm _ body rest => blockBinders body ++ rest.binders
  | .otherwise body => blockBinders body

/-- The names that statements declare. -/
def blockBinders : List Stmt → List String
  | [] => []
  | s :: rest => s.binders ++ blockBinders rest

end

end ScriptEngine
