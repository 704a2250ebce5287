import ScriptEngine.Error

/-!
# Scopes

A scope is a frame of variables and functions with the scopes around it. Scopes are shared: many
scopes can lie in one, and whoever holds the identity of a scope sees all changes to it. So all frames
are kept in one table, and a scope is a place in the table. A frame knows the whole chain of scopes
around it, nearest first; a name means what the first frame of the chain that binds it says.
-/

namespace ScriptEngine

/-!
## Bindings

A finite map from names to what they are bound to. Each name is bound at most once: binding it again
replaces what it was bound to.
-/

/-- A finite map from names. -/
structure Bindings (α : Type) where
  entries : List (String × α)

namespace Bindings

variable {α : Type}

/-- No names are bound. -/
def empty : Bindings α := ⟨[]⟩

/-- What the first entry for `x` is bound to. -/
def lookup (x : String) : List (String × α) → Option α
  | [] => none
  | (y, a) :: rest => if y = x then some a else lookup x rest

/-- The entries with `x` bound to `a`, in place if it was bound before. -/
def update (x : String) (a : α) : List (String × α) → List (String × α)
  | [] => [(x, a)]
  | (y, b) :: rest => if y = x then (x, a) :: rest else (y, b) :: update x a rest

def get? (b : Bindings α) (x : String) : Option α := lookup x b.entries

def insert (b : Bindings α) (x : String) (a : α) : Bindings α := ⟨update x a b.entries⟩

@[simp] theorem get?_empty (x : String) : (empty : Bindings α).get? x = none := rfl

theorem lookup_update (x y : String) (a : α) (entries : List (String × α)) :
    lookup y (update x a entries) = if y = x then some a else lookup y entries := by
  induction entries with
  | nil => simp [update, lookup, eq_comm]
  | cons entry rest ih =>
    obtain ⟨z, b⟩ := entry
    unfold update
    split
    · rename_i h
      subst h
      simp only [lookup]
      by_cases hy : y = z
      · simp [hy]
      · simp [hy, Ne.symm hy]
    · rename_i h
      simp only [lookup, ih]
      by_cases hy : z = y
      · subst hy
        simp [h]
      · simp [hy]

/-- Binding a name changes what that name is bound to and nothing else. -/
@[simp] theorem get?_insert (b : Bindings α) (x y : String) (a : α) :
    (b.insert x a).get? y = if y = x then some a else b.get? y :=
  lookup_update x y a b.entries

end Bindings

/-! ## Frames -/

/-- The identity of a scope. -/
structure ScopeId where
  index : Nat
deriving DecidableEq, Repr

/-- The bindings of one scope, and the scopes around it, nearest first. -/
structure Frame (V F : Type) where
  vars : Bindings V
  functions : Bindings F
  outer : List ScopeId

/-- All frames, by identity. -/
structure Scopes (V F : Type) where
  frames : Array (Frame V F)

namespace Scopes

variable {V F : Type}

/-- No scopes. -/
def empty : Scopes V F := ⟨#[]⟩

def frame? (s : Scopes V F) (i : ScopeId) : Option (Frame V F) := s.frames[i.index]?

/-- The scopes around a scope, nearest first. -/
def outer (s : Scopes V F) (i : ScopeId) : List ScopeId :=
  match s.frame? i with
  | some f => f.outer
  | none => []

/-- A scope and the scopes around it, nearest first. -/
def chain (s : Scopes V F) (i : ScopeId) : List ScopeId := i :: s.outer i

/-- The scope directly around a scope. -/
def parent? (s : Scopes V F) (i : ScopeId) : Option ScopeId := (s.outer i).head?

def fresh (s : Scopes V F) : ScopeId := ⟨s.frames.size⟩

/-- Adds an empty scope inside the given ones. -/
def add (s : Scopes V F) (outer : List ScopeId) : ScopeId × Scopes V F :=
  (s.fresh, ⟨s.frames.push ⟨.empty, .empty, outer⟩⟩)

/-- Adds an empty scope inside no other. -/
def root (s : Scopes V F) : ScopeId × Scopes V F := s.add []

/-- Adds an empty scope inside the scope `i`. -/
def child (s : Scopes V F) (i : ScopeId) : ScopeId × Scopes V F := s.add (s.chain i)

/-- What the frame of `i` itself binds the variable `x` to. -/
def local? (s : Scopes V F) (i : ScopeId) (x : String) : Option V :=
  (s.frame? i).bind (·.vars.get? x)

/-- What the frame of `i` itself binds the function `x` to. -/
def localFunction? (s : Scopes V F) (i : ScopeId) (x : String) : Option F :=
  (s.frame? i).bind (·.functions.get? x)

/-- Whether the frame of `i` itself binds the variable `x`. -/
def binds (s : Scopes V F) (i : ScopeId) (x : String) : Bool := (s.local? i x).isSome

/-- What the variable `x` means in the scope `i`. -/
def find? (s : Scopes V F) (i : ScopeId) (x : String) : Option V :=
  (s.chain i).findSome? (s.local? · x)

/-- What the function `x` means in the scope `i`. -/
def findFunction? (s : Scopes V F) (i : ScopeId) (x : String) : Option F :=
  (s.chain i).findSome? (s.localFunction? · x)

/-- The scope that decides what `x` means in the scope `i`. -/
def owner? (s : Scopes V F) (i : ScopeId) (x : String) : Option ScopeId :=
  (s.chain i).find? (s.binds · x)

def modifyFrame (s : Scopes V F) (i : ScopeId) (f : Frame V F → Frame V F) : Scopes V F :=
  ⟨s.frames.modify i.index f⟩

/-- Binds the variable `x` in the frame of `i`, whatever it means outside. -/
def define (s : Scopes V F) (i : ScopeId) (x : String) (v : V) : Scopes V F :=
  s.modifyFrame i fun f => { f with vars := f.vars.insert x v }

/-- Binds the function `x` in the frame of `i`, whatever it means outside. -/
def defineFunction (s : Scopes V F) (i : ScopeId) (x : String) (v : F) : Scopes V F :=
  s.modifyFrame i fun f => { f with functions := f.functions.insert x v }

/-- Binds the variable `x` anew where it is bound already, if it is. -/
def set? (s : Scopes V F) (i : ScopeId) (x : String) (v : V) : Option (Scopes V F) :=
  (s.owner? i x).map fun j => s.define j x v

/-- Binds several variables in the frame of `i`, in order. -/
def defineAll (s : Scopes V F) (i : ScopeId) (bindings : List (String × V)) : Scopes V F :=
  bindings.foldl (fun s b => s.define i b.1 b.2) s

end Scopes

/-!
## Looking names up

A name that no frame of the chain binds is an error.
-/

namespace Scopes

variable {V F : Type}

def find (s : Scopes V F) (i : ScopeId) (x : String) : Except Error V :=
  match s.find? i x with
  | some v => .ok v
  | none => .error (.plain (.undefinedVariable x))

def findFunction (s : Scopes V F) (i : ScopeId) (x : String) : Except Error F :=
  match s.findFunction? i x with
  | some f => .ok f
  | none => .error (.plain (.undefinedFunction x))

/-- Binds the variable `x` anew where it is bound already. -/
def set (s : Scopes V F) (i : ScopeId) (x : String) (v : V) : Except Error (Scopes V F) :=
  match s.set? i x v with
  | some s' => .ok s'
  | none => .error (.plain (.undefinedVariable x))

end Scopes

end ScriptEngine
