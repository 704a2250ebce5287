import ScriptEngine.Proofs.Ends
import ScriptEngine.Proofs.Evaluation.Faults

/-!
# What an evaluation does

An evaluation is put together from few kinds of steps, so what these steps share all evaluations have.
Whether it succeeds or fails, an evaluation changes no scope, no function and no list that was there; the
store only grows by new lists. It fails with a fault of an operator, or because a variable of the
expression has no meaning.
-/

namespace ScriptEngine

/-! ## The steps of an evaluation -/

/-- A property of steps that all evaluations have if the reading of variables has it. -/
structure Evaluating (C : (α : Type) → EStateM Error Store α → Prop) : Prop where
  pure : ∀ {α : Type} (a : α), C α (pure a)
  get : C Store get
  bind : ∀ {α β : Type} {x : EStateM Error Store α} {f : α → EStateM Error Store β},
    C α x → (∀ a, C β (f a)) → C β (x >>= f)
  orFault : ∀ {α : Type} {r : Except Fault α}, FailsAsOperator r → C α (orFault r)
  makeList : ∀ items, C Value (makeList items)

/-- The variables that occur in an expression. -/
def Expr.vars : Expr → List String
  | .constant _ => []
  | .var x => [x]
  | .unary _ e => e.vars
  | .binary _ l r => l.vars ++ r.vars
  | .index b k => b.vars ++ k.vars

namespace Evaluating

variable {C : (α : Type) → EStateM Error Store α → Prop} (h : Evaluating C)

include h

theorem unary (op : UnaryOp) (v : Value) : C Value (evalUnary op v) := by
  cases op with
  | not => exact h.bind h.get fun _ => h.pure _
  | plus => exact h.orFault (.pos v)
  | minus => exact h.orFault (.neg v)
  | invert => exact h.orFault (.invert v)

theorem sum (v w : Value) : C Value (evalAdd v w) := by
  unfold evalAdd
  split
  · exact h.pure _
  · exact h.bind h.get fun _ => h.bind h.get fun _ => h.makeList _
  · exact h.orFault (.onNumbers (fun _ _ => .exactly _) fun _ _ => .ok _)

theorem repetition {v : Value} {n : Option Int64} {x : EStateM Error Store Value}
    (hx : repeat? v n = some x) : C Value x := by
  unfold repeat? at hx
  split at hx
  · cases hx
    exact h.bind (h.orFault (.of_value (.repeatString _ _))) fun _ => h.pure _
  · cases hx
    exact h.bind h.get fun _ => h.bind (h.orFault (.of_value (.repeatItems _ _))) fun _ => h.makeList _
  · cases hx

theorem product (v w : Value) : C Value (evalMul v w) := by
  unfold evalMul
  split
  · rename_i hx; exact h.repetition hx
  · split
    · rename_i hx; exact h.repetition hx
    · exact h.orFault (.onNumbers (fun _ _ => .exactly _) fun _ _ => .ok _)

theorem binary {right : EStateM Error Store Value} (op : BinaryOp) (v : Value) (hr : C Value right) :
    C Value (evalBinary op v right) := by
  have htruth : ∀ w, C Value (do return Value.bool ((← MonadState.get).isTruthy w)) :=
    fun _ => h.bind h.get fun _ => h.pure _
  cases op with
  | and =>
      refine h.bind h.get fun s => ?_
      split
      · exact h.bind hr htruth
      · exact h.pure _
  | or =>
      refine h.bind h.get fun s => ?_
      split
      · exact h.pure _
      · exact h.bind hr htruth
  | eq => exact h.bind hr fun _ => h.bind h.get fun _ => h.pure _
  | ne => exact h.bind hr fun _ => h.bind h.get fun _ => h.pure _
  | gt => exact h.bind hr fun _ => h.orFault .relate
  | lt => exact h.bind hr fun _ => h.orFault .relate
  | ge => exact h.bind hr fun _ => h.orFault .relate
  | le => exact h.bind hr fun _ => h.orFault .relate
  | add => exact h.bind hr fun _ => h.sum _ _
  | mul => exact h.bind hr fun _ => h.product _ _
  | sub => exact h.bind hr fun _ => h.orFault (.onNumbers (fun _ _ => .exactly _) fun _ _ => .ok _)
  | div => exact h.bind hr fun _ => h.orFault (.onFloats .floatDiv)
  | mod => exact h.bind hr fun _ => h.orFault (.onNumbers .intRem .floatRem)
  | shl => exact h.bind hr fun _ => h.orFault (.onInts .shiftLeft)
  | shr => exact h.bind hr fun _ => h.orFault (.onInts .shiftRight)
  | bitAnd => exact h.bind hr fun _ => h.orFault (.onInts fun _ _ => .ok _)
  | bitOr => exact h.bind hr fun _ => h.orFault (.onInts fun _ _ => .ok _)
  | bitXor => exact h.bind hr fun _ => h.orFault (.onInts fun _ _ => .ok _)

theorem index (v w : Value) : C Value (evalIndex v w) := by
  unfold evalIndex
  split
  · exact h.bind h.get fun _ => h.bind (h.orFault (.resolve _ _)) fun _ => h.pure _
  · exact h.orFault (.charAt _ _)
  · exact h.orFault (.error trivial)

theorem eval {i : ScopeId} : (e : Expr) → (∀ x ∈ e.vars, C Value (readVar i x)) → C Value (eval i e)
  | .constant _, _ => h.pure _
  | .var x, hv => hv x (List.mem_singleton.mpr rfl)
  | .unary _ e, hv => h.bind (eval e hv) fun _ => h.unary _ _
  | .binary _ l r, hv => by
      have hl := eval l fun x hx => hv x (List.mem_append_left _ hx)
      have hr := eval r fun x hx => hv x (List.mem_append_right _ hx)
      exact h.bind hl fun _ => h.binary _ _ hr
  | .index b k, hv => by
      have hb := eval b fun x hx => hv x (List.mem_append_left _ hx)
      have hk := eval k fun x hx => hv x (List.mem_append_right _ hx)
      exact h.bind hb fun _ => h.bind hk fun _ => h.index _ _

end Evaluating

/-! ## Changes of the store -/

/-- From `s` to `s'` nothing has changed but that lists have been added. -/
structure Store.Grows (s s' : Store) : Prop where
  scopes : s'.scopes = s.scopes
  functions : s'.functions = s.functions
  lists : s.lists.toList <+: s'.lists.toList

namespace Store.Grows

variable {s s' s'' : Store}

theorem refl (s : Store) : s.Grows s := ⟨rfl, rfl, List.prefix_rfl⟩

theorem trans (h : s.Grows s') (h' : s'.Grows s'') : s.Grows s'' :=
  ⟨h'.scopes.trans h.scopes, h'.functions.trans h.functions, h.lists.trans h'.lists⟩

theorem newList (s : Store) (items : Array Value) : s.Grows (s.newList items).2 :=
  ⟨rfl, rfl, by simp [Store.newList]⟩

end Store.Grows

/-- A step that, however it ends, only adds lists. -/
def Harmless {α : Type} (x : EStateM Error Store α) : Prop :=
  ∀ s, Ends x s (fun _ s' => s.Grows s') (fun _ s' => s.Grows s')

namespace Harmless

variable {α β : Type} {x : EStateM Error Store α} {f : α → EStateM Error Store β}

theorem pure (a : α) : Harmless (pure a : EStateM Error Store α) := fun s => .refl s

theorem bind (hx : Harmless x) (hf : ∀ a, Harmless (f a)) : Harmless (x >>= f) := by
  intro s
  rw [Ends.bind_iff]
  refine (hx s).mono (fun a s₁ h₁ => ?_) (fun _ _ h => h)
  exact (hf a s₁).mono (fun _ _ h => h₁.trans h) (fun _ _ h => h₁.trans h)

theorem orFault (r : Except Fault α) : Harmless (orFault r) := fun s => by
  rw [Ends.orFault_iff]
  exact ⟨fun _ _ => .refl s, fun _ _ => .refl s⟩

theorem evaluating : Evaluating fun _ => Harmless where
  pure a := .pure a
  get s := .refl s
  bind hx hf := hx.bind hf
  orFault _ := .orFault _
  makeList items s := .newList s items

theorem readVar (i : ScopeId) (x : String) : Harmless (readVar i x) := fun s => by
  unfold Ends ScriptEngine.readVar
  cases s.scopes.find i x <;> exact .refl s

end Harmless

theorem eval_harmless (i : ScopeId) (e : Expr) : Harmless (eval i e) :=
  Harmless.evaluating.eval e fun x _ => .readVar i x

/-! ## Failures -/

/-- A step fails as operators do, or because one of the variables `xs` has no meaning in the scope `i`. -/
def Explained (i : ScopeId) (xs : List String) (α : Type) (x : EStateM Error Store α) : Prop :=
  ∀ σ, Ends x σ (fun _ σ' => σ'.scopes = σ.scopes) (fun e _ =>
    (∃ y ∈ xs, σ.scopes.find? i y = none ∧ e = .plain (.undefinedVariable y)) ∨
      ∃ f, e = .ofFault f ∧ f.OfOperator)

namespace Explained

variable {i : ScopeId} {xs : List String}

theorem evaluating : Evaluating (Explained i xs) where
  pure _ _ := rfl
  get _ := rfl
  bind {α β x f} hx hf σ := by
    rw [Ends.bind_iff]
    refine (hx σ).mono (fun a σ₁ h₁ => ?_) (fun _ _ h => h)
    have h := hf a σ₁
    rw [h₁] at h
    exact h
  orFault h σ := by
    rw [Ends.orFault_iff]
    exact ⟨fun _ _ => rfl, fun f hf => .inr ⟨f, rfl, h f hf⟩⟩
  makeList _ _ := rfl

theorem readVar {x : String} (hx : x ∈ xs) : Explained i xs Value (readVar i x) := fun σ => by
  unfold Ends ScriptEngine.readVar Scopes.find
  cases h : σ.scopes.find? i x with
  | none => exact .inl ⟨x, hx, h, rfl⟩
  | some v => rfl

end Explained

/-- An evaluation fails as operators do, or because a variable of the expression has no meaning. -/
theorem eval_explained (i : ScopeId) (e : Expr) : Explained i e.vars Value (eval i e) :=
  Explained.evaluating.eval e fun _ hx => .readVar hx

end ScriptEngine
