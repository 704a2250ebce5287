import ScriptEngine.Proofs.Evaluation.Indexing
import ScriptEngine.Proofs.Execution.Assignment
import ScriptEngine.Proofs.Execution.Effect
import ScriptEngine.Proofs.Execution.Points

/-!
# Reads and writes of elements

A run reads elements of lists and writes them, in some order. Lists have identities, so it does not matter through
which expressions: what is read at a position is what was written there last, and if nothing was written there, it is
what the position held from the start.
-/

namespace ScriptEngine

/-- A read or a write of an element of a list. -/
inductive Access where
  | read (l : ListId) (p : Nat) (v : Value)
  | write (l : ListId) (p : Nat) (v : Value)

/-- The accesses of a step that starts in a given store, in order, up to its end or its failure. -/
abbrev Log := Store → List Access

namespace Log

variable {ε α : Type}

def quiet : Log := fun _ => []

/-- The accesses of the step `x`, which are `as`, and then those of what follows it. -/
def bind (x : EStateM ε Store α) (as : Log) (f : α → Log) : Log := fun s =>
  as s ++ match x s with
    | .ok a s' => f a s'
    | .error _ _ => []

/-- The element that an index of a list reads. -/
def read (base w : Value) : Log := fun s =>
  match base with
  | .list l =>
    match Sequence.resolve w (s.items l).size with
    | .ok p => [.read l p ((s.items l)[p]?.getD .null)]
    | .error _ => []
  | _ => []

/-- The element that an assignment to an index of a list writes. -/
def write (base w v : Value) : Log := fun s =>
  match base with
  | .list l =>
    match Sequence.resolve w (s.items l).size with
    | .ok p => [.write l p v]
    | .error _ => []
  | _ => []

end Log

/-! ## The accesses of a run -/

instance (op : BinaryOp) (v : Value) (s : Store) : Decidable (needsRight op v s) := inferInstanceAs (Decidable (_ ∧ _))

/-- The accesses of an evaluation. -/
def Expr.accesses (i : ScopeId) : Expr → Log
  | .constant _ => .quiet
  | .var _ => .quiet
  | .unary _ e => e.accesses i
  | .binary op l r => .bind (eval i l) (l.accesses i) fun v s => if needsRight op v s then r.accesses i s else []
  | .index b k => .bind (eval i b) (b.accesses i) fun v => .bind (eval i k) (k.accesses i) fun w => .read v w

def optionAccesses (i : ScopeId) : Option Expr → Log
  | some e => e.accesses i
  | none => .quiet

/-- The accesses of an assignment after its value is known. -/
def targetAccesses (i : ScopeId) (v : Value) : Expr → Log
  | .index b k => .bind (eval i b) (b.accesses i) fun base => .bind (eval i k) (k.accesses i) fun w => .write base w v
  | _ => .quiet

def declAccesses (i : ScopeId) : List Decl → Log
  | [] => .quiet
  | d :: ds => .bind (Exec.ofEval (evalOptional i d.value)) (optionAccesses i d.value) fun v =>
    .bind (Exec.define i d.name v) .quiet fun _ => declAccesses i ds

/-- The accesses of a loop, from those of its condition and its body. -/
def loopAccesses (condition : Exec Bool) (cs : Log) (body : Exec (Option Signal)) (bs : Log) : (rounds : Nat) → Log
  | 0 => .quiet
  | rounds + 1 => .bind condition cs fun b =>
    if b then
      .bind body bs fun signal =>
        match signal with
        | some .break | some (.ret _) => .quiet
        | _ => loopAccesses condition cs body bs rounds
    else .quiet

mutual

/-- The accesses of a run of a statement. -/
def Stmt.accesses (rounds : Nat) (i : ScopeId) : Stmt → Log
  | .block body => .bind (Exec.enter i) .quiet fun j => blockAccesses rounds j body
  | .noop => .quiet
  | .expr e => e.accesses i
  | .branch branches => branches.accesses rounds i
  | .loop condition body => loopAccesses (test i condition) (condition.accesses i)
      (do runBlock rounds (← Exec.enter i) body)
      (.bind (Exec.enter i) .quiet fun j => blockAccesses rounds j body) rounds
  | .declare ds => declAccesses i ds
  | .assign target e => .bind (Exec.ofEval (eval i e)) (e.accesses i) fun v => targetAccesses i v target
  | .ret e => optionAccesses i e
  | .break => .quiet
  | .continue => .quiet

def Branches.accesses (rounds : Nat) (i : ScopeId) : Branches → Log
  | .arm condition body rest => .bind (test i condition) (condition.accesses i) fun b =>
    if b then .bind (Exec.enter i) .quiet fun j => blockAccesses rounds j body
    else rest.accesses rounds i
  | .otherwise body => .bind (Exec.enter i) .quiet fun j => blockAccesses rounds j body

/-- The accesses of a run of statements. -/
def blockAccesses (rounds : Nat) (i : ScopeId) : List Stmt → Log
  | [] => .quiet
  | st :: rest => .bind (runStmt rounds i st) (st.accesses rounds i) fun signal =>
    match signal with
    | some _ => .quiet
    | none => blockAccesses rounds i rest

end

/-! ## What accesses do to the elements -/

variable {s s' s₁ : Store} {l : ListId} {p : Nat} {u v : Value} {es fs : List Access}

/-- From `s` to `s'` the lists that were there have kept their elements. -/
structure Store.KeepsLists (s s' : Store) : Prop where
  hasList : ∀ l, s.HasList l → s'.HasList l
  items : ∀ l, s.HasList l → s'.items l = s.items l

namespace Store.KeepsLists

theorem of_grows (h : s.Grows s') : s.KeepsLists s' := ⟨fun _ => h.hasList, fun _ => h.items⟩

theorem refl (s : Store) : s.KeepsLists s := of_grows (.refl s)

theorem mapScopes (f : Scopes Value FunctionId → Scopes Value FunctionId) (s : Store) : s.KeepsLists (s.mapScopes f) :=
  ⟨fun _ hl => hl, fun _ _ => rfl⟩

theorem trans {s'' : Store} (h : s.KeepsLists s') (h' : s'.KeepsLists s'') : s.KeepsLists s'' :=
  ⟨fun l hl => h'.hasList l (h.hasList l hl), fun l hl => (h'.items l (h.hasList l hl)).trans (h.items l hl)⟩

end Store.KeepsLists

/-- The accesses lead from `s` to `s'`: what is read is there, what is written is changed, and no other element of
a list is. -/
inductive Store.Follows : Store → List Access → Store → Prop where
  | done {s s' : Store} : s.KeepsLists s' → Follows s [] s'
  | read {s s₁ s' : Store} {l : ListId} {p : Nat} {v : Value} {es : List Access} : s.KeepsLists s₁ →
      (s₁.items l)[p]? = some v → Follows s₁ es s' → Follows s (.read l p v :: es) s'
  | write {s s₁ s' : Store} {l : ListId} {p : Nat} {v : Value} {es : List Access} : s.KeepsLists s₁ →
      p < (s₁.items l).size → Follows (s₁.setItem l p v) es s' → Follows s (.write l p v :: es) s'

theorem hasList_of_lt (h : p < (s.items l).size) : s.HasList l := by
  apply Classical.byContradiction
  intro hl
  rw [Store.items_of_not_hasList hl] at h
  cases h

namespace Store.Follows

theorem of_keeps (h : s.KeepsLists s₁) (h' : s₁.Follows es s') : s.Follows es s' := by
  cases h' with
  | done hk => exact .done (h.trans hk)
  | read hk hv hes => exact .read (h.trans hk) hv hes
  | write hk hp hes => exact .write (h.trans hk) hp hes

theorem append (h : s.Follows es s₁) (h' : s₁.Follows fs s') : s.Follows (es ++ fs) s' := by
  induction h with
  | done hk => exact h'.of_keeps hk
  | read hk hv _ ih => exact .read hk hv (ih h')
  | write hk hp _ ih => exact .write hk hp (ih h')

theorem exists_of_append (h : s.Follows (es ++ fs) s') : ∃ s₁, s.Follows es s₁ ∧ s₁.Follows fs s' := by
  induction es generalizing s with
  | nil => exact ⟨s, .done (.refl s), h⟩
  | cons e es ih =>
      cases h with
      | read hk hv hes =>
          obtain ⟨s₁, h₁, h₂⟩ := ih hes
          exact ⟨s₁, .read hk hv h₁, h₂⟩
      | write hk hp hes =>
          obtain ⟨s₁, h₁, h₂⟩ := ih hes
          exact ⟨s₁, .write hk hp h₁, h₂⟩

/-- No list is lost or changes its length. -/
theorem size_eq (h : s.Follows es s') (hl : s.HasList l) : s'.HasList l ∧ (s'.items l).size = (s.items l).size := by
  induction h with
  | done hk => exact ⟨hk.hasList l hl, congrArg Array.size (hk.items l hl)⟩
  | read hk _ _ ih =>
      obtain ⟨hl', hsize⟩ := ih (hk.hasList l hl)
      exact ⟨hl', hsize.trans (congrArg Array.size (hk.items l hl))⟩
  | @write _ s₁ _ m p v _ hk _ _ ih =>
      have hl₁ : (s₁.setItem m p v).HasList l := by
        simpa [HasList, setItem] using hk.hasList l hl
      obtain ⟨hl', hsize⟩ := ih hl₁
      refine ⟨hl', hsize.trans ?_⟩
      rw [items_setItem, ← hk.items l hl]
      split <;> simp

theorem getElem?_setItem {m : ListId} {q : Nat} (hne : ¬(m = l ∧ q = p)) :
    ((s.setItem m q v).items l)[p]? = (s.items l)[p]? := by
  rw [items_setItem]
  split
  · rename_i hml
    exact Array.getElem?_setIfInBounds_ne fun hqp => hne ⟨hml, hqp⟩
  · rfl

/-- A position that is not written keeps its element. -/
theorem getElem?_eq (h : s.Follows es s') (hl : s.HasList l) (hp : ∀ v, .write l p v ∉ es) :
    (s'.items l)[p]? = (s.items l)[p]? := by
  induction h with
  | done hk => rw [hk.items l hl]
  | read hk _ _ ih => rw [ih (hk.hasList l hl) fun v hv => hp v (List.mem_cons_of_mem _ hv), hk.items l hl]
  | @write _ s₁ _ m q v _ hk _ _ ih =>
      have hne : ¬(m = l ∧ q = p) := by
        rintro ⟨rfl, rfl⟩
        exact hp v List.mem_cons_self
      have hl₁ : (s₁.setItem m q v).HasList l := by
        simpa [HasList, setItem] using hk.hasList l hl
      rw [ih hl₁ fun v hv => hp v (List.mem_cons_of_mem _ hv), getElem?_setItem hne, hk.items l hl]

theorem getElem?_of_read (h : s.Follows (.read l p u :: es) s') (hl : s.HasList l) : (s.items l)[p]? = some u := by
  cases h with
  | read hk hu _ => rw [← hk.items l hl, hu]

/-- A position holds what was written to it last. -/
theorem getElem?_of_write (h : s.Follows (.write l p v :: es) s') (hp : ∀ x, .write l p x ∉ es) :
    (s'.items l)[p]? = some v := by
  cases h with
  | @write _ s₁ _ _ _ _ _ hk hlt hes =>
      have hl : (s₁.setItem l p v).HasList l := by
        simpa [HasList, setItem] using hasList_of_lt hlt
      rw [hes.getElem?_eq hl hp, items_setItem, if_pos rfl, Array.getElem?_setIfInBounds_self_of_lt hlt]

end Store.Follows

/-- The accesses agree with each other and with the elements before and after them. -/
structure Store.Remembers (s : Store) (es : List Access) (s' : Store) : Prop where
  /-- What is read is what was written last. -/
  written : ∀ l p v u before between after, es = before ++ .write l p v :: (between ++ .read l p u :: after) →
    (∀ x, .write l p x ∉ between) → u = v
  /-- What is read where nothing was written is what was there. -/
  unwritten : ∀ l p u before after, s.HasList l → es = before ++ .read l p u :: after →
    (∀ x, .write l p x ∉ before) → (s.items l)[p]? = some u
  last : ∀ l p v before after, es = before ++ .write l p v :: after → (∀ x, .write l p x ∉ after) →
    (s'.items l)[p]? = some v
  others : ∀ l p, s.HasList l → (∀ x, .write l p x ∉ es) → (s'.items l)[p]? = (s.items l)[p]?
  sizes : ∀ l, s.HasList l → (s'.items l).size = (s.items l).size

theorem Store.Follows.remembers (h : s.Follows es s') : s.Remembers es s' where
  written l p v u before between after hes hno := by
    obtain ⟨s₁, _, h₁⟩ := (hes ▸ h).exists_of_append
    rw [← List.cons_append] at h₁
    obtain ⟨s₂, hwrite, hread⟩ := h₁.exists_of_append
    have hv : (s₂.items l)[p]? = some v := hwrite.getElem?_of_write hno
    have hl : s₂.HasList l := hasList_of_lt (Array.getElem?_eq_some_iff.mp hv).1
    exact Option.some.inj ((hread.getElem?_of_read hl).symm.trans hv)
  unwritten l p u before after hl hes hno := by
    obtain ⟨s₁, hbefore, hread⟩ := (hes ▸ h).exists_of_append
    rw [← hbefore.getElem?_eq hl hno]
    exact hread.getElem?_of_read (hbefore.size_eq hl).1
  last l p v before after hes hno := by
    obtain ⟨s₁, _, hwrite⟩ := (hes ▸ h).exists_of_append
    exact hwrite.getElem?_of_write hno
  others l p hl hno := h.getElem?_eq hl hno
  sizes l hl := (h.size_eq hl).2

/-! ## Steps and their accesses -/

/-- However the step ends, its accesses lead to the store that it leaves. -/
def Leads {ε α : Type} (x : EStateM ε Store α) (as : Log) : Prop :=
  ∀ s, Ends x s (fun _ s' => s.Follows (as s) s') (fun _ s' => s.Follows (as s) s')

namespace Leads

variable {ε α β : Type} {x : EStateM ε Store α} {f : α → EStateM ε Store β} {as : Log} {bs : α → Log} {i : ScopeId}

theorem pure (a : α) : Leads (pure a : EStateM ε Store α) .quiet := fun s => .done (.refl s)

theorem bind (hx : Leads x as) (hf : ∀ a, Leads (f a) (bs a)) : Leads (x >>= f) (.bind x as bs) := by
  intro s
  unfold Log.bind
  rw [Ends.bind_iff]
  refine ((hx s).and (.result x s)).mono (fun a s₁ h => ?_) (fun e s₁ h => ?_)
  · rw [h.2]
    exact (hf a s₁).mono (fun _ _ h' => h.1.append h') (fun _ _ h' => h.1.append h')
  · rw [h.2, List.append_nil]
    exact h.1

/-- What follows a step and makes no accesses adds none. -/
theorem andThen (hx : Leads x as) (hf : ∀ a, Leads (f a) .quiet) : Leads (x >>= f) as := by
  have h : Log.bind x as (fun _ => .quiet) = as := by
    funext s
    unfold Log.bind Log.quiet
    cases x s <;> exact List.append_nil _
  exact h ▸ hx.bind hf

theorem of_harmless {x : EStateM Error Store α} (h : Harmless x) : Leads x .quiet := fun s =>
  (h s).mono (fun _ _ h => .done (.of_grows h)) (fun _ _ h => .done (.of_grows h))

theorem ofEval {x : EStateM Error Store α} (h : Leads x as) : Leads (Exec.ofEval x) as := fun s =>
  Ends.ofEval_iff.mpr (h s)

theorem get : Leads (get : EStateM ε Store Store) .quiet := fun s => .done (.refl s)

/-! ## Expressions -/

theorem evalBinary_eq {op : BinaryOp} {v : Value} {right : EStateM Error Store Value} (hand : op ≠ .and)
    (hor : op ≠ .or) :
    evalBinary op v right = right >>= fun w => evalBinary op v (Pure.pure w) := by
  cases op <;> first | contradiction | rfl

theorem binary {right : EStateM Error Store Value} (op : BinaryOp) (v : Value) (hr : Leads right as) :
    Leads (evalBinary op v right) fun s => if needsRight op v s then as s else [] := by
  have htruth : Leads (do let w ← right; return Value.bool ((← MonadState.get).isTruthy w)) as :=
    hr.andThen fun _ => get.andThen fun _ => .pure _
  intro s
  dsimp only
  by_cases hand : op = .and
  · subst hand
    cases ht : s.isTruthy v with
    | true =>
        rw [if_pos ⟨fun _ => ht, fun h => (by cases h)⟩]
        simp only [evalBinary, Ends.bind_iff, Ends.get_iff, ht, if_true]
        simpa only [Ends.bind_iff, Ends.get_iff] using htruth s
    | false =>
        rw [if_neg fun h => by simp [h.1 rfl] at ht]
        simp only [evalBinary, Ends.bind_iff, Ends.get_iff, ht, Bool.false_eq_true, if_false]
        exact pure _ s
  by_cases hor : op = .or
  · subst hor
    cases ht : s.isTruthy v with
    | true =>
        rw [if_neg fun h => by simp [h.2 rfl] at ht]
        simp only [evalBinary, Ends.bind_iff, Ends.get_iff, ht, if_true]
        exact pure _ s
    | false =>
        rw [if_pos ⟨fun h => (by cases h), fun _ => ht⟩]
        simp only [evalBinary, Ends.bind_iff, Ends.get_iff, ht, Bool.false_eq_true, if_false]
        simpa only [Ends.bind_iff, Ends.get_iff] using htruth s
  rw [evalBinary_eq hand hor, if_pos ⟨fun h => absurd h hand, fun h => absurd h hor⟩]
  exact hr.andThen (fun w => .of_harmless (Harmless.evaluating.binary op v (.pure w))) s

theorem index (base w : Value) : Leads (evalIndex base w) (.read base w) := by
  intro s
  cases base with
  | list l =>
      simp only [evalIndex, Log.read, Ends.bind_iff, Ends.get_iff, Ends.orFault_iff, Ends.pure_iff]
      refine ⟨fun p hp => ?_, fun f hf => ?_⟩
      · rw [hp]
        have hlt : p < (s.items l).size := lt_of_resolve hp
        exact .read (.refl s) (by simp [hlt]) (.done (.refl s))
      · rw [hf]
        exact .done (.refl s)
  | _ => exact of_harmless (Harmless.evaluating.index _ w) s

theorem eval : (e : Expr) → Leads (eval i e) (e.accesses i)
  | .constant _ => .pure _
  | .var x => .of_harmless (.readVar i x)
  | .unary op e => (eval e).andThen fun v => .of_harmless (Harmless.evaluating.unary op v)
  | .binary op l r => (eval l).bind fun v => .binary op v (eval r)
  | .index b k => (eval b).bind fun v => (eval k).bind fun w => .index v w

theorem evalOptional : (e : Option Expr) → Leads (evalOptional i e) (optionAccesses i e)
  | some e => eval e
  | none => .pure _

/-! ## Statements -/

theorem mapScopes (g : Scopes Value FunctionId → Scopes Value FunctionId) :
    Leads (modify (·.mapScopes g) : EStateM ε Store PUnit) .quiet := fun s => .done (.mapScopes g s)

theorem enter (j : ScopeId) : Leads (Exec.enter j) .quiet := fun s => .done (.mapScopes (fun G => (G.child j).2) s)

theorem test (e : Expr) : Leads (test i e) (e.accesses i) :=
  (ofEval (eval e)).andThen fun _ => get.andThen fun _ => .pure _

theorem declare : (ds : List Decl) → Leads (declare i ds) (declAccesses i ds)
  | [] => .pure _
  | d :: ds => (ofEval (evalOptional d.value)).bind fun _ => (mapScopes _).bind fun _ => declare ds

theorem writeVar (x : String) (v : Value) : Leads (writeVar i x v) .quiet := by
  refine get.andThen fun s => ?_
  split
  · exact mapScopes _
  · exact of_harmless fun s => .refl s

theorem assign (target : Expr) (v : Value) : Leads (assign i target v) (targetAccesses i v target) := by
  cases target with
  | var x => exact writeVar x v
  | index b k =>
      refine (eval b).bind fun base => (eval k).bind fun w => ?_
      intro s
      cases base with
      | list l =>
          simp only [Log.write, Ends.bind_iff, Ends.get_iff, Ends.orFault_iff, Ends.modify_iff]
          refine ⟨fun p hp => ?_, fun f hf => ?_⟩
          · rw [hp]
            exact .write (.refl s) (lt_of_resolve hp) (.done (.refl _))
          · rw [hf]
            exact .done (.refl s)
      | _ => exact of_harmless (.orFault _) s
  | _ =>
      simp only [ScriptEngine.assign]
      exact of_harmless (.orFault _)

theorem repeatWhile {condition : Exec Bool} {body : Exec (Option Signal)} {cs bs : Log} (hc : Leads condition cs)
    (hb : Leads body bs) : (n : Nat) → Leads (repeatWhile condition body n) (loopAccesses condition cs body bs n)
  | 0 => fun s => .done (.refl s)
  | n + 1 => by
      refine hc.bind fun b => ?_
      cases b with
      | false => exact .pure _
      | true =>
          refine hb.bind fun signal => ?_
          match signal with
          | some .break => exact .pure _
          | some (.ret v) => exact .pure _
          | some .continue => exact repeatWhile hc hb n
          | none => exact repeatWhile hc hb n

end Leads

mutual

theorem runStmt_leads {rounds : Nat} {i : ScopeId} : (st : Stmt) → Leads (runStmt rounds i st) (st.accesses rounds i)
  | .block body => (Leads.enter i).bind fun _ => runBlock_leads body
  | .noop => .pure _
  | .expr e => (Leads.ofEval (.eval e)).andThen fun _ => .pure _
  | .branch bs => runBranches_leads bs
  | .loop c body => .repeatWhile (.test c) ((Leads.enter i).bind fun _ => runBlock_leads body) rounds
  | .declare ds => (Leads.declare ds).andThen fun _ => .pure _
  | .assign target e => (Leads.ofEval (.eval e)).bind fun v =>
      (Leads.ofEval (.assign target v)).andThen fun _ => .pure _
  | .ret e => (Leads.ofEval (.evalOptional e)).andThen fun _ => .pure _
  | .break => .pure _
  | .continue => .pure _

theorem runBranches_leads {rounds : Nat} {i : ScopeId} :
    (bs : Branches) → Leads (runBranches rounds i bs) (bs.accesses rounds i)
  | .arm c body rest => (Leads.test c).bind fun b => by
      cases b with
      | true => exact (Leads.enter i).bind fun _ => runBlock_leads body
      | false => exact runBranches_leads rest
  | .otherwise body => (Leads.enter i).bind fun _ => runBlock_leads body

/-- The accesses of a run of statements lead from the store that it starts in to the one that it leaves. -/
theorem runBlock_leads {rounds : Nat} {i : ScopeId} :
    (b : List Stmt) → Leads (runBlock rounds i b) (blockAccesses rounds i b)
  | [] => .pure _
  | st :: rest => (runStmt_leads st).bind fun signal => by
      cases signal with
      | some signal => exact .pure _
      | none => exact runBlock_leads rest

end

/-! ## Elements of lists -/

section

variable {i : ScopeId} {b k e : Expr} {w base : Value} {j : Int64} {σ σ' σ₁ σ₂ σ₃ : Store}

theorem Log.bind_of_ok {ε α : Type} {x : EStateM ε Store α} {as : Log} {f : α → Log} {a : α} (h : x s = .ok a s') :
    Log.bind x as f s = as s ++ f a s' := by
  unfold Log.bind
  rw [h]

theorem Log.mem_bind {ε α : Type} {x : EStateM ε Store α} {as : Log} {f : α → Log} {a : Access}
    (h : a ∈ Log.bind x as f s) : a ∈ as s ∨ ∃ b s₁, a ∈ f b s₁ := by
  unfold Log.bind at h
  rcases List.mem_append.mp h with h | h
  · exact .inl h
  · split at h
    · exact .inr ⟨_, _, h⟩
    · cases h

/-- Evaluations only read. -/
theorem Expr.write_not_mem : (e : Expr) → (σ : Store) → .write l p v ∉ e.accesses i σ
  | .constant _, _, h => nomatch h
  | .var _, _, h => nomatch h
  | .unary _ e, σ, h => e.write_not_mem σ h
  | .binary op a c, σ, h => by
      rcases Log.mem_bind h with h | ⟨_, σ₁, h⟩
      · exact a.write_not_mem σ h
      · split at h
        · exact c.write_not_mem σ₁ h
        · cases h
  | .index a c, σ, h => by
      rcases Log.mem_bind h with h | ⟨_, σ₁, h⟩
      · exact a.write_not_mem σ h
      · rcases Log.mem_bind h with h | ⟨_, σ₂, h⟩
        · exact c.write_not_mem σ₁ h
        · unfold Log.read at h
          repeat' split at h
          all_goals simp at h

/-- Whatever expression the list comes from, and whichever of its two indices stands for the position, the element
there is read. -/
theorem list_element_read (hb : eval i b σ = .ok (.list l) σ₁) (hk : eval i k σ₁ = .ok (.int j) σ₂)
    (hp : p < (σ₂.items l).size) (hj : j.toInt = p ∨ j.toInt = p - (σ₂.items l).size) :
    ∃ v, (σ₂.items l)[p]? = some v ∧ eval i (.index b k) σ = .ok v σ₂ ∧
      (Expr.index b k).accesses i σ = b.accesses i σ ++ (k.accesses i σ₁ ++ [.read l p v]) := by
  have hv : (σ₂.items l)[p]? = some (σ₂.items l)[p] := Array.getElem?_eq_getElem hp
  refine ⟨(σ₂.items l)[p], hv, ?_, ?_⟩
  · exact eval_index_ok hb hk rfl (by rw [Array.getElem?_toList, hv]) (by rwa [Array.length_toList])
  · have hr : Sequence.resolve (.int j) (σ₂.items l).size = .ok p := resolve_eq_ok_iff.mpr ⟨hp, j, rfl, hj⟩
    rw [Expr.accesses, Log.bind_of_ok hb, Log.bind_of_ok hk]
    simp only [Log.read, hr, hv, Option.getD_some]

theorem list_element_written (rounds : Nat) (he : eval i e σ = .ok v σ₁) (hb : eval i b σ₁ = .ok (.list l) σ₂)
    (hk : eval i k σ₂ = .ok (.int j) σ₃) (hp : p < (σ₃.items l).size)
    (hj : j.toInt = p ∨ j.toInt = p - (σ₃.items l).size) :
    ∃ σ', runStmt rounds i (.assign (.index b k) e) σ = .ok none σ' ∧ σ₃.Writes (.element l p) v σ' ∧
      (Stmt.assign (.index b k) e).accesses rounds i σ =
        e.accesses i σ ++ (b.accesses i σ₁ ++ (k.accesses i σ₂ ++ [.write l p v])) := by
  have hr : Sequence.resolve (.int j) (σ₃.items l).size = .ok p := resolve_eq_ok_iff.mpr ⟨hp, j, rfl, hj⟩
  have hassign : assign i (.index b k) v σ₁ = .ok () (σ₃.setItem l p v) := by
    rw [assign]
    refine bind_eq_ok.mpr ⟨_, σ₂, hb, bind_eq_ok.mpr ⟨_, σ₃, hk, ?_⟩⟩
    exact bind_eq_ok.mpr ⟨σ₃, σ₃, rfl, bind_eq_ok.mpr ⟨p, σ₃, by rw [hr]; rfl, rfl⟩⟩
  refine ⟨σ₃.setItem l p v, ?_, .setItem (.refl σ₃) hp v, ?_⟩
  · rw [runStmt]
    exact bind_eq_ok.mpr ⟨v, σ₁, ofEval_eq_ok.mpr he, bind_eq_ok.mpr ⟨(), _, ofEval_eq_ok.mpr hassign, rfl⟩⟩
  · rw [Stmt.accesses, Log.bind_of_ok (ofEval_eq_ok.mpr he), targetAccesses, Log.bind_of_ok hb, Log.bind_of_ok hk]
    simp only [Log.write, hr]

theorem exists_of_element_written {rounds : Nat} {signal : Option Signal}
    (h : runStmt rounds i (.assign (.index b k) e) σ = .ok signal σ') :
    ∃ v l j p σ₁ σ₂ σ₃, eval i e σ = .ok v σ₁ ∧ eval i b σ₁ = .ok (.list l) σ₂ ∧ eval i k σ₂ = .ok (.int j) σ₃ ∧
      p < (σ₃.items l).size ∧ (j.toInt = p ∨ j.toInt = p - (σ₃.items l).size) := by
  rw [runStmt] at h
  obtain ⟨v, σ₁, he, h⟩ := bind_eq_ok.mp h
  obtain ⟨_, _, hassign, _⟩ := bind_eq_ok.mp h
  rw [ofEval_eq_ok] at he hassign
  obtain ⟨_, hnames, _⟩ := (assign_writes (.refl σ₁) (.index b k) v).of_ok hassign
  cases hnames with | @index _ _ l w p σ₂ σ₃ hb hk hr =>
  obtain ⟨hp, j, rfl, hj⟩ := resolve_eq_ok_iff.mp hr
  exact ⟨v, l, j, p, σ₁, σ₂, σ₃, he, hb, hk, hp, hj⟩

end

/-- Indexing reads an element exactly from `-n` up to `n`, and the characters of a string in order are the string.
A list is read and written by identity: the two indices of a position mean it through all expressions for the list,
and in a run a read gives what was last written to the position, or what it held from the start. -/
theorem elements_read_as_written (i : ScopeId) :
    (∀ b k σ base w σ₁ σ₂ xs, eval i b σ = .ok base σ₁ → eval i k σ₁ = .ok w σ₂ → σ₂.elements? base = some xs →
      (∀ j : Int64, w = .int j → -(xs.length : Int) ≤ j.toInt → j.toInt < xs.length →
        ∃ v, xs[(if 0 ≤ j.toInt then j.toInt else xs.length + j.toInt).toNat]? = some v ∧
          eval i (.index b k) σ = .ok v σ₂) ∧
      (∀ j : Int64, w = .int j → ¬(-(xs.length : Int) ≤ j.toInt ∧ j.toInt < xs.length) →
        eval i (.index b k) σ = .error (.ofFault (.outOfRange j)) σ₂) ∧
      ((∀ j, w ≠ .int j) → eval i (.index b k) σ = .error (.ofFault (.badIndex w.kind)) σ₂)) ∧
    (∀ b σ t σ₁, eval i b σ = .ok (.str t) σ₁ →
      ∃ cs : List String, cs.length = t.length ∧ String.join cs = t ∧ ∀ (p : Nat) c, cs[p]? = some c →
        c.length = 1 ∧ ∀ j : Int64, j.toInt = p → eval i (.index b (.constant (.int j))) σ = .ok (.str c) σ₁) ∧
    (∀ b k σ l σ₁ j σ₂ p, eval i b σ = .ok (.list l) σ₁ → eval i k σ₁ = .ok (.int j) σ₂ → p < (σ₂.items l).size →
      j.toInt = p ∨ j.toInt = p - (σ₂.items l).size →
      ∃ v, (σ₂.items l)[p]? = some v ∧ eval i (.index b k) σ = .ok v σ₂ ∧
        (Expr.index b k).accesses i σ = b.accesses i σ ++ (k.accesses i σ₁ ++ [.read l p v])) ∧
    (∀ e l p v σ, .write l p v ∉ Expr.accesses i e σ) ∧
    (∀ rounds b k e σ v σ₁ l σ₂ j σ₃ p, eval i e σ = .ok v σ₁ → eval i b σ₁ = .ok (.list l) σ₂ →
      eval i k σ₂ = .ok (.int j) σ₃ → p < (σ₃.items l).size → j.toInt = p ∨ j.toInt = p - (σ₃.items l).size →
      ∃ σ', runStmt rounds i (.assign (.index b k) e) σ = .ok none σ' ∧ σ₃.Writes (.element l p) v σ' ∧
        (Stmt.assign (.index b k) e).accesses rounds i σ =
          e.accesses i σ ++ (b.accesses i σ₁ ++ (k.accesses i σ₂ ++ [.write l p v]))) ∧
    (∀ rounds b k e σ signal σ', runStmt rounds i (.assign (.index b k) e) σ = .ok signal σ' →
      ∃ v l j p σ₁ σ₂ σ₃, eval i e σ = .ok v σ₁ ∧ eval i b σ₁ = .ok (.list l) σ₂ ∧
        eval i k σ₂ = .ok (.int j) σ₃ ∧ p < (σ₃.items l).size ∧
        (j.toInt = p ∨ j.toInt = p - (σ₃.items l).size)) ∧
    ∀ rounds b σ, Ends (runBlock rounds i b) σ (fun _ σ' => σ.Remembers (blockAccesses rounds i b σ) σ')
      (fun _ σ' => σ.Remembers (blockAccesses rounds i b σ) σ') := by
  refine ⟨fun b k σ base w σ₁ σ₂ xs hb hk hxs => ⟨?_, ?_, fun hw => eval_index_badIndex hb hk hxs hw⟩,
    fun b σ t σ₁ hb => string_read_back hb,
    fun b k σ l σ₁ j σ₂ p hb hk hp hj => list_element_read hb hk hp hj, fun e l p v σ => e.write_not_mem σ,
    fun rounds b k e σ v σ₁ l σ₂ j σ₃ p he hb hk hp hj => list_element_written rounds he hb hk hp hj,
    fun rounds b k e σ signal σ' h => exists_of_element_written h, fun rounds b σ => ?_⟩
  · rintro j rfl hlow hhigh
    have hp : (if 0 ≤ j.toInt then j.toInt else xs.length + j.toInt).toNat < xs.length := by
      split <;> omega
    refine ⟨_, List.getElem?_eq_getElem hp, eval_index_ok hb hk hxs (List.getElem?_eq_getElem hp) ?_⟩
    split <;> omega
  · rintro j rfl hj
    exact eval_index_outOfRange hb hk hxs hj
  · exact (runBlock_leads b σ).mono (fun _ _ h => h.remembers) (fun _ _ h => h.remembers)

/-- Two variables that are bound to one list. -/
def oneListTwice : Store :=
  ⟨(Scopes.empty.root.2.define ⟨0⟩ "x" (.list ⟨0⟩)).define ⟨0⟩ "y" (.list ⟨0⟩), #[#[.int 1, .null]], #[]⟩

/-- The list is stored in itself and written through itself: `x[-1] = y; y[1][0] = 7; return x[0];`. -/
def writeThroughSelf : List Stmt :=
  [.assign (.index (.var "x") (.constant (.int (-1)))) (.var "y"),
    .assign (.index (.index (.var "y") (.constant (.int 1))) (.constant (.int 0))) (.constant (.int 7)),
    .ret (some (.index (.var "x") (.constant (.int 0))))]

/-- The last read gives what was written through the list in the list, and at the end the list still holds itself. -/
theorem writeThroughSelf_remembered :
    ∃ u σ', runBlock 0 ⟨0⟩ writeThroughSelf oneListTwice = .ok (some (.ret u)) σ' ∧
      blockAccesses 0 ⟨0⟩ writeThroughSelf oneListTwice =
        [.write ⟨0⟩ 1 (.list ⟨0⟩), .read ⟨0⟩ 1 (.list ⟨0⟩), .write ⟨0⟩ 0 (.int 7), .read ⟨0⟩ 0 u] ∧
      u = .int 7 ∧ (σ'.items ⟨0⟩)[1]? = some (.list ⟨0⟩) := by
  obtain ⟨_, _, _, _, _, _, hremembers⟩ := elements_read_as_written ⟨0⟩
  have hrun : ∃ u σ', runBlock 0 ⟨0⟩ writeThroughSelf oneListTwice = .ok (some (.ret u)) σ' ∧
      blockAccesses 0 ⟨0⟩ writeThroughSelf oneListTwice =
        [.write ⟨0⟩ 1 (.list ⟨0⟩), .read ⟨0⟩ 1 (.list ⟨0⟩), .write ⟨0⟩ 0 (.int 7), .read ⟨0⟩ 0 u] := ⟨_, _, rfl, rfl⟩
  obtain ⟨u, σ', hrun, haccesses⟩ := hrun
  have h := (hremembers 0 writeThroughSelf oneListTwice).of_ok hrun
  rw [haccesses] at h
  refine ⟨u, σ', hrun, haccesses, ?_, ?_⟩
  · exact h.written ⟨0⟩ 0 (.int 7) u [.write ⟨0⟩ 1 (.list ⟨0⟩), .read ⟨0⟩ 1 (.list ⟨0⟩)] [] [] rfl (by simp)
  · exact h.last ⟨0⟩ 1 (.list ⟨0⟩) [] _ rfl (by simp)

end ScriptEngine
