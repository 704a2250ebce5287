import ScriptEngine.Proofs.Grammar.Expr
import ScriptEngine.Proofs.Parser.Recorded

/-!
# What rules take and apply

No rule ever takes the end. What a rule applies, it applies to a smaller parser, or else to its own parser, and then
the other rule has a lower rank. So rules do not apply rules for ever.
-/

namespace ScriptEngine.Parser

open Outcome

/-- What the rule `r` may do when it is applied to `start`. -/
def Event.Allowed (r : Rule) (start : Parser) : Event → Prop
  | .takes q => q.hasTokens = true
  | .applies s q => q.size < start.size ∨ q = start ∧ s.rank < r.rank

/-- The record `x` comes to the outcome `o`, by what the rule `r` may do. -/
structure Records (r : Rule) (start : Parser) {α : Type} {p : Parser} {reads : Bool} (o : Outcome α p reads)
    (x : Recorded α) : Prop where
  result : (x p).result = o.result
  events : ∀ e ∈ (x p).events, e.Allowed r start

namespace Recorded

variable {α β : Type} {p q : Parser} {a : α} {e : Error} {x : Recorded α} {f : α → Recorded β}

theorem bind_of_ok (h : (x p).result = .ok a q) :
    (x >>= f) p = ⟨(x p).events ++ (f a q).events, (f a q).result⟩ := by
  change Recorded.bind x f p = _
  simp only [Recorded.bind, h]

theorem bind_of_error (h : (x p).result = .error e q) : (x >>= f) p = ⟨(x p).events, .error e q⟩ := by
  change Recorded.bind x f p = _
  simp only [Recorded.bind, h]

end Recorded

namespace Records

variable {α β : Type} {r : Rule} {start p : Parser} {reads first second : Bool}

theorem done {a : α} : Records r start (done a p) (pure a) where
  result := rfl
  events := List.forall_mem_nil _

theorem fail {e : Error} : Records r start (fail e p : Outcome α p reads) (Recorded.fail e) where
  result := rfl
  events := List.forall_mem_nil _

theorem look {o : Outcome α p reads} {f : Parser → Recorded α} (h : Records r start o (f p)) :
    Records r start o (Recorded.ahead >>= f) := ⟨h.result, h.events⟩

theorem relax {o : Outcome α p reads} {x : Recorded α} (h : Records r start o x) : Records r start o.relax x :=
  ⟨h.result.trans (result_relax o).symm, h.events⟩

theorem andThen {o : Outcome α p first} {k : (a : α) → (q : Parser) → Remains first q p → Outcome β q second}
    {x : Recorded α} {f : α → Recorded β} (ho : Records r start o x)
    (hk : ∀ a q h, Records r start (k a q h) (f a)) : Records r start (o.andThen k) (x >>= f) := by
  cases hr : o.result with
  | error e q =>
      have hx := Recorded.bind_of_error (f := f) (ho.result.trans hr)
      refine ⟨?_, ?_⟩
      · rw [hx, result_andThen_eq_error_iff.mpr (.inl hr)]
      · rw [hx]
        exact ho.events
  | ok a q =>
      have hx := Recorded.bind_of_ok (f := f) (ho.result.trans hr)
      have hf := hk a q (remains_of_result hr)
      refine ⟨?_, ?_⟩
      · rw [hx, result_andThen hr]
        exact hf.result
      · rw [hx]
        exact List.forall_mem_append.mpr ⟨ho.events, hf.events⟩

theorem map {f : α → β} {o : Outcome α p reads} {x : Recorded α} (h : Records r start o x) :
    Records r start (o.map f) (f <$> x) := by
  have hbind : Records r start (o.andThen fun a q _ => Outcome.done (f a) q) (x >>= fun a => pure (f a)) :=
    h.andThen fun _ _ _ => .done
  refine ⟨hbind.result.trans ?_, hbind.events⟩
  cases o <;> rfl

variable [Alphabet]

theorem take {l : Lexeme} (hl : p.current.lexeme = l) (h : l ≠ .eof) :
    Records r start p.take Recorded.take := by
  -- only at the end would it matter that one of the two looks at the token and the other does not
  have hkind : p.current.kind ≠ .eof := fun hk => h (hl ▸ Lexeme.eq_eof_of_kind hk)
  refine ⟨(result_take hkind).symm, fun e he => ?_⟩
  obtain rfl := List.mem_singleton.mp he
  simpa [Event.Allowed, hasTokens] using hkind

/-- A rule that is applied before anything is read. -/
theorem applyFirst (s : Rule) (h : s.rank < r.rank) : Records r p (s.outcome p) (Recorded.apply s) where
  result := rfl
  events := by
    intro e he
    obtain rfl := List.mem_singleton.mp he
    exact .inr ⟨rfl, h⟩

/-- A rule that is applied after something is read. -/
theorem applyLater (s : Rule) (h : p.size < start.size) :
    Records r start (s.outcome p) (Recorded.apply s) where
  result := rfl
  events := by
    intro e he
    obtain rfl := List.mem_singleton.mp he
    exact .inl h

theorem require (s : Symbol) : Records r start (p.require s) (Recorded.require s) := by
  unfold Parser.require Recorded.require
  refine .look ?_
  split
  · rename_i hs
    exact .take (sees_iff.mp hs) (by simp)
  · exact .fail

theorem takeName (e : Error) : Records r start (p.takeName e) (Recorded.takeName e) := by
  unfold Parser.takeName Recorded.takeName
  refine .look ?_
  cases hl : p.current.lexeme with
  | name n => exact .map (.take hl (by simp))
  | _ => exact .fail

theorem closeArguments : Records r start p.closeArguments Recorded.closeArguments := by
  unfold Parser.closeArguments Recorded.closeArguments
  refine .look ?_
  split
  · exact ⟨rfl, List.forall_mem_nil _⟩
  · exact .map (.require _)

/-! ## Types -/

theorem type (bp : Priority) (p : Parser) : Records (.type bp) p (p.type bp) (.ofRule (.type bp)) := by
  rw [Parser.type]
  refine .andThen (.applyFirst .typeName (by simp)) fun t q hq => ?_
  split
  · exact .applyLater (.listSuffixes t) (by omega)
  · exact .done

theorem typeName (p : Parser) : Records .typeName p p.typeName (.ofRule .typeName) := by
  rw [Parser.typeName]
  refine .look (.andThen (.takeName _) fun n q hq => .look ?_)
  split
  · refine .relax (.andThen (.require _) fun _ u hu => .look ?_)
    split
    · exact .map .closeArguments
    · exact .andThen (.applyLater .typeArguments (by omega)) fun ts v _ => .map .closeArguments
  · exact .done

theorem typeArguments (p : Parser) : Records .typeArguments p p.typeArguments (.ofRule .typeArguments) := by
  rw [Parser.typeArguments]
  refine .andThen (.applyFirst (.type .default) (by simp)) fun t q hq => .look ?_
  split
  · exact .relax (.andThen (.require _) fun _ u hu => .map (.applyLater .typeArguments (by omega)))
  · exact .done

theorem listSuffixes (t : Ty) (p : Parser) :
    Records (.listSuffixes t) p (p.listSuffixes t) (.ofRule (.listSuffixes t)) := by
  rw [Parser.listSuffixes]
  refine .look ?_
  split
  · refine .relax (.andThen (.require _) fun _ q hq => .andThen (.require _) fun _ u hu => ?_)
    exact .applyLater (.listSuffixes (.list t)) (by omega)
  · exact .done

/-! ## Expressions -/

theorem expr (bp : Priority) (p : Parser) : Records (.expr bp) p (p.expr bp) (.ofRule (.expr bp)) := by
  rw [Parser.expr]
  exact .andThen (.applyFirst .factor (by simp)) fun _ q hq => .map (.applyLater (.chain bp) (by omega))

theorem chain (bp : Priority) (p : Parser) : Records (.chain bp) p (p.chain bp) (.ofRule (.chain bp)) := by
  rw [Parser.chain]
  refine .look ?_
  cases hop : p.operator? bp with
  | none => exact .done
  | some op =>
      refine .relax (.andThen (.take (Grammar.lexeme_of_operator? hop) (by simp)) fun _ q hq => ?_)
      exact .andThen (.applyLater .factor (by omega)) fun e u hu => .map (.applyLater (.chain bp) (by omega))

theorem factor (p : Parser) : Records .factor p p.factor (.ofRule .factor) := by
  rw [Parser.factor]
  refine .look ?_
  cases hl : p.current.lexeme with
  | eof => exact .fail
  | constant l => exact .andThen (.take hl (by simp)) fun _ q hq => .applyLater (.suffixes (.constant l)) (by omega)
  | name n => exact .andThen (.take hl (by simp)) fun _ q hq => .applyLater (.suffixes (.var n)) (by omega)
  | symbol s =>
      dsimp only
      cases UnaryOp.ofSymbol? s with
      | some op => exact .andThen (.take hl (by simp)) fun _ q hq => .map (.applyLater .factor (by omega))
      | none =>
          dsimp only
          split
          · refine .andThen (.take hl (by simp)) fun _ q hq => ?_
            refine .andThen (.applyLater (.expr .default) (by omega)) fun e u hu => ?_
            exact .andThen (.require _) fun _ v hv => .applyLater (.suffixes e) (by omega)
          · exact .fail

theorem suffixes (e : Expr) (p : Parser) : Records (.suffixes e) p (p.suffixes e) (.ofRule (.suffixes e)) := by
  rw [Parser.suffixes]
  refine .look ?_
  split
  · refine .relax (.andThen (.require _) fun _ q hq => ?_)
    refine .andThen (.applyLater (.expr .default) (by omega)) fun i u hu => .andThen (.require _) fun _ v hv => ?_
    exact .applyLater (.suffixes (.index e i)) (by omega)
  · exact .done

/-! ## Statements -/

theorem decl (p : Parser) : Records .decl p p.decl (.ofRule .decl) := by
  unfold Parser.decl
  refine .look (.andThen (.takeName _) fun n q hq => .andThen (.require _) fun _ u hu => ?_)
  refine .andThen (.applyLater (.type .default) (by omega)) fun t v hv => .look ?_
  split
  · exact .relax (.andThen (.require _) fun _ w hw => .map (.applyLater (.expr .default) (by omega)))
  · exact .done

theorem decls (p : Parser) : Records .decls p p.decls (.ofRule .decls) := by
  rw [Parser.decls]
  refine .andThen (.applyFirst .decl (by simp)) fun d q hq => .look ?_
  split
  · exact .relax (.andThen (.require _) fun _ u hu => .map (.applyLater .decls (by omega)))
  · exact .done

theorem letStmt (p : Parser) : Records .letStmt p p.letStmt (.ofRule .letStmt) := by
  unfold Parser.letStmt
  refine .andThen (.require _) fun _ q hq => ?_
  exact .andThen (.applyLater .decls (by omega)) fun ds u _ => .map (.require _)

theorem returnStmt (p : Parser) : Records .returnStmt p p.returnStmt (.ofRule .returnStmt) := by
  unfold Parser.returnStmt
  refine .andThen (.require _) fun _ q hq => .look ?_
  split
  · exact .map (.require _)
  · exact .andThen (.applyLater (.expr .default) (by omega)) fun e u _ => .map (.require _)

theorem keywordStmt (keyword : Symbol) (s : Stmt) (p : Parser) :
    Records (.keywordStmt keyword s) p (p.keywordStmt keyword s) (.ofRule (.keywordStmt keyword s)) :=
  .andThen (.require _) fun _ _ _ => .map (.require _)

theorem simpleStmt (p : Parser) : Records .simpleStmt p p.simpleStmt (.ofRule .simpleStmt) := by
  unfold Parser.simpleStmt
  refine .andThen (.applyFirst (.expr .default) (by simp)) fun e q hq => .look ?_
  split
  · refine .andThen (.require _) fun _ u hu => ?_
    exact .andThen (.applyLater (.expr .default) (by omega)) fun v w _ => .map (.require _)
  · exact .map (.require _)

theorem stmt (p : Parser) : Records .stmt p p.stmt (.ofRule .stmt) := by
  rw [Parser.stmt.eq_def]
  refine .look ?_
  cases hl : p.current.lexeme with
  | symbol s =>
      -- the symbols with a form of their own; what starts with another is an expression or an assignment
      cases s with
      | semicolon => exact .map (.require _)
      | openBrace => exact .map (.applyFirst .block (by simp))
      | kwLet => exact .applyFirst .letStmt (by simp)
      | kwIf => exact .andThen (.require _) fun _ q hq => .map (.applyLater .arm (by omega))
      | kwWhile =>
          refine .andThen (.require _) fun _ q hq => ?_
          exact .andThen (.applyLater (.expr .default) (by omega)) fun e u hu => .map (.applyLater .block (by omega))
      | kwReturn => exact .applyFirst .returnStmt (by simp)
      | kwBreak => exact .applyFirst (.keywordStmt .kwBreak .break) (by simp)
      | kwContinue => exact .applyFirst (.keywordStmt .kwContinue .continue) (by simp)
      | _ => exact .applyFirst .simpleStmt (by simp)
  | _ => exact .applyFirst .simpleStmt (by simp)

theorem arm (p : Parser) : Records .arm p p.arm (.ofRule .arm) := by
  rw [Parser.arm]
  refine .andThen (.applyFirst (.expr .default) (by simp)) fun e q hq => ?_
  exact .andThen (.applyLater .block (by omega)) fun body u hu => .map (.applyLater .elses (by omega))

theorem elses (p : Parser) : Records .elses p p.elses (.ofRule .elses) := by
  rw [Parser.elses]
  refine .look ?_
  split
  · refine .relax (.andThen (.require _) fun _ q hq => .look ?_)
    split
    · exact .andThen (.require _) fun _ u hu => .applyLater .arm (by omega)
    · exact .map (.applyLater .block (by omega))
  · exact .done

theorem block (p : Parser) : Records .block p p.block (.ofRule .block) := by
  rw [Parser.block]
  refine .andThen (.require _) fun _ q hq => ?_
  exact .andThen (.applyLater .stmts (by omega)) fun body u _ => .map (.require _)

theorem stmts (p : Parser) : Records .stmts p p.stmts (.ofRule .stmts) := by
  rw [Parser.stmts]
  refine .look ?_
  split
  · exact .done
  · split
    · refine .relax (.andThen (.applyFirst .stmt (by simp)) fun s q hq => ?_)
      exact .map (.applyLater .stmts (by omega))
    · exact .fail

theorem stmtsToEnd (p : Parser) : Records .stmtsToEnd p p.stmtsToEnd (.ofRule .stmtsToEnd) := by
  rw [Parser.stmtsToEnd]
  refine .look ?_
  split
  · refine .relax (.andThen (.applyFirst .stmt (by simp)) fun s q hq => ?_)
    exact .map (.applyLater .stmtsToEnd (by omega))
  · exact .done

end Records

/-! ## All rules -/

variable [Alphabet]

/-- Every rule does what is written down for it. -/
theorem Rule.records (p : Parser) : (r : Rule) → Records r p (r.outcome p) (.ofRule r)
  | .type bp => .type bp p
  | .typeName => .typeName p
  | .typeArguments => .typeArguments p
  | .listSuffixes t => .listSuffixes t p
  | .expr bp => .expr bp p
  | .chain bp => .chain bp p
  | .factor => .factor p
  | .suffixes e => .suffixes e p
  | .decl => .decl p
  | .decls => .decls p
  | .letStmt => .letStmt p
  | .returnStmt => .returnStmt p
  | .keywordStmt keyword s => .keywordStmt keyword s p
  | .simpleStmt => .simpleStmt p
  | .stmt => .stmt p
  | .arm => .arm p
  | .elses => .elses p
  | .block => .block p
  | .stmts => .stmts p
  | .stmtsToEnd => .stmtsToEnd p

/-- The first pair of a rule and a parser is one that the second applies: as one of its parts, or as the next round
of a loop. -/
def Calls (callee caller : Rule × Parser) : Prop :=
  .applies callee.1 callee.2 ∈ (Recorded.ofRule caller.1 caller.2).events

theorem Calls.descends {callee caller : Rule × Parser} (h : Calls callee caller) :
    Prod.Lex (· < ·) (· < ·) (callee.2.size, callee.1.rank) (caller.2.size, caller.1.rank) := by
  rcases (Rule.records caller.2 caller.1).events _ h with hsize | ⟨hsame, hrank⟩
  · exact .left _ _ hsize
  · rw [hsame]
    exact .right _ hrank

theorem wellFounded_calls : WellFounded Calls :=
  Subrelation.wf Calls.descends
    (InvImage.wf (fun c : Rule × Parser => (c.2.size, c.1.rank)) (Prod.lex Nat.lt_wfRel Nat.lt_wfRel).wf)

end ScriptEngine.Parser
