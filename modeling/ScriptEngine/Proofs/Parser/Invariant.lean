import ScriptEngine.Parser.Rules

/-!
# Invariants of parsing

A rule of the grammar changes a parser in two ways: it takes the token ahead, or it takes the first half of
a `>>`. It fails with the error of a token that is refused while reading, or with one about the token ahead.
So what these steps keep, every rule keeps, and what holds of these errors holds of all.
-/

namespace ScriptEngine

/-- A value leaves a parser in `I`, and an error is in `E`. -/
def Outcome.Keeps {α : Type} {p : Parser} {reads : Bool} (I : Parser → Prop) (E : Error → Prop) :
    Outcome α p reads → Prop
  | .ok _ q _ => I q
  | .error e _ _ => E e

namespace Outcome.Keeps

variable {α β : Type} {p : Parser} {reads first second : Bool} {I : Parser → Prop} {E : Error → Prop}

theorem map {f : α → β} {o : Outcome α p reads} (h : o.Keeps I E) : (o.map f).Keeps I E := by
  cases o <;> exact h

theorem relax {o : Outcome α p reads} (h : o.Keeps I E) : o.relax.Keeps I E := by
  cases o <;> exact h

theorem andThen {o : Outcome α p first}
    {k : (a : α) → (q : Parser) → Remains first q p → Outcome β q second} (ho : o.Keeps I E)
    (hk : ∀ a q h, I q → (k a q h).Keeps I E) : (o.andThen k).Keeps I E := by
  cases o with
  | error e q h => exact ho
  | ok a q h =>
      have := hk a q h ho
      simp only [Outcome.andThen]
      cases hr : k a q h <;> simpa [hr, Keeps] using this

theorem of_result_ok {o : Outcome α p reads} {a : α} {q : Parser} (h : o.Keeps I E)
    (ho : o.result = .ok a q) : I q := by
  cases o <;> cases ho
  exact h

theorem of_result_error {o : Outcome α p reads} {e : Error} {q : Parser} (h : o.Keeps I E)
    (ho : o.result = .error e q) : E e := by
  cases o <;> cases ho
  exact h

end Outcome.Keeps

namespace Parser

open Outcome

variable [Alphabet]

/-- The property `I` of parsers is kept by every step of a rule, and errors about the token ahead, like
those of reading, are in `E`. -/
structure Invariant (I : Parser → Prop) (E : Error → Prop) : Prop where
  read : ∀ {p t c}, I p → p.cursor.next = .ok t c → I ⟨c, t⟩
  refused : ∀ {p e c}, I p → p.cursor.next = .error e c → E e
  half : ∀ {p}, I p → I p.splitShift
  unexpected : ∀ {p}, I p → E p.unexpected
  expected : ∀ {p} what, I p → E (p.expected what)

namespace Invariant

variable {I : Parser → Prop} {E : Error → Prop}

theorem advance (h : Invariant I E) {p : Parser} (hp : I p) :
    match Parser.advance p with
    | .ok _ q => I q
    | .error e _ => E e := by
  unfold Parser.advance
  cases hn : p.cursor.next with
  | ok t c => exact h.read hp hn
  | error e c => exact h.refused hp hn

theorem take (h : Invariant I E) {p : Parser} (hp : I p) : p.take.Keeps I E := by
  have hadvance := h.advance hp
  unfold Parser.take
  split
  · exact h.unexpected hp
  · split
    · rename_i ha
      rw [ha] at hadvance
      exact hadvance
    · rename_i ha
      rw [ha] at hadvance
      exact hadvance

theorem require (h : Invariant I E) {p : Parser} (s : Symbol) (hp : I p) : (p.require s).Keeps I E := by
  unfold Parser.require
  split
  · exact h.take hp
  · exact h.expected _ hp

theorem takeName (h : Invariant I E) {p : Parser} {e : Error} (he : E e) (hp : I p) : (p.takeName e).Keeps I E := by
  unfold Parser.takeName
  split
  · exact (h.take hp).map
  · exact he

theorem closeArguments (h : Invariant I E) {p : Parser} (hp : I p) : p.closeArguments.Keeps I E := by
  unfold Parser.closeArguments
  split
  · exact h.half hp
  · exact (h.require _ hp).map

/-! ## Types -/

theorem listSuffixes (h : Invariant I E) {p : Parser} (t : Ty) (hp : I p) : (listSuffixes t p).Keeps I E := by
  rw [Parser.listSuffixes]
  split
  · refine .relax (.andThen (h.require _ hp) fun _ q _ hq => ?_)
    refine .andThen (h.require _ hq) fun _ r _ hr => ?_
    exact h.listSuffixes _ hr
  · exact hp
termination_by p.size

mutual

theorem type (h : Invariant I E) {p : Parser} (bp : Priority) (hp : I p) : (p.type bp).Keeps I E := by
  rw [Parser.type]
  refine .andThen (h.typeName hp) fun t q _ hq => ?_
  split
  · exact h.listSuffixes t hq
  · exact hq
termination_by 2 * p.size + 1

theorem typeName (h : Invariant I E) {p : Parser} (hp : I p) : p.typeName.Keeps I E := by
  rw [Parser.typeName]
  refine .andThen (h.takeName (h.unexpected hp) hp) fun n q _ hq => ?_
  split
  · refine .relax (.andThen (h.require _ hq) fun _ r _ hr => ?_)
    split
    · exact (h.closeArguments hr).map
    · exact .andThen (h.typeArguments hr) fun ts s _ hs => (h.closeArguments hs).map
  · exact hq
termination_by 2 * p.size

theorem typeArguments (h : Invariant I E) {p : Parser} (hp : I p) : p.typeArguments.Keeps I E := by
  rw [Parser.typeArguments]
  refine .andThen (h.type .default hp) fun t q _ hq => ?_
  split
  · exact .relax (.andThen (h.require _ hq) fun _ r _ hr => (h.typeArguments hr).map)
  · exact hq
termination_by 2 * p.size + 2

end

/-! ## Expressions -/

mutual

theorem expr (h : Invariant I E) {p : Parser} (bp : Priority) (hp : I p) : (p.expr bp).Keeps I E := by
  rw [Parser.expr]
  exact .andThen (h.factor hp) fun _ q _ hq => (h.chain bp hq).map
termination_by 2 * p.size + 1

theorem chain (h : Invariant I E) {p : Parser} (bp : Priority) (hp : I p) : (p.chain bp).Keeps I E := by
  rw [Parser.chain]
  split
  · refine .relax (.andThen (h.take hp) fun _ q _ hq => ?_)
    refine .andThen (h.factor hq) fun _ r _ hr => ?_
    exact (h.chain bp hr).map
  · exact hp
termination_by 2 * p.size

theorem factor (h : Invariant I E) {p : Parser} (hp : I p) : p.factor.Keeps I E := by
  rw [Parser.factor]
  split
  · exact .andThen (h.take hp) fun _ q _ hq => h.suffixes _ hq
  · exact .andThen (h.take hp) fun _ q _ hq => h.suffixes _ hq
  · split
    · exact .andThen (h.take hp) fun _ q _ hq => (h.factor hq).map
    · split
      · refine .andThen (h.take hp) fun _ q _ hq => ?_
        refine .andThen (h.expr .default hq) fun e r _ hr => ?_
        exact .andThen (h.require _ hr) fun _ s _ hs => h.suffixes e hs
      · exact h.unexpected hp
  · exact h.unexpected hp
termination_by 2 * p.size

theorem suffixes (h : Invariant I E) {p : Parser} (e : Expr) (hp : I p) : (suffixes e p).Keeps I E := by
  rw [Parser.suffixes]
  split
  · refine .relax (.andThen (h.require _ hp) fun _ q _ hq => ?_)
    refine .andThen (h.expr .default hq) fun i r _ hr => ?_
    exact .andThen (h.require _ hr) fun _ s _ hs => h.suffixes _ hs
  · exact hp
termination_by 2 * p.size

end

/-! ## Statements -/

theorem decl (h : Invariant I E) {p : Parser} (hp : I p) : p.decl.Keeps I E := by
  unfold Parser.decl
  refine .andThen (h.takeName (h.expected _ hp) hp) fun n q _ hq => ?_
  refine .andThen (h.require _ hq) fun _ r _ hr => ?_
  refine .andThen (h.type _ hr) fun t s _ hs => ?_
  split
  · exact .relax (.andThen (h.require _ hs) fun _ u _ hu => (h.expr _ hu).map)
  · exact hs

theorem decls (h : Invariant I E) {p : Parser} (hp : I p) : p.decls.Keeps I E := by
  rw [Parser.decls]
  refine .andThen (h.decl hp) fun d q _ hq => ?_
  split
  · exact .relax (.andThen (h.require _ hq) fun _ r _ hr => (h.decls hr).map)
  · exact hq
termination_by p.size

theorem letStmt (h : Invariant I E) {p : Parser} (hp : I p) : p.letStmt.Keeps I E := by
  unfold Parser.letStmt
  refine .andThen (h.require _ hp) fun _ q _ hq => ?_
  exact .andThen (h.decls hq) fun ds r _ hr => (h.require _ hr).map

theorem returnStmt (h : Invariant I E) {p : Parser} (hp : I p) : p.returnStmt.Keeps I E := by
  unfold Parser.returnStmt
  refine .andThen (h.require _ hp) fun _ q _ hq => ?_
  split
  · exact (h.require _ hq).map
  · exact .andThen (h.expr _ hq) fun e r _ hr => (h.require _ hr).map

theorem keywordStmt (h : Invariant I E) {p : Parser} (keyword : Symbol) (s : Stmt) (hp : I p) :
    (p.keywordStmt keyword s).Keeps I E :=
  .andThen (h.require _ hp) fun _ _ _ hq => (h.require _ hq).map

theorem simpleStmt (h : Invariant I E) {p : Parser} (hp : I p) : p.simpleStmt.Keeps I E := by
  unfold Parser.simpleStmt
  refine .andThen (h.expr _ hp) fun e q _ hq => ?_
  split
  · refine .andThen (h.require _ hq) fun _ r _ hr => ?_
    exact .andThen (h.expr _ hr) fun v s _ hs => (h.require _ hs).map
  · exact (h.require _ hq).map

mutual

theorem stmt (h : Invariant I E) {p : Parser} (hp : I p) : p.stmt.Keeps I E := by
  rw [Parser.stmt.eq_def]
  split
  · exact (h.require _ hp).map
  · exact (h.block hp).map
  · exact h.letStmt hp
  · exact .andThen (h.require _ hp) fun _ q _ hq => (h.arm hq).map
  · refine .andThen (h.require _ hp) fun _ q _ hq => ?_
    exact .andThen (h.expr _ hq) fun e r _ hr => (h.block hr).map
  · exact h.returnStmt hp
  · exact h.keywordStmt _ _ hp
  · exact h.keywordStmt _ _ hp
  · exact h.simpleStmt hp
termination_by 3 * p.size + 1

theorem arm (h : Invariant I E) {p : Parser} (hp : I p) : p.arm.Keeps I E := by
  rw [Parser.arm]
  refine .andThen (h.expr _ hp) fun e q _ hq => ?_
  exact .andThen (h.block hq) fun body r _ hr => (h.elses hr).map
termination_by 3 * p.size

theorem elses (h : Invariant I E) {p : Parser} (hp : I p) : p.elses.Keeps I E := by
  rw [Parser.elses]
  split
  · refine .relax (.andThen (h.require _ hp) fun _ q _ hq => ?_)
    split
    · exact .andThen (h.require _ hq) fun _ r _ hr => h.arm hr
    · exact (h.block hq).map
  · exact hp
termination_by 3 * p.size

theorem block (h : Invariant I E) {p : Parser} (hp : I p) : p.block.Keeps I E := by
  rw [Parser.block]
  refine .andThen (h.require _ hp) fun _ q _ hq => ?_
  exact .andThen (h.stmts hq) fun body r _ hr => (h.require _ hr).map
termination_by 3 * p.size

theorem stmts (h : Invariant I E) {p : Parser} (hp : I p) : p.stmts.Keeps I E := by
  rw [Parser.stmts]
  split
  · exact hp
  · split
    · exact .relax (.andThen (h.stmt hp) fun s q _ hq => (h.stmts hq).map)
    · exact h.unexpected hp
termination_by 3 * p.size + 2

end

theorem stmtsToEnd (h : Invariant I E) {p : Parser} (hp : I p) : p.stmtsToEnd.Keeps I E := by
  rw [Parser.stmtsToEnd]
  split
  · exact .relax (.andThen (h.stmt hp) fun s q _ hq => (h.stmtsToEnd hq).map)
  · exact hp
termination_by p.size

/-! ## Texts -/

/-- What holds at the start of a text, or of the error of reading it, carries over to the error of a rule that
is run from there. -/
theorem onText {α : Type} {rule : EStateM Error Parser α} {source : String} {e : Error}
    (hstart : ∀ t c, (Cursor.ofText source).next = .ok t c → I ⟨c, t⟩)
    (hrefused : ∀ e c, (Cursor.ofText source).next = .error e c → E e)
    (hrule : ∀ p e q, I p → rule p = .error e q → E e) (he : Parser.onText rule source = .error e) :
    E e := by
  unfold Parser.onText Parser.ofText at he
  cases hn : (Cursor.ofText source).next with
  | error e' c =>
      simp only [hn, Except.error.injEq] at he
      exact he ▸ hrefused e' c hn
  | ok t c =>
      simp only [hn] at he
      cases hr : rule ⟨c, t⟩ with
      | ok a q =>
          rw [hr] at he
          cases he
      | error e' q =>
          rw [hr] at he
          cases he
          exact hrule _ _ _ (hstart t c hn) hr

theorem readProgram (h : Invariant I E) {p q : Parser} {e : Error} (hp : I p)
    (he : Parser.readProgram p = .error e q) : E e :=
  (h.stmtsToEnd hp).of_result_error he

theorem readWholeExpr (h : Invariant I E) {p q : Parser} {e : Error} (hp : I p)
    (he : Parser.readWholeExpr p = .error e q) : E e := by
  unfold Parser.readWholeExpr Parser.readExpr at he
  have hexpr := h.expr .default hp
  split at he
  · rename_i hr
    split at he
    · cases he
      exact h.unexpected (hexpr.of_result_ok hr)
    · cases he
  · rename_i hr
    cases he
    exact hexpr.of_result_error hr

end Invariant

end Parser

end ScriptEngine
