import ScriptEngine.Parser.Rules
import ScriptEngine.Proofs.Grammar.Reads

/-!
# One token of lookahead

What a rule of the grammar does next depends on the token ahead and on nothing after it. So on two texts that
start with the same lexemes, a rule runs in lockstep as long as it is within them: where it fails on the one, it
fails on the other.
-/

namespace ScriptEngine

open Outcome

variable [Alphabet]

namespace Parser

/-- The lexemes ahead of `p` and `p'` are the same, up to where less than `n` is left of `p` after one. -/
inductive Alike (n : Nat) : Parser → Parser → Prop where
  | last {p p' q : Parser} {l : Lexeme} : Takes p l q → p'.current.lexeme = l → p.cursor.rest.length < n →
      Alike n p p'
  | step {p p' q q' : Parser} {l : Lexeme} : Takes p l q → Takes p' l q' → Alike n q q' → Alike n p p'

variable {n : Nat} {p p' q q' : Parser} {l : Lexeme}

theorem Takes.size_le (h : Takes p l q) : q.size ≤ p.cursor.rest.length := by
  obtain ⟨_, _, hn⟩ := takes_iff.mp h
  exact Cursor.weight_le_of_next hn

namespace Alike

theorem lexeme (h : Alike n p p') : p'.current.lexeme = p.current.lexeme := by
  cases h with
  | last ht hl _ => rw [hl, ht.lexeme]
  | step ht ht' _ => rw [ht'.lexeme, ht.lexeme]

theorem sees (h : Alike n p p') (s : Symbol) : p'.sees s = p.sees s := by
  unfold Parser.sees Token.kind
  rw [h.lexeme]

theorem hasTokens (h : Alike n p p') : p'.hasTokens = p.hasTokens := by
  unfold Parser.hasTokens Token.kind
  rw [h.lexeme]

theorem operator? (h : Alike n p p') (bp : Priority) : p'.operator? bp = p.operator? bp := by
  unfold Parser.operator?
  rw [h.lexeme]

theorem closesArguments (h : Alike n p p') : p'.closesArguments = p.closesArguments := by
  unfold Parser.closesArguments
  rw [h.sees, h.sees]

theorem splitShift (h : Alike n p p') (hs : p.sees .shiftRight = true) : Alike n p.splitShift p'.splitShift := by
  have hs' : p'.sees .shiftRight = true := by rw [h.sees, hs]
  cases h with
  | last ht hl hn =>
      cases ht.lexeme.symm.trans (sees_iff.mp hs)
      refine .last ((takes_splitShift_iff hs).mpr ⟨rfl, ht⟩) ?_ ?_
      · rw [Parser.splitShift, if_pos hs']
      · rwa [Parser.splitShift, if_pos hs]
  | step ht ht' h =>
      cases ht.lexeme.symm.trans (sees_iff.mp hs)
      exact .step ((takes_splitShift_iff hs).mpr ⟨rfl, ht⟩) ((takes_splitShift_iff hs').mpr ⟨rfl, ht'⟩) h

end Alike

end Parser

open ScriptEngine.Parser

/-- As long as at least `n` is left, `o'` does what `o` does: it ends with a value where that does and then sees
the same, and it fails where that fails. -/
def Outcome.Tracks {α β : Type} {p p' : Parser} {reads reads' : Bool} (n : Nat) (o : Outcome α p reads)
    (o' : Outcome β p' reads') : Prop :=
  (∀ a q, o.result = .ok a q → n ≤ q.size → ∃ b q', o'.result = .ok b q' ∧ Alike n q q') ∧
  ∀ e q, o.result = .error e q → n ≤ q.size → ∃ e' q', o'.result = .error e' q'

namespace Outcome

variable {α α' β β' : Type} {n : Nat} {p p' : Parser} {reads first second : Bool}

namespace Tracks

theorem done {a : α} {b : β} (h : Alike n p p') : Tracks n (done a p) (done b p') := by
  refine ⟨fun a q hq _ => ?_, fun e q he => nomatch he⟩
  cases hq
  exact ⟨b, p', rfl, h⟩

theorem fail {e e' : Error} :
    Tracks n (fail e p : Outcome α p first) (fail e' p' : Outcome β p' second) :=
  ⟨fun _ _ hq => (nomatch hq), fun _ _ _ _ => ⟨e', p', rfl⟩⟩

theorem map {f : α → β} {f' : α' → β'} {o : Outcome α p reads} {o' : Outcome α' p' reads}
    (h : Tracks n o o') : Tracks n (o.map f) (o'.map f') := by
  constructor
  · intro b q hq hn
    obtain ⟨a, ha, _⟩ := result_map_eq_ok_iff.mp hq
    obtain ⟨a', q', ha', hq'⟩ := h.1 a q ha hn
    exact ⟨f' a', q', result_map f' ha', hq'⟩
  · intro e q he hn
    rw [result_map_eq_error_iff] at he
    obtain ⟨e', q', he'⟩ := h.2 e q he hn
    exact ⟨e', q', result_map_eq_error_iff.mpr he'⟩

theorem relax {o : Outcome α p reads} {o' : Outcome β p' reads} (h : Tracks n o o') :
    Tracks n o.relax o'.relax := by
  unfold Tracks
  simp only [result_relax]
  exact h

theorem andThen {o : Outcome α p first} {o' : Outcome α' p' first}
    {k : (a : α) → (q : Parser) → Remains first q p → Outcome β q second}
    {k' : (a : α') → (q : Parser) → Remains first q p' → Outcome β' q second} (ho : Tracks n o o')
    (hk : ∀ a q h a' q' h', Alike n q q' → Tracks n (k a q h) (k' a' q' h')) :
    Tracks n (o.andThen k) (o'.andThen k') := by
  constructor
  · intro b r hr hn
    obtain ⟨a, q, h, ha, hb⟩ := result_andThen_eq_ok_iff.mp hr
    obtain ⟨a', q', ha', halike⟩ := ho.1 a q ha (Nat.le_trans hn (size_le_of_result hb))
    rw [result_andThen ha']
    exact (hk a q h a' q' _ halike).1 b r hb hn
  · intro e r hr hn
    rcases result_andThen_eq_error_iff.mp hr with he | ⟨a, q, h, ha, he⟩
    · obtain ⟨e', q', he'⟩ := ho.2 e r he hn
      exact ⟨e', q', result_andThen_eq_error_iff.mpr (.inl he')⟩
    · obtain ⟨a', q', ha', halike⟩ := ho.1 a q ha (Nat.le_trans hn (size_le_of_error he))
      rw [result_andThen ha']
      exact (hk a q h a' q' _ halike).2 e r he hn

end Tracks

end Outcome

namespace Parser

variable {n : Nat} {p p' : Parser}

namespace Alike

theorem take (h : Alike n p p') : Tracks n p.take p'.take := by
  cases h with
  | @last _ _ q _ ht _ hn =>
      have hsize := ht.size_le
      obtain ⟨_, t, hq⟩ := ht
      rw [Tracks, hq]
      refine ⟨fun a r hr hle => ?_, fun e r he => nomatch he⟩
      cases hr
      omega
  | step ht ht' h =>
      obtain ⟨_, t, hq⟩ := ht
      obtain ⟨_, t', hq'⟩ := ht'
      rw [Tracks, hq]
      refine ⟨fun a r hr _ => ?_, fun e r he => nomatch he⟩
      cases hr
      exact ⟨t', _, hq', h⟩

theorem require (h : Alike n p p') (s : Symbol) : Tracks n (p.require s) (p'.require s) := by
  unfold Parser.require
  rw [h.sees]
  split
  · exact h.take
  · exact .fail

theorem takeName (h : Alike n p p') (e e' : Error) : Tracks n (p.takeName e) (p'.takeName e') := by
  unfold Parser.takeName
  rw [h.lexeme]
  split
  · exact h.take.map
  · exact .fail

theorem closeArguments (h : Alike n p p') : Tracks n p.closeArguments p'.closeArguments := by
  unfold Parser.closeArguments
  by_cases hs : p.sees .shiftRight = true
  · have hs' : p'.sees .shiftRight = true := by rw [h.sees, hs]
    rw [dif_pos hs, dif_pos hs']
    refine ⟨fun a q hq _ => ?_, fun e q he => nomatch he⟩
    cases hq
    exact ⟨(), _, rfl, h.splitShift hs⟩
  · have hs' : ¬p'.sees .shiftRight = true := by rwa [h.sees]
    rw [dif_neg hs, dif_neg hs']
    exact (h.require _).map

/-! ## Types -/

theorem listSuffixes {n : Nat} {p p' : Parser} (h : Alike n p p') (t t' : Ty) :
    Tracks n (listSuffixes t p) (listSuffixes t' p') := by
  rw [Parser.listSuffixes, Parser.listSuffixes, h.sees]
  split
  · refine .relax (.andThen (h.require _) fun _ q _ _ q' _ hq => ?_)
    exact .andThen (hq.require _) fun _ r _ _ r' _ hr => hr.listSuffixes _ _
  · exact .done h
termination_by p.size

mutual

theorem type {n : Nat} {p p' : Parser} (h : Alike n p p') (bp : Priority) : Tracks n (p.type bp) (p'.type bp) := by
  rw [Parser.type, Parser.type]
  refine .andThen h.typeName fun t q _ t' q' _ hq => ?_
  split
  · exact hq.listSuffixes t t'
  · exact .done hq
termination_by 2 * p.size + 1

theorem typeName {n : Nat} {p p' : Parser} (h : Alike n p p') : Tracks n p.typeName p'.typeName := by
  rw [Parser.typeName, Parser.typeName]
  refine .andThen (h.takeName _ _) fun _ q _ _ q' _ hq => ?_
  rw [hq.sees]
  split
  · refine .relax (.andThen (hq.require _) fun _ r _ _ r' _ hr => ?_)
    rw [hr.closesArguments]
    split
    · exact hr.closeArguments.map
    · exact .andThen hr.typeArguments fun _ s _ _ s' _ hs => hs.closeArguments.map
  · exact .done hq
termination_by 2 * p.size

theorem typeArguments {n : Nat} {p p' : Parser} (h : Alike n p p') :
    Tracks n p.typeArguments p'.typeArguments := by
  rw [Parser.typeArguments, Parser.typeArguments]
  refine .andThen (h.type _) fun _ q _ _ q' _ hq => ?_
  rw [hq.sees]
  split
  · exact .relax (.andThen (hq.require _) fun _ r _ _ r' _ hr => hr.typeArguments.map)
  · exact .done hq
termination_by 2 * p.size + 2

end

/-! ## Expressions -/

mutual

theorem expr {n : Nat} {p p' : Parser} (h : Alike n p p') (bp : Priority) : Tracks n (p.expr bp) (p'.expr bp) := by
  rw [Parser.expr, Parser.expr]
  exact .andThen h.factor fun _ q _ _ q' _ hq => (hq.chain bp).map
termination_by 2 * p.size + 1

theorem chain {n : Nat} {p p' : Parser} (h : Alike n p p') (bp : Priority) :
    Tracks n (p.chain bp) (p'.chain bp) := by
  rw [Parser.chain, Parser.chain, h.operator?]
  split
  · refine .relax (.andThen h.take fun _ q _ _ q' _ hq => ?_)
    exact .andThen hq.factor fun _ r _ _ r' _ hr => (hr.chain bp).map
  · exact .done h
termination_by 2 * p.size

theorem factor {n : Nat} {p p' : Parser} (h : Alike n p p') : Tracks n p.factor p'.factor := by
  rw [Parser.factor, Parser.factor, h.lexeme]
  split
  · exact .andThen h.take fun _ q _ _ q' _ hq => hq.suffixes _ _
  · exact .andThen h.take fun _ q _ _ q' _ hq => hq.suffixes _ _
  · split
    · exact .andThen h.take fun _ q _ _ q' _ hq => hq.factor.map
    · split
      · refine .andThen h.take fun _ q _ _ q' _ hq => ?_
        refine .andThen (hq.expr _) fun _ r _ _ r' _ hr => ?_
        exact .andThen (hr.require _) fun _ s _ _ s' _ hs => hs.suffixes _ _
      · exact .fail
  · exact .fail
termination_by 2 * p.size

theorem suffixes {n : Nat} {p p' : Parser} (h : Alike n p p') (a a' : Expr) :
    Tracks n (suffixes a p) (suffixes a' p') := by
  rw [Parser.suffixes, Parser.suffixes, h.sees]
  split
  · refine .relax (.andThen (h.require _) fun _ q _ _ q' _ hq => ?_)
    refine .andThen (hq.expr _) fun _ r _ _ r' _ hr => ?_
    exact .andThen (hr.require _) fun _ s _ _ s' _ hs => hs.suffixes _ _
  · exact .done h
termination_by 2 * p.size

end

/-! ## Statements -/

theorem decl (h : Alike n p p') : Tracks n p.decl p'.decl := by
  unfold Parser.decl
  refine .andThen (h.takeName _ _) fun _ q _ _ q' _ hq => ?_
  refine .andThen (hq.require _) fun _ r _ _ r' _ hr => ?_
  refine .andThen (hr.type _) fun _ s _ _ s' _ hs => ?_
  rw [hs.sees]
  split
  · exact .relax (.andThen (hs.require _) fun _ u _ _ u' _ hu => (hu.expr _).map)
  · exact .done hs

theorem decls {n : Nat} {p p' : Parser} (h : Alike n p p') : Tracks n p.decls p'.decls := by
  rw [Parser.decls, Parser.decls]
  refine .andThen h.decl fun _ q _ _ q' _ hq => ?_
  rw [hq.sees]
  split
  · exact .relax (.andThen (hq.require _) fun _ r _ _ r' _ hr => hr.decls.map)
  · exact .done hq
termination_by p.size

theorem letStmt (h : Alike n p p') : Tracks n p.letStmt p'.letStmt := by
  unfold Parser.letStmt
  refine .andThen (h.require _) fun _ q _ _ q' _ hq => ?_
  exact .andThen hq.decls fun _ r _ _ r' _ hr => (hr.require _).map

theorem returnStmt (h : Alike n p p') : Tracks n p.returnStmt p'.returnStmt := by
  unfold Parser.returnStmt
  refine .andThen (h.require _) fun _ q _ _ q' _ hq => ?_
  rw [hq.sees]
  split
  · exact (hq.require _).map
  · exact .andThen (hq.expr _) fun _ r _ _ r' _ hr => (hr.require _).map

theorem keywordStmt (h : Alike n p p') (keyword : Symbol) (s : Stmt) :
    Tracks n (p.keywordStmt keyword s) (p'.keywordStmt keyword s) :=
  .andThen (h.require _) fun _ _ _ _ _ _ hq => (hq.require _).map

theorem simpleStmt (h : Alike n p p') : Tracks n p.simpleStmt p'.simpleStmt := by
  unfold Parser.simpleStmt
  refine .andThen (h.expr _) fun _ q _ _ q' _ hq => ?_
  rw [hq.sees]
  split
  · refine .andThen (hq.require _) fun _ r _ _ r' _ hr => ?_
    exact .andThen (hr.expr _) fun _ s _ _ s' _ hs => (hs.require _).map
  · exact (hq.require _).map

mutual

theorem stmt {n : Nat} {p p' : Parser} (h : Alike n p p') : Tracks n p.stmt p'.stmt := by
  rw [Parser.stmt, Parser.stmt, h.lexeme]
  split
  · exact (h.require _).map
  · exact h.block.map
  · exact h.letStmt
  · exact .andThen (h.require _) fun _ q _ _ q' _ hq => hq.arm.map
  · refine .andThen (h.require _) fun _ q _ _ q' _ hq => ?_
    exact .andThen (hq.expr _) fun _ r _ _ r' _ hr => hr.block.map
  · exact h.returnStmt
  · exact h.keywordStmt _ _
  · exact h.keywordStmt _ _
  · exact h.simpleStmt
termination_by 3 * p.size + 1

theorem arm {n : Nat} {p p' : Parser} (h : Alike n p p') : Tracks n p.arm p'.arm := by
  rw [Parser.arm, Parser.arm]
  refine .andThen (h.expr _) fun _ q _ _ q' _ hq => ?_
  exact .andThen hq.block fun _ r _ _ r' _ hr => hr.elses.map
termination_by 3 * p.size

theorem elses {n : Nat} {p p' : Parser} (h : Alike n p p') : Tracks n p.elses p'.elses := by
  rw [Parser.elses, Parser.elses, h.sees]
  split
  · refine .relax (.andThen (h.require _) fun _ q _ _ q' _ hq => ?_)
    rw [hq.sees]
    split
    · exact .andThen (hq.require _) fun _ r _ _ r' _ hr => hr.arm
    · exact hq.block.map
  · exact .done h
termination_by 3 * p.size

theorem block {n : Nat} {p p' : Parser} (h : Alike n p p') : Tracks n p.block p'.block := by
  rw [Parser.block, Parser.block]
  refine .andThen (h.require _) fun _ q _ _ q' _ hq => ?_
  exact .andThen hq.stmts fun _ r _ _ r' _ hr => (hr.require _).map
termination_by 3 * p.size

theorem stmts {n : Nat} {p p' : Parser} (h : Alike n p p') : Tracks n p.stmts p'.stmts := by
  rw [Parser.stmts, Parser.stmts, h.sees, h.hasTokens]
  split
  · exact .done h
  · split
    · exact .relax (.andThen h.stmt fun _ q _ _ q' _ hq => hq.stmts.map)
    · exact .fail
termination_by 3 * p.size + 2

end

theorem stmtsToEnd {n : Nat} {p p' : Parser} (h : Alike n p p') : Tracks n p.stmtsToEnd p'.stmtsToEnd := by
  rw [Parser.stmtsToEnd, Parser.stmtsToEnd, h.hasTokens]
  split
  · exact .relax (.andThen h.stmt fun _ q _ _ q' _ hq => hq.stmtsToEnd.map)
  · exact .done h
termination_by p.size

end Alike

end Parser

end ScriptEngine
