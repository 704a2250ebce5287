import ScriptEngine.Proofs.Grammar.Expr
import ScriptEngine.Proofs.Grammar.Program
import ScriptEngine.Proofs.Syntax.Precedence
import ScriptEngine.Text.Unicode

/-!
# Folding while reading

An expression is read in rounds. A round looks up how tightly the token ahead binds. If that is tighter than
asked for, it takes the token, reads a factor and puts both onto the spine; otherwise the spine is the
expression. What holds of the spine and of the token ahead before every round holds when the rounds are over.
-/

namespace ScriptEngine.Parser

open Outcome Grammar

variable {bp : Priority} {p q r : Parser} {e first : Expr} {chain rest : List (BinaryOp × Expr)} {s : Spine}

/-! ## The rounds -/

/-- The token ahead binds tighter than `bp`. -/
def BindsAhead (bp : Priority) (p : Parser) : Prop := ∃ pr, p.current.kind.priority? = some pr ∧ bp < pr

/-- From `p` the factor `first` and then the operators and factors of `chain` have been read in rounds, the
spine `s` has been built of them, and the parser is `q`. -/
inductive Rounds [Alphabet] (bp : Priority) (p : Parser) :
    (first : Expr) → (chain : List (BinaryOp × Expr)) → (s : Spine) → (q : Parser) → Prop where
  | start {first : Expr} {q : Parser} : p.factor.result = .ok first q → Rounds bp p first [] ⟨[], first⟩ q
  | round {first x : Expr} {chain : List (BinaryOp × Expr)} {s : Spine} {op : BinaryOp} {t : Token}
      {q m r : Parser} : Rounds bp p first chain s q → BindsAhead bp q → q.take.result = .ok t m →
      t.kind.binaryOp? = some op → m.factor.result = .ok x r →
      Rounds bp p first (chain ++ [(op, x)]) (s.push (op, x)) r

/-! ## The token after a factor -/

/-- Only the bracket of an index binds to what is before it without being an operator. -/
theorem priority?_of_not_sees (h : q.sees .openBracket = false) :
    q.current.kind.priority? = q.current.kind.binaryOp?.map BinaryOp.priority := by
  have hbracket : q.current.kind.continuesFactor = false := h
  simp [TokenKind.priority?, hbracket]

theorem operator?_eq_some_iff {op : BinaryOp} :
    q.operator? bp = some op ↔ q.current.kind.binaryOp? = some op ∧ bp < op.priority := by
  unfold operator? Token.kind TokenKind.binaryOp?
  cases q.current.lexeme with
  | symbol sym => simp [Lexeme.kind, Option.filter_eq_some_iff]
  | _ => simp [Lexeme.kind]

/-- What binds after a factor is an operator. -/
theorem bindsAhead_iff (h : q.sees .openBracket = false) :
    BindsAhead bp q ↔ ∃ op, q.operator? bp = some op := by
  unfold BindsAhead
  simp only [priority?_of_not_sees h, operator?_eq_some_iff, Option.map_eq_some_iff]
  constructor
  · rintro ⟨_, ⟨op, hop, rfl⟩, hbp⟩
    exact ⟨op, hop, hbp⟩
  · rintro ⟨op, hop, hbp⟩
    exact ⟨op.priority, ⟨op, hop, rfl⟩, hbp⟩

section

variable [Alphabet]

theorem not_sees_of_suffixes {p q : Parser} {e e' : Expr} (h : (suffixes e p).result = .ok e' q) :
    q.sees .openBracket = false := by
  rw [suffixes] at h
  split at h
  · rw [result_relax] at h
    obtain ⟨_, p₁, hp₁, _, h⟩ := result_andThen_eq_ok_iff.mp h
    obtain ⟨i, p₂, hp₂, _, h⟩ := result_andThen_eq_ok_iff.mp h
    obtain ⟨_, p₃, hp₃, _, h⟩ := result_andThen_eq_ok_iff.mp h
    exact not_sees_of_suffixes h
  · rename_i hsees
    cases h
    simpa using hsees
termination_by p.size

/-- A factor takes all indices after it. -/
theorem not_sees_of_factor {p q : Parser} {e : Expr} (h : p.factor.result = .ok e q) :
    q.sees .openBracket = false := by
  rw [factor] at h
  split at h
  · obtain ⟨_, p₁, _, _, h⟩ := result_andThen_eq_ok_iff.mp h
    exact not_sees_of_suffixes h
  · obtain ⟨_, p₁, _, _, h⟩ := result_andThen_eq_ok_iff.mp h
    exact not_sees_of_suffixes h
  · split at h
    · obtain ⟨_, p₁, hp₁, _, h⟩ := result_andThen_eq_ok_iff.mp h
      obtain ⟨_, h, _⟩ := result_map_eq_ok_iff.mp h
      exact not_sees_of_factor h
    · split at h
      · obtain ⟨_, p₁, _, _, h⟩ := result_andThen_eq_ok_iff.mp h
        obtain ⟨_, p₂, _, _, h⟩ := result_andThen_eq_ok_iff.mp h
        obtain ⟨_, p₃, _, _, h⟩ := result_andThen_eq_ok_iff.mp h
        exact not_sees_of_suffixes h
      · cases h
  · cases h
termination_by p.size

/-! ## What every round keeps -/

namespace Rounds

theorem not_sees (h : Rounds bp p first chain s q) : q.sees .openBracket = false := by
  cases h with
  | start hf => exact not_sees_of_factor hf
  | round _ _ _ _ hf => exact not_sees_of_factor hf

/-- A token that binds tighter than `bp` when a round starts is the operator that the round takes. -/
theorem operator (h : Rounds bp p first chain s q) {op : BinaryOp} {t : Token} {m : Parser}
    (hahead : BindsAhead bp q) (ht : q.take.result = .ok t m) (hop : t.kind.binaryOp? = some op) :
    q.operator? bp = some op := by
  obtain ⟨op', hop'⟩ := (bindsAhead_iff h.not_sees).mp hahead
  obtain ⟨hkind, _⟩ := operator?_eq_some_iff.mp hop'
  rw [(take_eq_ok_iff.mp ht).2.1, hkind] at hop
  rw [hop', hop]

theorem priorities (h : Rounds bp p first chain s q) : ∀ link ∈ chain, bp < link.1.priority := by
  induction h with
  | start _ => simp
  | round hrounds hahead ht hop _ ih =>
      intro link hlink
      rcases List.mem_append.mp hlink with hlink | hlink
      · exact ih link hlink
      · rw [List.mem_singleton.mp hlink]
        exact (operator?_eq_some_iff.mp (hrounds.operator hahead ht hop)).2

theorem spine_eq (h : Rounds bp p first chain s q) : s = Spine.ofChain first chain := by
  induction h with
  | start _ => rfl
  | round _ _ _ _ _ ih =>
      rw [ih]
      simp [Spine.ofChain]

theorem sorted (h : Rounds bp p first chain s q) : s.Sorted := by
  induction h with
  | start _ => exact List.Pairwise.nil
  | round _ _ _ _ _ ih => exact ih.push _

/-! ## The rounds are the chain -/

theorem append_chain {q r : Parser} {chain rest : List (BinaryOp × Expr)} {s : Spine}
    (h : Rounds bp p first chain s q) (hrest : (q.chain bp).result = .ok rest r) :
    ∃ s', Rounds bp p first (chain ++ rest) s' r ∧ ¬BindsAhead bp r := by
  rw [Parser.chain] at hrest
  split at hrest
  · rename_i op hop
    rw [result_relax] at hrest
    obtain ⟨t, m, hm, htake, hrest⟩ := result_andThen_eq_ok_iff.mp hrest
    obtain ⟨x, q', hq', hfactor, hrest⟩ := result_andThen_eq_ok_iff.mp hrest
    obtain ⟨more, hmore, rfl⟩ := result_map_eq_ok_iff.mp hrest
    have hkind : t.kind.binaryOp? = some op := by
      rw [(take_eq_ok_iff.mp htake).2.1]
      exact (operator?_eq_some_iff.mp hop).1
    have hround := h.round ((bindsAhead_iff h.not_sees).mpr ⟨op, hop⟩) htake hkind hfactor
    obtain ⟨s', hs', hend⟩ := append_chain hround hmore
    exact ⟨s', by simpa using hs', hend⟩
  · rename_i hop
    cases hrest
    refine ⟨s, by simpa using h, ?_⟩
    simp [bindsAhead_iff h.not_sees, hop]
termination_by q.size

theorem chain_append (h : Rounds bp p first chain s q) :
    ∃ m, p.factor.result = .ok first m ∧
      ∀ rest r, (q.chain bp).result = .ok rest r → (m.chain bp).result = .ok (chain ++ rest) r := by
  induction h with
  | start hf => exact ⟨_, hf, fun rest r h => h⟩
  | @round x chain s op t q m r hrounds hahead ht hop hf ih =>
      obtain ⟨n, hn, hchain⟩ := ih
      refine ⟨n, hn, fun rest r' hrest => ?_⟩
      have hround : (q.chain bp).result = .ok ((op, x) :: rest) r' := by
        rw [Parser.chain, hrounds.operator hahead ht hop]
        dsimp only
        rw [result_relax, result_andThen ht, result_andThen hf, result_map _ hrest]
      simpa using hchain _ _ hround

end Rounds

/-- An expression is read exactly when rounds lead to a token that does not bind tighter. -/
theorem expr_eq_ok_iff : (p.expr bp).result = .ok e q ↔
    ∃ first chain s, Rounds bp p first chain s q ∧ ¬BindsAhead bp q ∧ s.toExpr = e := by
  rw [Parser.expr]
  constructor
  · intro h
    obtain ⟨first, m, hm, hfirst, h⟩ := result_andThen_eq_ok_iff.mp h
    obtain ⟨chain, hchain, rfl⟩ := result_map_eq_ok_iff.mp h
    obtain ⟨s, hs, hend⟩ := (Rounds.start hfirst).append_chain hchain
    rw [List.nil_append] at hs
    exact ⟨first, chain, s, hs, hend, by rw [hs.spine_eq]⟩
  · rintro ⟨first, chain, s, hs, hend, rfl⟩
    obtain ⟨m, hfirst, hchain⟩ := hs.chain_append
    have hstop : (q.chain bp).result = .ok [] q := by
      rw [bindsAhead_iff hs.not_sees, not_exists] at hend
      rw [Parser.chain, Option.eq_none_iff_forall_ne_some.mpr hend]
      rfl
    rw [result_andThen hfirst, result_map _ (hchain _ _ hstop), List.append_nil, hs.spine_eq]

/-- What is read as an expression is read in rounds, and stands for the tree by priority of the factors and
operators of these rounds, in which the factors are the leaves. All of the operators bind tighter than asked
for, and the token that is left does not. Before every round the priorities of the spine go up from the root,
and a token that binds tighter than asked for is an operator. -/
theorem expr_is_tree_of_rounds (bp : Priority) (p : Parser) :
    (∀ e q, (p.expr bp).result = .ok e q ↔
      ∃ first chain s, Rounds bp p first chain s q ∧ ¬BindsAhead bp q ∧
        (OpTree.ofChain first chain).toExpr = e) ∧
    ∀ first chain s q, Rounds bp p first chain s q →
      (∀ link ∈ chain, bp < link.1.priority) ∧ s.Sorted ∧
      s.toExpr = (OpTree.ofChain first chain).toExpr ∧
      (OpTree.ofChain first chain).operands = first :: chain.map Prod.snd ∧
      (OpTree.ofChain first chain).operators = chain.map Prod.fst ∧
      (BindsAhead bp q → ∃ op, q.current.kind.binaryOp? = some op ∧ bp < op.priority) := by
  have htree : ∀ {first chain s q}, Rounds bp p first chain s q →
      s.toExpr = (OpTree.ofChain first chain).toExpr := by
    intro first chain s q h
    rw [h.spine_eq, Spine.toExpr_ofChain]
  constructor
  · intro e q
    rw [expr_eq_ok_iff]
    constructor
    · rintro ⟨first, chain, s, hs, hend, rfl⟩
      exact ⟨first, chain, s, hs, hend, (htree hs).symm⟩
    · rintro ⟨first, chain, s, hs, hend, rfl⟩
      exact ⟨first, chain, s, hs, hend, htree hs⟩
  · intro first chain s q h
    refine ⟨h.priorities, h.sorted, htree h, OpTree.operands_ofChain first chain,
      OpTree.operators_ofChain first chain, fun hahead => ?_⟩
    obtain ⟨op, hop⟩ := (bindsAhead_iff h.not_sees).mp hahead
    exact ⟨op, operator?_eq_some_iff.mp hop⟩

end

open scoped Unicode16

/-- The rounds of `a-b*c-d` take the second difference into the first: `a-((b*c)-d)`. -/
theorem difference_is_tree_of_rounds :
    ∃ p q first chain s, (Cursor.ofText "a-b*c-d").next = .ok p.current p.cursor ∧
      (p.expr .default).result = .ok
        (.binary .sub (.var "a") (.binary .sub (.binary .mul (.var "b") (.var "c")) (.var "d"))) q ∧
      Rounds .default p first chain s q ∧ s.Sorted ∧ ¬BindsAhead .default q := by
  have hlexes : Lexes "a-b*c-d".toList [.name "a", .symbol .minus, .name "b", .symbol .star, .name "c",
      .symbol .minus, .name "d"] :=
    .lexeme (l := ['a']) .nil ⟨rfl, rfl⟩ rfl nofun (.lexeme (l := ['-']) .nil ⟨rfl, rfl⟩ rfl nofun
      (.lexeme (l := ['b']) .nil ⟨rfl, rfl⟩ rfl nofun (.lexeme (l := ['*']) .nil ⟨rfl, rfl⟩ rfl nofun
        (.lexeme (l := ['c']) .nil ⟨rfl, rfl⟩ rfl nofun (.lexeme (l := ['-']) .nil ⟨rfl, rfl⟩ rfl nofun
          (.lexeme (l := ['d']) .nil ⟨rfl, rfl⟩ rfl nofun (.eof .nil)))))))
  have hvar : ∀ n, IsFactor [.name n] (.var n) := fun n => .primary (.var n)
  have hexpr : IsExpr _ _ := .chain (hvar "a")
    (.cons .sub (hvar "b") (.cons .mul (hvar "c") (.cons .sub (hvar "d") .nil)))
    (Spine.toExpr_ofChain_eq_iff.mp rfl)
  obtain ⟨p, q, hn, hreads, heof⟩ := exists_reads hlexes
  have hend : EndsExpr q := ⟨by simp [sees, Token.kind, heof, Lexeme.kind], by simp [operator?, heof]⟩
  have hread := expr_of_isExpr hexpr hreads hend
  obtain ⟨first, chain, s, hs, hstop, _⟩ := ((expr_is_tree_of_rounds .default p).1 _ q).mp hread
  obtain ⟨_, hsorted, _⟩ := (expr_is_tree_of_rounds .default p).2 _ _ _ _ hs
  exact ⟨p, q, first, chain, s, hn, hread, hs, hsorted, hstop⟩

end ScriptEngine.Parser
