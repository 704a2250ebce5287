import ScriptEngine.Parser.Rules
import ScriptEngine.Proofs.Grammar.Reads
import ScriptEngine.Proofs.Grammar.Rules

/-!
# Expressions are read by the grammar

What is read as an expression derives it, and a derivation of an expression is read as the expression
unless a bracket or an operator comes after it.
-/

namespace ScriptEngine.Grammar

open ScriptEngine.Parser ScriptEngine.Outcome

theorem lexeme_of_operator? {bp : Priority} {p : Parser} {op : BinaryOp} (h : p.operator? bp = some op) :
    p.current.lexeme = .symbol op.symbol := by
  unfold operator? at h
  split at h
  · rename_i s hs
    rw [hs, BinaryOp.ofSymbol?_eq_some_iff.mp (Option.filter_eq_some_iff.mp h).1]
  · cases h

theorem operator?_default {p : Parser} {op : BinaryOp} (h : p.current.lexeme = .symbol op.symbol) :
    p.operator? .default = some op := by
  unfold operator?
  rw [h]
  cases op <;> rfl

theorem IsPrimary.head {ls : List Lexeme} {e : Expr} (h : IsPrimary ls e) :
    ∃ l ms, ls = l :: ms ∧ l.kind.startsFactor = true :=
  match h with
  | .constant _ => ⟨_, _, rfl, rfl⟩
  | .var _ => ⟨_, _, rfl, rfl⟩
  | .group _ => ⟨_, _, rfl, rfl⟩
  | .index hb _ => by
      obtain ⟨l, ms, rfl, hl⟩ := hb.head
      exact ⟨l, _, rfl, hl⟩

theorem IsFactor.head {ls : List Lexeme} {e : Expr} (h : IsFactor ls e) :
    ∃ l ms, ls = l :: ms ∧ l.kind.startsFactor = true := by
  cases h with
  | unary op _ =>
      refine ⟨_, _, rfl, ?_⟩
      cases op <;> rfl
  | primary hp => exact hp.head

theorem IsExpr.head {ls : List Lexeme} {e : Expr} (h : IsExpr ls e) :
    ∃ l ms, ls = l :: ms ∧ l.kind.startsFactor = true := by
  cases h with
  | chain hf _ _ =>
      obtain ⟨l, ms, rfl, hl⟩ := hf.head
      exact ⟨l, _, rfl, hl⟩

variable [Alphabet]

/-! ## What is read -/

mutual

theorem isExpr_of_expr {p q : Parser} {e : Expr} (h : (p.expr .default).result = .ok e q) :
    ∃ ls, Reads p ls q ∧ IsExpr ls e := by
  rw [Parser.expr] at h
  obtain ⟨first, p₁, hp₁, hfirst, h⟩ := result_andThen_eq_ok_iff.mp h
  obtain ⟨rest, hrest, he⟩ := result_map_eq_ok_iff.mp h
  obtain ⟨ls, hls, hf⟩ := isFactor_of_factor hfirst
  obtain ⟨ms, hms, hc⟩ := isChain_of_chain hrest
  exact ⟨_, hls.append hms, .chain hf hc (Spine.toExpr_ofChain_eq_iff.mp he)⟩
termination_by 2 * p.size + 1

theorem isChain_of_chain {p q : Parser} {chain : List (BinaryOp × Expr)}
    (h : (p.chain .default).result = .ok chain q) : ∃ ls, Reads p ls q ∧ IsChain ls chain := by
  rw [Parser.chain] at h
  split at h
  · rename_i op hop
    rw [result_relax] at h
    obtain ⟨_, p₁, hp₁, htake, h⟩ := result_andThen_eq_ok_iff.mp h
    obtain ⟨e, p₂, hp₂, hfactor, h⟩ := result_andThen_eq_ok_iff.mp h
    obtain ⟨rest, hrest, rfl⟩ := result_map_eq_ok_iff.mp h
    obtain ⟨ls, hls, hf⟩ := isFactor_of_factor hfactor
    obtain ⟨ms, hms, hc⟩ := isChain_of_chain hrest
    have hop := lexeme_of_operator? hop
    exact ⟨_, .cons (takes_of_take hop htake) (hls.append hms), .cons op hf hc⟩
  · cases h
    exact ⟨_, .nil, .nil⟩
termination_by 2 * p.size

theorem isFactor_of_factor {p q : Parser} {e : Expr} (h : p.factor.result = .ok e q) :
    ∃ ls, Reads p ls q ∧ IsFactor ls e := by
  rw [factor] at h
  split at h
  · rename_i l hl
    obtain ⟨_, p₁, hp₁, htake, h⟩ := result_andThen_eq_ok_iff.mp h
    obtain ⟨ls, hls, he⟩ := isPrimary_of_suffixes (.constant l) h
    exact ⟨_, .cons (takes_of_take hl htake) hls, .primary he⟩
  · rename_i n hn
    obtain ⟨_, p₁, hp₁, htake, h⟩ := result_andThen_eq_ok_iff.mp h
    obtain ⟨ls, hls, he⟩ := isPrimary_of_suffixes (.var n) h
    exact ⟨_, .cons (takes_of_take hn htake) hls, .primary he⟩
  · rename_i s hs
    split at h
    · rename_i op hop
      rw [UnaryOp.ofSymbol?_eq_some_iff.mp hop] at hs
      obtain ⟨_, p₁, hp₁, htake, h⟩ := result_andThen_eq_ok_iff.mp h
      obtain ⟨e, hfactor, rfl⟩ := result_map_eq_ok_iff.mp h
      obtain ⟨ls, hls, he⟩ := isFactor_of_factor hfactor
      exact ⟨_, .cons (takes_of_take hs htake) hls, .unary op he⟩
    · split at h
      · rename_i hparen
        rw [hparen] at hs
        obtain ⟨_, p₁, hp₁, htake, h⟩ := result_andThen_eq_ok_iff.mp h
        obtain ⟨e, p₂, hp₂, hexpr, h⟩ := result_andThen_eq_ok_iff.mp h
        obtain ⟨_, p₃, hp₃, hclose, h⟩ := result_andThen_eq_ok_iff.mp h
        obtain ⟨ls, hls, he⟩ := isExpr_of_expr hexpr
        obtain ⟨ms, hms, he⟩ := isPrimary_of_suffixes (.group he) h
        have hgroup := Path.cons (takes_of_take hs htake) (hls.append (.single (takes_of_require hclose)))
        exact ⟨_, hgroup.append hms, .primary he⟩
      · cases h
  · cases h
termination_by 2 * p.size

/-- Indices that are read after an atom make one factor with it. -/
theorem isPrimary_of_suffixes {p q : Parser} {ls : List Lexeme} {e e' : Expr} (he : IsPrimary ls e)
    (h : (suffixes e p).result = .ok e' q) : ∃ ms, Reads p ms q ∧ IsPrimary (ls ++ ms) e' := by
  rw [suffixes] at h
  split at h
  · rw [result_relax] at h
    obtain ⟨_, p₁, hp₁, hopen, h⟩ := result_andThen_eq_ok_iff.mp h
    obtain ⟨i, p₂, hp₂, hexpr, h⟩ := result_andThen_eq_ok_iff.mp h
    obtain ⟨_, p₃, hp₃, hclose, h⟩ := result_andThen_eq_ok_iff.mp h
    obtain ⟨is, his, hi⟩ := isExpr_of_expr hexpr
    obtain ⟨ms, hms, he'⟩ := isPrimary_of_suffixes (he.index hi) h
    have hindex := Path.cons (takes_of_require hopen) (his.append (.single (takes_of_require hclose)))
    refine ⟨_, hindex.append hms, ?_⟩
    simpa using he'
  · cases h
    exact ⟨[], .nil, by simpa using he⟩
termination_by 2 * p.size

end

/-! ## What is derived -/

/-- What is ahead cannot go on with an expression. -/
structure EndsExpr (p : Parser) : Prop where
  bracket : p.sees .openBracket = false
  operator : p.operator? .default = none

theorem EndsExpr.of_takes {p q : Parser} {s : Symbol} (h : Takes p (.symbol s) q)
    (hs : s ≠ .openBracket) (hop : BinaryOp.ofSymbol? s = none) : EndsExpr p where
  bracket := h.not_sees (by simp [hs])
  operator := by simp [operator?, h.lexeme, hop]

theorem IsChain.not_sees {p m : Parser} {ls : List Lexeme} {chain : List (BinaryOp × Expr)}
    (hc : IsChain ls chain) (h : Reads p ls m) (hm : m.sees .openBracket = false) :
    p.sees .openBracket = false := by
  cases hc with
  | nil =>
      cases path_nil_iff.mp h
      exact hm
  | cons op _ _ =>
      obtain ⟨_, hop, _⟩ := path_cons_iff.mp h
      exact hop.not_sees (by cases op <;> simp [BinaryOp.symbol])

mutual

theorem expr_of_isExpr {p m : Parser} {ls : List Lexeme} {e : Expr} (he : IsExpr ls e)
    (h : Reads p ls m) (hm : EndsExpr m) : (p.expr .default).result = .ok e m :=
  match he with
  | .chain hf hc hfolds => by
      obtain ⟨p₁, hls, hms⟩ := path_append_iff.mp h
      have hfirst := factor_of_isFactor hf hls (hc.not_sees hms hm.bracket)
      have hrest := chain_of_isChain hc hms hm
      rw [Parser.expr, result_andThen hfirst, result_map _ hrest, Spine.toExpr_ofChain_eq_iff.mpr hfolds]

theorem chain_of_isChain {p m : Parser} {ls : List Lexeme} {chain : List (BinaryOp × Expr)}
    (hchain : IsChain ls chain) (h : Reads p ls m) (hm : EndsExpr m) :
    (p.chain .default).result = .ok chain m :=
  match hchain with
  | .nil => by
      cases path_nil_iff.mp h
      rw [Parser.chain, hm.operator]
      rfl
  | .cons op hf hc => by
      simp only [path_cons_iff, path_append_iff] at h
      obtain ⟨p₁, hop, p₂, hls, hms⟩ := h
      obtain ⟨hlexeme, _, htake⟩ := hop
      have hfactor := factor_of_isFactor hf hls (hc.not_sees hms hm.bracket)
      rw [Parser.chain, operator?_default hlexeme]
      dsimp only
      rw [result_relax, result_andThen htake, result_andThen hfactor,
        result_map _ (chain_of_isChain hc hms hm)]

theorem factor_of_isFactor {p m : Parser} {ls : List Lexeme} {e : Expr} (he : IsFactor ls e)
    (h : Reads p ls m) (hm : m.sees .openBracket = false) : p.factor.result = .ok e m :=
  match he with
  | .unary op hf => by
      obtain ⟨p₁, hop, hls⟩ := path_cons_iff.mp h
      obtain ⟨hlexeme, _, htake⟩ := hop
      rw [factor, hlexeme]
      dsimp only
      rw [UnaryOp.ofSymbol?_eq_some_iff.mpr rfl]
      dsimp only
      rw [result_andThen htake, result_map _ (factor_of_isFactor hf hls hm)]
  | .primary hp => by
      rw [factor_of_isPrimary hp h, suffixes, if_neg (by simp [hm])]
      rfl

/-- The lexemes of an atom with indices are read as such, to which indices that follow are added. -/
theorem factor_of_isPrimary {p m : Parser} {ls : List Lexeme} {e : Expr} (he : IsPrimary ls e)
    (h : Reads p ls m) : p.factor.result = (suffixes e m).result :=
  match he with
  | .constant l => by
      obtain ⟨p₁, hl, hm⟩ := path_cons_iff.mp h
      cases path_nil_iff.mp hm
      obtain ⟨hlexeme, _, htake⟩ := hl
      rw [factor, hlexeme]
      dsimp only
      rw [result_andThen htake]
  | .var n => by
      obtain ⟨p₁, hn, hm⟩ := path_cons_iff.mp h
      cases path_nil_iff.mp hm
      obtain ⟨hlexeme, _, htake⟩ := hn
      rw [factor, hlexeme]
      dsimp only
      rw [result_andThen htake]
  | .group hexpr => by
      simp only [path_cons_iff, path_append_iff, path_nil_iff] at h
      obtain ⟨p₁, hopen, p₂, hls, p₃, hclose, rfl⟩ := h
      obtain ⟨hlexeme, _, htake⟩ := hopen
      obtain ⟨_, hr⟩ := hclose.require
      have hread := expr_of_isExpr hexpr hls (.of_takes hclose (by decide) rfl)
      rw [factor, hlexeme]
      dsimp only [UnaryOp.ofSymbol?]
      rw [if_pos rfl, result_andThen htake, result_andThen hread, result_andThen hr]
  | .index hb hi => by
      simp only [path_cons_iff, path_append_iff, path_nil_iff] at h
      obtain ⟨p₁, hls, p₂, hopen, p₃, his, p₄, hclose, rfl⟩ := h
      obtain ⟨_, hr⟩ := hopen.require
      obtain ⟨_, hr'⟩ := hclose.require
      have hread := expr_of_isExpr hi his (.of_takes hclose (by decide) rfl)
      rw [factor_of_isPrimary hb hls, suffixes, if_pos hopen.sees, result_relax,
        result_andThen hr, result_andThen hread, result_andThen hr']

end

end ScriptEngine.Grammar
