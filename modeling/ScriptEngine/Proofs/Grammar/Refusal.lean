import ScriptEngine.Proofs.Grammar.Program

/-!
# Refused tokens

A rule of the grammar fails at the token ahead and nowhere else, as long as all tokens can be read. What it has
read up to there can be completed: a few names and symbols, which close all that is open, make a phrase of the
rule. This module says so of types and expressions.
-/

namespace ScriptEngine

namespace Parser

open Outcome

variable {p q r stop : Parser} {s : Symbol} {l : Lexeme} {ls ms : List Lexeme} {e : Error}

/-! ## Where rules fail -/

/-- The error is about the token ahead. -/
def Refused (p : Parser) (e : Error) : Prop :=
  ∃ what, e = .located p.current.position (.unexpectedToken p.current.text what)

theorem refused_unexpected (p : Parser) : p.Refused p.unexpected := ⟨none, rfl⟩

theorem refused_expected (p : Parser) (what : String) : p.Refused (p.expected what) := ⟨some what, rfl⟩

theorem current_splitShift (hs : p.sees .shiftRight = true) :
    p.splitShift.current = ⟨.symbol .greater, ⟨p.current.position.line, p.current.position.column + 1⟩⟩ := by
  rw [Parser.splitShift, if_pos hs]

theorem cursor_splitShift (p : Parser) : p.splitShift.cursor = p.cursor := by
  unfold Parser.splitShift
  split <;> rfl

variable [Alphabet]

/-- All tokens ahead can be read. -/
def Readable (p : Parser) : Prop := ∃ ts, p.tokens = .ok ts

theorem Takes.kind_ne_eof (h : Takes p l q) : p.current.kind ≠ .eof := by
  obtain ⟨hlexeme, hl, _⟩ := takes_iff.mp h
  exact fun hk => hl (hlexeme ▸ Lexeme.eq_eof_of_kind hk)

theorem Readable.exists_takes (hp : p.Readable) (hk : p.current.kind ≠ .eof) :
    ∃ q, Takes p p.current.lexeme q := by
  obtain ⟨ts, hts⟩ := hp
  obtain ⟨us, hus, _⟩ := (tokens_eq_ok_iff hk).mp hts
  obtain ⟨q, hn, _⟩ := exists_next hus
  exact ⟨q, takes_iff.mpr ⟨rfl, fun hl => hk (by rw [Token.kind, hl]; rfl), hn⟩⟩

theorem Readable.takes (hp : p.Readable) (h : Takes p l q) : q.Readable := by
  obtain ⟨ts, hts⟩ := hp
  obtain ⟨us, hus, _⟩ := (tokens_eq_ok_iff h.kind_ne_eof).mp hts
  obtain ⟨_, _, hn⟩ := takes_iff.mp h
  exact ⟨us, (tokens_of_next hn).symm.trans hus⟩

theorem Readable.reads (hp : p.Readable) (h : Reads p ls q) : q.Readable := by
  induction h with
  | nil => exact hp
  | cons ht _ ih => exact ih (hp.takes ht)

theorem Readable.splitShift (hp : p.Readable) : p.splitShift.Readable := by
  by_cases hs : p.sees .shiftRight = true
  · obtain ⟨ts, hts⟩ := hp
    have hk : p.current.kind ≠ .eof := by simp [Token.kind, sees_iff.mp hs, Lexeme.kind]
    obtain ⟨us, hus, _⟩ := (tokens_eq_ok_iff hk).mp hts
    have hk' : p.splitShift.current.kind ≠ .eof := by simp [current_splitShift hs, Token.kind, Lexeme.kind]
    exact ⟨_, (tokens_eq_ok_iff hk').mpr ⟨us, by rwa [cursor_splitShift], rfl⟩⟩
  · simpa [Parser.splitShift, hs] using hp

theorem Readable.readsParts (hp : p.Readable) (h : ReadsParts p ls q) : q.Readable := by
  induction h with
  | nil => exact hp
  | cons ht _ ih =>
      cases ht with
      | whole ht => exact ih (hp.takes ht)
      | half => exact ih hp.splitShift

theorem Readable.not_take_error (hp : p.Readable) (hk : p.current.kind ≠ .eof) :
    p.take.result ≠ .error e stop := by
  obtain ⟨q, _, t, ht⟩ := hp.exists_takes hk
  rw [ht]
  exact nofun

theorem Readable.not_require_error (hp : p.Readable) (hs : p.sees s = true) :
    (p.require s).result ≠ .error e stop := by
  unfold require
  rw [if_pos hs]
  exact hp.not_take_error (by simp [Token.kind, sees_iff.mp hs, Lexeme.kind])

theorem Readable.require_error (hp : p.Readable) (h : (p.require s).result = .error e stop) :
    stop = p ∧ p.sees s = false ∧ p.Refused e := by
  by_cases hs : p.sees s = true
  · exact absurd h (hp.not_require_error hs)
  · unfold require at h
    rw [if_neg hs] at h
    cases h
    exact ⟨rfl, by simpa using hs, p.refused_expected _⟩

theorem Readable.takeName_error {e' : Error} (hp : p.Readable) (h : (p.takeName e').result = .error e stop) :
    stop = p ∧ e = e' := by
  unfold takeName at h
  split at h
  · rename_i n hn
    rw [result_map_eq_error_iff] at h
    exact absurd h (hp.not_take_error (by simp [Token.kind, hn, Lexeme.kind]))
  · cases h
    exact ⟨rfl, rfl⟩

theorem Readable.closeArguments_error (hp : p.Readable) (h : p.closeArguments.result = .error e stop) :
    stop = p ∧ p.closesArguments = false ∧ p.Refused e := by
  unfold closeArguments at h
  split at h
  · cases h
  · rename_i hs
    rw [result_map_eq_error_iff] at h
    obtain ⟨rfl, hg, he⟩ := hp.require_error h
    exact ⟨rfl, by simp [closesArguments, hg, hs], he⟩

end Parser

namespace Grammar

open ScriptEngine.Parser ScriptEngine.Outcome

variable {p q r stop : Parser} {ls ms : List Lexeme} {e : Error}

/-! ## Completions -/

/-- The lexemes that complete a phrase: the name `x` and all symbols. -/
def Completes : Lexeme → Bool
  | .name n => n == "x"
  | .symbol _ => true
  | _ => false

/-- The lexemes end in those of a type whose argument list is still to be closed by a `>`. -/
def EndsTemplate (ls : List Lexeme) : Prop :=
  ∃ before ms ks n ts, ls = before ++ ms ∧ Reading ms ks ∧ IsType (ks ++ [.symbol .greater]) (.template n ts)

/-- The lexemes of a type, in which a `>>` may close two argument lists. -/
def TypeText (ls : List Lexeme) : Prop := ∃ ks t, Reading ls ks ∧ IsType ks t

def TypesText (ls : List Lexeme) : Prop := ∃ ks ts, Reading ls ks ∧ IsTypes ks ts

theorem Reading.append {ls ks ms ns : List Lexeme} (h : Reading ls ks) (h' : Reading ms ns) :
    Reading (ls ++ ms) (ks ++ ns) := by
  induction h with
  | nil => exact h'
  | same l _ ih => exact .same l ih
  | halves _ ih => exact .halves ih

theorem Reading.single (l : Lexeme) : Reading [l] [l] := .same l .nil

/-- The lexemes of an expression. -/
def ExprText (ls : List Lexeme) : Prop := ∃ a, IsExpr ls a

theorem exprText_of_isFactor {a : Expr} (ha : IsFactor ls a) : ExprText ls := by
  have h := IsExpr.chain ha .nil (.single a)
  rw [List.append_nil] at h
  exact ⟨a, h⟩

theorem exprText_append {a : Expr} {chain : List (BinaryOp × Expr)} (ha : IsFactor ls a)
    (hchain : IsChain ms chain) : ExprText (ls ++ ms) :=
  ⟨_, .chain ha hchain (Spine.toExpr_ofChain_eq_iff.mp rfl)⟩

theorem isFactor_x : IsFactor [.name "x"] (.var "x") := .primary (.var "x")

variable [Alphabet]

/-- The lexemes `ls` are read from `p` up to `stop`, where the last one may be half of a `>>` that closes an
argument list. -/
inductive Halts : (p : Parser) → (ls : List Lexeme) → (stop : Parser) → Prop where
  | whole {p stop : Parser} {ls : List Lexeme} : Reads p ls stop → Halts p ls stop
  | half {p m : Parser} {ls : List Lexeme} : Reads p ls m → m.sees .shiftRight = true → EndsTemplate ls →
      Halts p (ls ++ [.symbol .greater]) m.splitShift

theorem Halts.after (hls : Reads p ls q) (h : Halts q ms r) : Halts p (ls ++ ms) r := by
  cases h with
  | whole hms => exact .whole (hls.append hms)
  | half hms hs htemplate =>
      obtain ⟨before, ns, ks, n, ts, rfl, hreading, ht⟩ := htemplate
      rw [← List.append_assoc]
      exact .half (hls.append hms) hs ⟨ls ++ before, ns, ks, n, ts, by simp, hreading, ht⟩

theorem Halts.readable (hp : p.Readable) (h : Halts p ls q) : q.Readable := by
  cases h with
  | whole hls => exact hp.reads hls
  | half hls => exact (hp.reads hls).splitShift

/-- From `p` on, the error `e` is about the token at `stop`, and what is read up to there can be completed to a
phrase in `D`. -/
structure Refuses (D : List Lexeme → Prop) (p : Parser) (e : Error) (stop : Parser) : Prop where
  refused : stop.Refused e
  completed : ∃ ls more, Halts p ls stop ∧ more.all Completes = true ∧ D (ls ++ more)

namespace Refuses

variable {D D' : List Lexeme → Prop}

/-- What is read first and what is added last make a phrase around the one that is completed. -/
theorem within (hls : Reads p ls q) (h : Refuses D' q e stop) (tail : List Lexeme)
    (htail : tail.all Completes = true) (hD : ∀ ms, D' ms → D (ls ++ (ms ++ tail))) : Refuses D p e stop := by
  obtain ⟨ms, more, hms, hmore, hD'⟩ := h.completed
  refine ⟨h.refused, ls ++ ms, more ++ tail, hms.after hls, by simp [hmore, htail], ?_⟩
  simpa using hD _ hD'

theorem after (hls : Reads p ls q) (h : Refuses D' q e stop) (hD : ∀ ms, D' ms → D (ls ++ ms)) :
    Refuses D p e stop :=
  .within hls h [] rfl fun ms hms => by simpa using hD ms hms

theorem mono (h : Refuses D' p e stop) (hD : ∀ ms, D' ms → D ms) : Refuses D p e stop := .after .nil h hD

/-- The token that is refused is the first that has not been read. -/
theorem next (hls : Reads p ls q) (hq : q.Refused e) (more : List Lexeme) (hmore : more.all Completes = true)
    (hD : D (ls ++ more)) : Refuses D p e q := ⟨hq, ls, more, .whole hls, hmore, hD⟩

/-- A symbol is missing. -/
theorem missing {s : Symbol} (hp : p.Readable) (hls : Reads p ls q) (h : (q.require s).result = .error e stop)
    (more : List Lexeme) (hmore : more.all Completes = true) (hD : D (ls ++ more)) : Refuses D p e stop := by
  obtain ⟨rfl, _, hq⟩ := (hp.reads hls).require_error h
  exact .next hls hq more hmore hD

end Refuses

/-! ## Types -/

theorem refuses_listSuffixes {p q stop : Parser} {ks : List Lexeme} {t : Ty} {e : Error} (hp : p.Readable)
    (hks : ReadsParts p ks q) (ht : IsType ks t) (h : (listSuffixes t q).result = .error e stop) :
    Refuses TypeText p e stop := by
  rw [listSuffixes] at h
  split at h
  · rename_i hs
    rw [result_relax] at h
    have hq : q.sees .greater = false := sees_of_lexeme_ne (sees_iff.mp hs) (by simp)
    obtain ⟨ls, hls, hreading⟩ := reads_of_readsParts hks hq
    rcases result_andThen_eq_error_iff.mp h with hopen | ⟨_, p₁, hp₁, hopen, h⟩
    · exact absurd hopen ((hp.reads hls).not_require_error hs)
    have ho := takes_of_require hopen
    rcases result_andThen_eq_error_iff.mp h with hclose | ⟨_, p₂, hp₂, hclose, h⟩
    · refine .missing hp (hls.append (.single ho)) hclose [.symbol .closeBracket] rfl ⟨_, _, ?_, ht.list⟩
      simpa using hreading.append (.same (.symbol .openBracket) (.single (.symbol .closeBracket)))
    have hc := takes_of_require hclose
    exact refuses_listSuffixes hp (hks.append (.cons (.whole ho) (.single (.whole hc)))) ht.list h
  · cases h
termination_by q.size

mutual

theorem refuses_type {p stop : Parser} {e : Error} (hp : p.Readable)
    (h : (p.type .default).result = .error e stop) : Refuses TypeText p e stop := by
  rw [Parser.type] at h
  rcases result_andThen_eq_error_iff.mp h with hname | ⟨t, p₁, _, hname, h⟩
  · exact refuses_typeName hp hname
  obtain ⟨ks, hks, ht⟩ := isType_of_typeName hname
  rw [if_pos (by decide)] at h
  exact refuses_listSuffixes hp hks ht h
termination_by 2 * p.size + 1

theorem refuses_typeName {p stop : Parser} {e : Error} (hp : p.Readable)
    (h : p.typeName.result = .error e stop) : Refuses TypeText p e stop := by
  rw [typeName] at h
  rcases result_andThen_eq_error_iff.mp h with hname | ⟨n, p₁, hp₁, hname, h⟩
  · obtain ⟨rfl, rfl⟩ := hp.takeName_error hname
    exact .next .nil (refused_unexpected _) [.name "x"] rfl ⟨_, _, .single _, .plain "x"⟩
  have hn := takes_of_takeName hname
  split at h
  · rw [result_relax] at h
    rcases result_andThen_eq_error_iff.mp h with hless | ⟨_, p₂, hp₂, hless, h⟩
    · exact .missing hp (.single hn) hless [.symbol .less, .symbol .greater] rfl
        ⟨_, _, .same _ (.same _ (.single _)), .empty n⟩
    have hreads := Path.cons hn (.single (takes_of_require hless))
    have hreadable := hp.reads hreads
    split at h
    · rename_i hcloses
      rw [result_map_eq_error_iff] at h
      obtain ⟨_, hno, _⟩ := hreadable.closeArguments_error h
      rw [hcloses] at hno
      cases hno
    · rcases result_andThen_eq_error_iff.mp h with harguments | ⟨ts, p₃, _, harguments, h⟩
      · refine .within hreads (refuses_typeArguments hreadable harguments) [.symbol .greater] rfl ?_
        rintro ms ⟨ks, ts, hreading, hts⟩
        exact ⟨_, _, .same _ (.same _ (hreading.append (.single _))), .applied n hts⟩
      · rw [result_map_eq_error_iff] at h
        obtain ⟨ks, hks, hts⟩ := isTypes_of_typeArguments harguments
        obtain ⟨rfl, hno, hstop⟩ := (hreadable.readsParts hks).closeArguments_error h
        obtain ⟨ls, hls, hreading⟩ := reads_of_readsParts hks (Bool.or_eq_false_iff.mp hno).1
        refine .next (hreads.append hls) hstop [.symbol .greater] rfl ⟨_, _, ?_, .applied n hts⟩
        rw [List.append_assoc]
        exact .same _ (.same _ (hreading.append (.single _)))
  · cases h
termination_by 2 * p.size

theorem refuses_typeArguments {p stop : Parser} {e : Error} (hp : p.Readable)
    (h : p.typeArguments.result = .error e stop) : Refuses TypesText p e stop := by
  rw [typeArguments] at h
  rcases result_andThen_eq_error_iff.mp h with hfirst | ⟨t, p₁, hp₁, hfirst, h⟩
  · exact (refuses_type hp hfirst).mono fun ms ⟨ks, t, hreading, ht⟩ => ⟨ks, [t], hreading, .last ht⟩
  obtain ⟨ks, hks, ht⟩ := isType_of_type hfirst
  split at h
  · rename_i hs
    rw [result_relax] at h
    have hq : p₁.sees .greater = false := sees_of_lexeme_ne (sees_iff.mp hs) (by simp)
    obtain ⟨ls, hls, hreading⟩ := reads_of_readsParts hks hq
    rcases result_andThen_eq_error_iff.mp h with hcomma | ⟨_, p₂, hp₂, hcomma, h⟩
    · exact absurd hcomma ((hp.reads hls).not_require_error hs)
    have hreads := hls.append (.single (takes_of_require hcomma))
    rw [result_map_eq_error_iff] at h
    refine .after hreads (refuses_typeArguments (hp.reads hreads) h) ?_
    rintro ms ⟨ks', ts, hreading', hts⟩
    refine ⟨_, _, ?_, .more ht hts⟩
    simpa using hreading.append (.same (.symbol .comma) hreading')
  · cases h
termination_by 2 * p.size + 2

end

/-! ## Expressions -/

mutual

theorem refuses_expr {p stop : Parser} {e : Error} (hp : p.Readable)
    (h : (p.expr .default).result = .error e stop) : Refuses ExprText p e stop := by
  rw [Parser.expr] at h
  rcases result_andThen_eq_error_iff.mp h with hfirst | ⟨a, p₁, hp₁, hfirst, h⟩
  · exact (refuses_factor hp hfirst).mono fun ms ⟨a, ha⟩ => exprText_of_isFactor ha
  obtain ⟨ls, hls, ha⟩ := isFactor_of_factor hfirst
  rw [result_map_eq_error_iff] at h
  exact .after hls (refuses_chain (hp.reads hls) h) fun ms ⟨chain, hchain⟩ => exprText_append ha hchain
termination_by 2 * p.size + 1

theorem refuses_chain {p stop : Parser} {e : Error} (hp : p.Readable)
    (h : (p.chain .default).result = .error e stop) : Refuses (∃ chain, IsChain · chain) p e stop := by
  rw [Parser.chain] at h
  split at h
  · rename_i op hop
    have hop := lexeme_of_operator? hop
    rw [result_relax] at h
    rcases result_andThen_eq_error_iff.mp h with htake | ⟨_, p₁, hp₁, htake, h⟩
    · exact absurd htake (hp.not_take_error (by simp [Token.kind, hop, Lexeme.kind]))
    have ho := takes_of_take hop htake
    rcases result_andThen_eq_error_iff.mp h with hfactor | ⟨a, p₂, hp₂, hfactor, h⟩
    · refine .after (.single ho) (refuses_factor (hp.takes ho) hfactor) fun ms ⟨a, ha⟩ => ⟨[(op, a)], ?_⟩
      simpa using IsChain.cons op ha .nil
    obtain ⟨ls, hls, ha⟩ := isFactor_of_factor hfactor
    rw [result_map_eq_error_iff] at h
    have hreads := Path.cons ho hls
    exact .after hreads (refuses_chain (hp.reads hreads) h) fun ms ⟨rest, hrest⟩ => ⟨_, .cons op ha hrest⟩
  · cases h
termination_by 2 * p.size

theorem refuses_factor {p stop : Parser} {e : Error} (hp : p.Readable)
    (h : p.factor.result = .error e stop) : Refuses (∃ a, IsFactor · a) p e stop := by
  have hunexpected : Refuses (∃ a, IsFactor · a) p p.unexpected p :=
    .next .nil p.refused_unexpected [.name "x"] rfl ⟨_, isFactor_x⟩
  rw [factor] at h
  split at h
  · rename_i l hl
    rcases result_andThen_eq_error_iff.mp h with htake | ⟨_, p₁, hp₁, htake, h⟩
    · exact absurd htake (hp.not_take_error (by simp [Token.kind, hl, Lexeme.kind]))
    have ht := takes_of_take hl htake
    exact .after (.single ht) (refuses_suffixes (.constant l) (hp.takes ht) h) fun ms ⟨a, ha⟩ => ⟨a, .primary ha⟩
  · rename_i n hn
    rcases result_andThen_eq_error_iff.mp h with htake | ⟨_, p₁, hp₁, htake, h⟩
    · exact absurd htake (hp.not_take_error (by simp [Token.kind, hn, Lexeme.kind]))
    have ht := takes_of_take hn htake
    exact .after (.single ht) (refuses_suffixes (.var n) (hp.takes ht) h) fun ms ⟨a, ha⟩ => ⟨a, .primary ha⟩
  · rename_i s hs
    have htakes : p.take.result ≠ .error e stop := hp.not_take_error (by simp [Token.kind, hs, Lexeme.kind])
    split at h
    · rename_i op hop
      rw [UnaryOp.ofSymbol?_eq_some_iff.mp hop] at hs
      rcases result_andThen_eq_error_iff.mp h with htake | ⟨_, p₁, hp₁, htake, h⟩
      · exact absurd htake htakes
      have ht := takes_of_take hs htake
      rw [result_map_eq_error_iff] at h
      exact .after (.single ht) (refuses_factor (hp.takes ht) h) fun ms ⟨a, ha⟩ => ⟨_, .unary op ha⟩
    · split at h
      · rename_i hparen
        rw [hparen] at hs
        rcases result_andThen_eq_error_iff.mp h with htake | ⟨_, p₁, hp₁, htake, h⟩
        · exact absurd htake htakes
        have ht := takes_of_take hs htake
        rcases result_andThen_eq_error_iff.mp h with hexpr | ⟨a, p₂, hp₂, hexpr, h⟩
        · exact .within (.single ht) (refuses_expr (hp.takes ht) hexpr) [.symbol .closeParen] rfl
            fun ms ⟨a, ha⟩ => ⟨a, .primary (.group ha)⟩
        obtain ⟨ls, hls, ha⟩ := isExpr_of_expr hexpr
        have hopened := Path.cons ht hls
        rcases result_andThen_eq_error_iff.mp h with hclose | ⟨_, p₃, hp₃, hclose, h⟩
        · exact .missing hp hopened hclose [.symbol .closeParen] rfl ⟨a, .primary (.group ha)⟩
        have hreads := Path.cons ht (hls.append (.single (takes_of_require hclose)))
        exact .after hreads (refuses_suffixes (.group ha) (hp.reads hreads) h)
          fun ms ⟨a, ha⟩ => ⟨a, .primary ha⟩
      · cases h
        exact hunexpected
  · cases h
    exact hunexpected
termination_by 2 * p.size

/-- Indices after an atom are completed together with it. -/
theorem refuses_suffixes {p stop : Parser} {ls : List Lexeme} {a : Expr} {e : Error} (ha : IsPrimary ls a)
    (hp : p.Readable) (h : (suffixes a p).result = .error e stop) :
    Refuses (fun ms => ∃ b, IsPrimary (ls ++ ms) b) p e stop := by
  rw [suffixes] at h
  split at h
  · rename_i hs
    rw [result_relax] at h
    rcases result_andThen_eq_error_iff.mp h with hopen | ⟨_, p₁, hp₁, hopen, h⟩
    · exact absurd hopen (hp.not_require_error hs)
    have ho := takes_of_require hopen
    rcases result_andThen_eq_error_iff.mp h with hexpr | ⟨i, p₂, hp₂, hexpr, h⟩
    · exact .within (.single ho) (refuses_expr (hp.takes ho) hexpr) [.symbol .closeBracket] rfl
        fun ms ⟨i, hi⟩ => ⟨_, ha.index hi⟩
    obtain ⟨is, his, hi⟩ := isExpr_of_expr hexpr
    rcases result_andThen_eq_error_iff.mp h with hclose | ⟨_, p₃, hp₃, hclose, h⟩
    · exact .missing hp (.cons ho his) hclose [.symbol .closeBracket] rfl ⟨_, ha.index hi⟩
    have hreads := Path.cons ho (his.append (.single (takes_of_require hclose)))
    refine .after hreads (refuses_suffixes (ha.index hi) (hp.reads hreads) h) ?_
    rintro ms ⟨b, hb⟩
    exact ⟨b, by simpa using hb⟩
  · cases h
termination_by 2 * p.size

end

end Grammar

end ScriptEngine
