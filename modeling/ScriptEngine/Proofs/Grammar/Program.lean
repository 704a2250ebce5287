import ScriptEngine.Parser.Rules
import ScriptEngine.Proofs.Grammar.Stmt
import ScriptEngine.Proofs.Token.Cursor
import ScriptEngine.Proofs.Token.Seam

/-!
# Programs are read by the grammar

A parser asks for one token at a time. What it reads on the way to the end of a text are nevertheless the
tokens of the whole text. So the texts that are parsed are those whose tokens derive a program.
-/

namespace ScriptEngine

variable [Alphabet]

/-! ## The tokens of a parser -/

/-- The token ahead and all after it. -/
def Parser.tokens (p : Parser) : Except Error (List Token) :=
  if p.current.kind = .eof then .ok [p.current] else p.cursor.tokens.map (p.current :: ·)

namespace Parser

variable {p q : Parser}

theorem exists_next {c : Cursor} {ts : List Token} (h : c.tokens = .ok ts) :
    ∃ p : Parser, c.next = .ok p.current p.cursor ∧ p.tokens = .ok ts := by
  obtain ⟨t, d, hn, ⟨ht, rfl⟩ | ⟨ht, us, hus, rfl⟩⟩ := Cursor.tokens_eq_ok h
  · exact ⟨⟨d, t⟩, hn, by simp [Parser.tokens, ht]⟩
  · exact ⟨⟨d, t⟩, hn, by simp [Parser.tokens, ht, hus, Except.map]⟩

theorem tokens_of_next {c : Cursor} (h : c.next = .ok p.current p.cursor) : c.tokens = p.tokens :=
  Cursor.tokens_of_next h

theorem tokens_eq_ok_iff {ts : List Token} (hp : p.current.kind ≠ .eof) :
    p.tokens = .ok ts ↔ ∃ us, p.cursor.tokens = .ok us ∧ ts = p.current :: us := by
  unfold Parser.tokens
  rw [if_neg hp]
  cases p.cursor.tokens with
  | ok us => simp [Except.map, eq_comm]
  | error e => simp [Except.map]

/-- Lexemes that are read up to the end are those of the tokens. -/
theorem Reads.tokens {ls : List Lexeme} (h : Reads p ls q) (hq : q.hasTokens = false) :
    ∃ ts, p.tokens = .ok ts ∧ ts.map Token.lexeme = ls ++ [.eof] := by
  induction h with
  | @nil p =>
      simp only [hasTokens, bne_eq_false_iff_eq] at hq
      exact ⟨[p.current], by simp [Parser.tokens, hq], by simp [Lexeme.eq_eof_of_kind hq]⟩
  | cons ht _ ih =>
      obtain ⟨ts, hts, hls⟩ := ih hq
      obtain ⟨hlexeme, hl, hn⟩ := takes_iff.mp ht
      have hcursor := (tokens_of_next hn).trans hts
      refine ⟨_, (tokens_eq_ok_iff ?_).mpr ⟨ts, hcursor, rfl⟩, by simp [hlexeme, hls]⟩
      intro hk
      exact hl (hlexeme ▸ Lexeme.eq_eof_of_kind hk)

/-- The lexemes of the tokens can be read up to the end. -/
theorem reads_of_tokens {ts : List Token} {ls : List Lexeme} (hp : p.tokens = .ok ts)
    (h : ts.map Token.lexeme = ls ++ [.eof]) : ∃ q, Reads p ls q ∧ q.hasTokens = false := by
  induction ls generalizing p ts with
  | nil =>
      refine ⟨p, .nil, ?_⟩
      by_cases heof : p.current.kind = .eof
      · simp [hasTokens, heof]
      · obtain ⟨us, _, rfl⟩ := (tokens_eq_ok_iff heof).mp hp
        simp only [List.map_cons, List.nil_append, List.cons.injEq] at h
        exact absurd (by rw [Token.kind, h.1]; rfl) heof
  | cons l ls ih =>
      by_cases heof : p.current.kind = .eof
      · simp only [Parser.tokens, heof, if_true, Except.ok.injEq] at hp
        simp [← hp] at h
      · obtain ⟨us, hus, rfl⟩ := (tokens_eq_ok_iff heof).mp hp
        simp only [List.map_cons, List.cons_append, List.cons.injEq] at h
        obtain ⟨m, hn, hm⟩ := exists_next hus
        obtain ⟨q, hls, hq⟩ := ih hm h.2
        have hl : l ≠ .eof := fun hl => heof (by rw [Token.kind, h.1, hl]; rfl)
        exact ⟨q, .cons (takes_iff.mpr ⟨h.1, hl, hn⟩) hls, hq⟩

/-- The lexemes that a text falls into can be read from its start up to the end. -/
theorem exists_reads {source : String} {xs : List Lexeme} (h : Lexes source.toList xs) :
    ∃ p q : Parser, (Cursor.ofText source).next = .ok p.current p.cursor ∧ Reads p xs q ∧
      q.current.lexeme = .eof := by
  obtain ⟨ts, hts, hmap⟩ := lexes_iff.mp h
  obtain ⟨p, hn, hp⟩ := exists_next hts
  obtain ⟨q, hreads, hq⟩ := reads_of_tokens hp hmap
  simp only [hasTokens, bne_eq_false_iff_eq] at hq
  exact ⟨p, q, hn, hreads, Lexeme.eq_eof_of_kind hq⟩

end Parser

/-! ## Programs -/

open ScriptEngine.Parser Grammar

theorem onText_eq_ok_iff {α : Type} {rule : EStateM Error Parser α} {source : String} {a : α} :
    onText rule source = .ok a ↔
      ∃ p q : Parser, (Cursor.ofText source).next = .ok p.current p.cursor ∧ rule p = .ok a q := by
  unfold onText ofText
  cases hn : (Cursor.ofText source).next with
  | error e c => simp
  | ok t c =>
      constructor
      · intro h
        dsimp only at h
        split at h
        · rename_i q hr
          cases h
          exact ⟨⟨c, t⟩, q, rfl, hr⟩
        · cases h
      · rintro ⟨p, q, hp, hr⟩
        cases hp
        dsimp only
        rw [hr]

theorem parse_eq_ok_iff {source : String} {body : List Stmt} :
    parse source = .ok body ↔
      ∃ p q : Parser, (Cursor.ofText source).next = .ok p.current p.cursor ∧
        p.stmtsToEnd.result = .ok body q := onText_eq_ok_iff

/-- A text is parsed as a program exactly when its lexemes are statements. -/
theorem parse_eq_ok_iff_lexes {source : String} {body : List Stmt} :
    parse source = .ok body ↔ ∃ ls, Lexes source.toList ls ∧ IsStmts ls body := by
  rw [parse_eq_ok_iff]
  constructor
  · rintro ⟨p, q, hn, hr⟩
    obtain ⟨hq, ls, hls, hbody⟩ := isStmts_of_stmtsToEnd hr
    obtain ⟨ts, hts, hmap⟩ := Reads.tokens hls hq
    exact ⟨ls, lexes_iff.mpr ⟨ts, (tokens_of_next hn).trans hts, hmap⟩, hbody⟩
  · rintro ⟨ls, hls, hbody⟩
    obtain ⟨ts, hts, hmap⟩ := lexes_iff.mp hls
    obtain ⟨p, hn, hp⟩ := exists_next hts
    obtain ⟨q, hreads, hq⟩ := reads_of_tokens hp hmap
    exact ⟨p, q, hn, stmtsToEnd_of_isStmts hbody hreads hq⟩

/-- A text is parsed as a program exactly when it falls into tokens and these derive the program. A text
that does not fall into tokens is not parsed, wherever the fault in it is. -/
theorem parse_accepts_grammar (source : String) :
    (∀ body, parse source = .ok body ↔
      ∃ toks, tokenize source = .ok toks ∧ IsProgram (toks.map Token.lexeme) body) ∧
    ∀ e, tokenize source = .error e → ∃ e', parse source = .error e' := by
  have hiff : ∀ body, parse source = .ok body ↔
      ∃ toks, tokenize source = .ok toks ∧ IsProgram (toks.map Token.lexeme) body := by
    intro body
    rw [parse_eq_ok_iff]
    constructor
    · rintro ⟨p, q, hn, hr⟩
      obtain ⟨hq, ls, hls, hbody⟩ := isStmts_of_stmtsToEnd hr
      obtain ⟨toks, htoks, hlexemes⟩ := Reads.tokens hls hq
      refine ⟨toks, (tokens_of_next hn).trans htoks, ?_⟩
      rw [hlexemes]
      exact .toEnd hbody
    · rintro ⟨toks, htoks, hprogram⟩
      generalize hlexemes : toks.map Token.lexeme = ls at hprogram
      cases hprogram with
      | toEnd hbody =>
          obtain ⟨p, hn, hp⟩ := exists_next htoks
          obtain ⟨q, hls, hq⟩ := reads_of_tokens hp hlexemes
          exact ⟨p, q, hn, stmtsToEnd_of_isStmts hbody hls hq⟩
  refine ⟨hiff, fun e he => ?_⟩
  cases hparse : parse source with
  | error e' => exact ⟨e', rfl⟩
  | ok body =>
      obtain ⟨toks, htoks, _⟩ := (hiff body).mp hparse
      rw [he] at htoks
      cases htoks

end ScriptEngine
