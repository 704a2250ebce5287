import ScriptEngine.Proofs.Execution.Pieces
import ScriptEngine.Proofs.Grammar.Completion
import ScriptEngine.Proofs.Parser.Lookahead
import ScriptEngine.Proofs.Token.Spelling
import ScriptEngine.Text.Unicode

/-!
# Errors at the first offending token

The tokens before the one that an error is about are the start of some program, and with it they are not: an
error is as early as it can be, and not earlier.
-/

namespace ScriptEngine

open ScriptEngine.Parser Grammar

section

variable [Alphabet]

/-- Some text that is parsed starts with these lexemes. -/
def Viable (ls : List Lexeme) : Prop :=
  ∃ source ts body, tokenize source = .ok ts ∧ ls <+: ts.map Token.lexeme ∧ parse source = .ok body

/-! ## Completing texts -/

theorem exists_spells {ls : List Lexeme} (h : ls.all Completes = true) : ∃ cs, Spells ls cs := by
  have hblank : Separator [' '] := .mk (.inl rfl) .nil
  induction ls with
  | nil => exact ⟨_, .done hblank⟩
  | cons l ls ih =>
      rw [List.all_cons, Bool.and_eq_true] at h
      obtain ⟨cs, hcs⟩ := ih h.2
      cases l with
      | name n =>
          obtain rfl : n = "x" := by simpa [Completes] using h.1
          have hx : Lexeme.Spelled (.name "x") ['x'] :=
            .name (Alphabet.isAlphabetic_of_isAlpha rfl) nofun (by decide) (by decide)
          exact ⟨_, .next hblank hx hcs⟩
      | symbol s => exact ⟨_, .next hblank (.symbol s) hcs⟩
      | eof => cases h.1
      | constant c => cases h.1

theorem exists_lexes {ls : List Lexeme} (h : ls.all Completes = true) : ∃ cs, Lexes cs ls := by
  obtain ⟨cs, hcs⟩ := exists_spells h
  have hspells : Spells ls (Cursor.ofText (String.ofList cs)).rest := by rwa [Cursor.rest_ofText, String.toList_ofList]
  exact ⟨(String.ofList cs).toList, lexes_iff.mpr hspells.tokens⟩

theorem lexes_of_tokenize {source : String} {before after : List Token} {t : Token}
    (h : tokenize source = .ok (before ++ t :: after)) :
    ∃ ms, Lexes source.toList (before.map Token.lexeme ++ ms) := by
  obtain ⟨ls, hls, hmap⟩ := lexes_of_tokens h
  rw [Cursor.rest_ofText] at hls
  have hlength := congrArg List.length hmap
  rw [List.map_append] at hmap
  have hprefix : before.map Token.lexeme <+: ls := by
    refine List.prefix_of_prefix_length_le ⟨_, hmap⟩ (List.prefix_append ls _) ?_
    simp only [List.length_map, List.length_append, List.length_cons, List.length_nil] at hlength ⊢
    omega
  obtain ⟨ms, rfl⟩ := hprefix
  exact ⟨ms, hls⟩

/-- Lexemes at the start of a text and others that complete them are those of some text. -/
theorem viable_of_isStmts {source : String} {before after : List Token} {t : Token} {more ls : List Lexeme}
    {body : List Stmt} (h : tokenize source = .ok (before ++ t :: after)) (hmore : more.all Completes = true)
    (hbody : IsStmts (before.map Token.lexeme ++ more) body) (hls : ls <+: before.map Token.lexeme ++ more) :
    Viable ls := by
  obtain ⟨ms, hms⟩ := lexes_of_tokenize h
  obtain ⟨ds, hds⟩ := exists_lexes hmore
  obtain ⟨cs, _, _, hsplice⟩ := hms.splice
  have hlexes : Lexes (String.ofList (cs ++ '\n' :: ds)).toList (before.map Token.lexeme ++ more) := by
    rw [String.toList_ofList]
    exact hsplice hds
  obtain ⟨ts, hts, hmap⟩ := lexes_iff.mp hlexes
  refine ⟨_, ts, body, hts, ?_, parse_eq_ok_iff_lexes.mpr ⟨_, hlexes, hbody⟩⟩
  rw [hmap]
  exact hls.trans (List.prefix_append _ _)

/-! ## The token that is refused -/

namespace Parser

variable {n : Nat} {p p' q : Parser} {ls : List Lexeme} {ts : List Token}

theorem tokens_head (h : p.tokens = .ok ts) : ∃ us, ts = p.current :: us := by
  by_cases hk : p.current.kind = .eof
  · rw [Parser.tokens, if_pos hk] at h
    cases h
    exact ⟨[], rfl⟩
  · obtain ⟨us, _, rfl⟩ := (tokens_eq_ok_iff hk).mp h
    exact ⟨us, rfl⟩

/-- What has been read are the tokens before the one ahead. -/
theorem Reads.tokens_before (h : Reads p ls q) (hp : p.tokens = .ok ts) :
    ∃ before after, ts = before ++ q.current :: after ∧ before.map Token.lexeme = ls := by
  induction h generalizing ts with
  | nil =>
      obtain ⟨us, rfl⟩ := tokens_head hp
      exact ⟨[], us, rfl, rfl⟩
  | @cons p m q l ls ht _ ih =>
      obtain ⟨us, hus, rfl⟩ := (tokens_eq_ok_iff ht.kind_ne_eof).mp hp
      obtain ⟨_, _, hn⟩ := takes_iff.mp ht
      obtain ⟨before, after, rfl, hmap⟩ := ih ((tokens_of_next hn).symm.trans hus)
      exact ⟨p.current :: before, after, rfl, by simp [ht.lexeme, hmap]⟩

/-- Parsers of which one reads what the other starts with are alike up to the token that comes then. -/
theorem alike_of_reads (h : Reads p ls q) (hq : q.Readable) (hk : q.current.kind ≠ .eof)
    (hn : q.cursor.rest.length < n) (hp' : p'.tokens = .ok ts)
    (hts : ls ++ [q.current.lexeme] <+: ts.map Token.lexeme) : Alike n p p' := by
  induction h generalizing p' ts with
  | nil =>
      obtain ⟨us, rfl⟩ := tokens_head hp'
      obtain ⟨r, hr⟩ := hq.exists_takes hk
      refine .last hr ?_ hn
      simpa [eq_comm] using hts
  | @cons p m q l ls ht _ ih =>
      obtain ⟨us, rfl⟩ := tokens_head hp'
      obtain ⟨hl, hts⟩ := List.cons_prefix_cons.mp hts
      have hk' : p'.current.kind ≠ .eof := by
        rw [Token.kind, ← hl, ← ht.lexeme]
        exact ht.kind_ne_eof
      obtain ⟨us, hus, hcons⟩ := (tokens_eq_ok_iff hk').mp hp'
      cases hcons
      obtain ⟨m', hn', hm'⟩ := exists_next hus
      have ht' : Takes p' l m' := takes_iff.mpr ⟨hl.symm, (takes_iff.mp ht).2.1, hn'⟩
      exact .step ht ht' (ih hq hk hn hm' hts)

end Parser

theorem parse_of_next {source : String} {p : Parser}
    (hn : (Cursor.ofText source).next = .ok p.current p.cursor) :
    parse source = match p.stmtsToEnd.result with
      | .ok body _ => .ok body
      | .error e _ => .error e := by
  unfold parse onText ofText readProgram
  rw [hn]
  dsimp only
  cases p.stmtsToEnd.result <;> rfl

theorem not_viable {p q stop : Parser} {ls : List Lexeme} {e : Error} (hp : p.Readable)
    (he : p.stmtsToEnd.result = .error e stop) (h : Reads p ls q) (hk : q.current.kind ≠ .eof)
    (hn : q.cursor.rest.length < stop.size) : ¬Viable (ls ++ [q.current.lexeme]) := by
  rintro ⟨source, ts, body, hts, hls, hparse⟩
  obtain ⟨p', hn', hp'⟩ := exists_next hts
  have halike := alike_of_reads h (hp.reads h) hk hn hp' hls
  obtain ⟨e', q', he'⟩ := halike.stmtsToEnd.2 e stop he le_rfl
  rw [parse_of_next hn', he'] at hparse
  cases hparse

/-- An error of a text that falls into tokens is about a token `t` of it, or about the second half of a `>>` whose
first half closes an argument list. The tokens before `t`, and the first half with them, start a program, and the
tokens up to `t` start none, unless `t` is the end. -/
theorem parse_error_at_first_offence {source : String} {ts : List Token} {e : Error}
    (hts : tokenize source = .ok ts) (he : parse source = .error e) :
    ∃ before t after what, ts = before ++ t :: after ∧
      ((e = .located t.position (.unexpectedToken t.text what) ∧ Viable (before.map Token.lexeme)) ∨
        (t.lexeme = .symbol .shiftRight ∧
          e = .located ⟨t.position.line, t.position.column + 1⟩ (.unexpectedToken Symbol.greater.text what) ∧
          EndsTemplate (before.map Token.lexeme) ∧
          Viable (before.map Token.lexeme ++ [.symbol .greater]))) ∧
      (t.kind ≠ .eof → ¬Viable (before.map Token.lexeme ++ [t.lexeme])) := by
  obtain ⟨p, hn, hp⟩ := exists_next hts
  rw [parse_of_next hn] at he
  split at he
  · cases he
  · rename_i stop hr
    cases he
    obtain ⟨⟨what, rfl⟩, ls, more, hhalts, hmore, body, hbody⟩ := refuses_stmtsToEnd ⟨ts, hp⟩ hr
    cases hhalts with
    | whole hls =>
        obtain ⟨before, after, rfl, rfl⟩ := hls.tokens_before hp
        refine ⟨before, stop.current, after, what, rfl, .inl ⟨rfl, ?_⟩, fun hk => ?_⟩
        · exact viable_of_isStmts hts hmore hbody (List.prefix_append _ _)
        · exact not_viable ⟨_, hp⟩ hr hls hk (length_lt_size hk)
    | @half m _ hls hs htemplate =>
        obtain ⟨before, after, rfl, rfl⟩ := hls.tokens_before hp
        rw [List.append_assoc] at hbody
        rw [current_splitShift hs]
        refine ⟨before, m.current, after, what, rfl, .inr ⟨sees_iff.mp hs, rfl, htemplate, ?_⟩, fun hk => ?_⟩
        · refine viable_of_isStmts hts ?_ hbody ?_
          · rw [List.singleton_append, List.all_cons, hmore]
            rfl
          · exact ⟨more, by simp⟩
        · refine not_viable ⟨_, hp⟩ hr hls hk ?_
          rw [Parser.size, current_splitShift hs, cursor_splitShift]
          exact Nat.lt_succ_self _

end

open scoped Unicode16

/-- No program starts with a closing parenthesis. -/
theorem parse_error_at_parenthesis :
    tokenize ")" = .ok [⟨.symbol .closeParen, ⟨1, 1⟩⟩, ⟨.eof, ⟨1, 2⟩⟩] ∧
    parse ")" = .error (.located ⟨1, 1⟩ (.unexpectedToken ")" none)) ∧ ¬Viable [.symbol .closeParen] := by
  have hstart : (Cursor.ofText ")").rest = [] ++ [')'] := Cursor.rest_ofText ")"
  obtain ⟨b, hpass, hb, hparen⟩ := Cursor.next_of_lexeme (n := 1) hstart .nil rfl rfl rfl
  have hend : (b.skip 1).rest = [] ++ [] := by
    rw [Cursor.rest_skip, hb]
    rfl
  obtain ⟨d, hpass', _, heof⟩ := Cursor.next_of_lexeme hend .nil rfl rfl rfl
  have hpos : b.position = ⟨1, 1⟩ := hpass.position
  have hpos' : d.position = ⟨1, 2⟩ := by
    rw [hpass'.position, Cursor.position_skip, hb, hpos]
    rfl
  rw [hpos] at hparen
  rw [hpos'] at heof
  have hts : tokenize ")" = .ok [⟨.symbol .closeParen, ⟨1, 1⟩⟩, ⟨.eof, ⟨1, 2⟩⟩] := by
    rw [tokenize, Cursor.tokens_of_next hparen, if_neg (by decide), Cursor.tokens_of_next heof]
    rfl
  let p : Parser := ⟨b.skip 1, ⟨.symbol .closeParen, ⟨1, 1⟩⟩⟩
  have hfactor : p.factor.result = .error p.unexpected p := by
    rw [Parser.factor]
    rfl
  have hexpr : (p.expr .default).result = .error p.unexpected p := by
    rw [Parser.expr]
    exact Outcome.result_andThen_eq_error_iff.mpr (.inl hfactor)
  have hstmt : p.stmt.result = .error p.unexpected p := by
    rw [Parser.stmt]
    exact Outcome.result_andThen_eq_error_iff.mpr (.inl hexpr)
  have htokens : p.hasTokens = true := rfl
  have hprogram : p.stmtsToEnd.result = .error p.unexpected p := by
    rw [Parser.stmtsToEnd, if_pos htokens, Outcome.result_relax]
    exact Outcome.result_andThen_eq_error_iff.mpr (.inl hstmt)
  have he : parse ")" = .error (.located ⟨1, 1⟩ (.unexpectedToken ")" none)) := by
    rw [parse_of_next (p := p) hparen, hprogram]
    rfl
  refine ⟨hts, he, ?_⟩
  obtain ⟨before, t, after, what, hsplit, hwhere, hno⟩ := parse_error_at_first_offence hts he
  rcases before with _ | ⟨_, _ | ⟨_, _⟩⟩
  · obtain ⟨rfl, rfl⟩ := List.cons.inj hsplit
    exact hno (by decide)
  · -- the end is at another position
    cases hsplit
    rcases hwhere with ⟨he', _⟩ | ⟨hshift, _⟩
    · simp [Error.located] at he'
    · cases hshift
  · simp at hsplit

end ScriptEngine
