import ScriptEngine.Proofs.Grammar.Program
import ScriptEngine.Proofs.Token.Newline

/-!
# Texts that are one expression

An expression that stands by itself is read to the end of its text, and one that is a statement to its semicolon. A
semicolon on a line of its own after the text makes the one into the other: no comment reaches it, and a string or
a comment that is still open there is open at the end of the text as well.
-/

namespace ScriptEngine

open ScriptEngine.Parser Grammar

variable {source : String} {e : Expr}

theorem Grammar.EndsExpr.of_end {p : Parser} (h : p.current.lexeme = .eof) : EndsExpr p where
  bracket := by simp [sees, Token.kind, h, Lexeme.kind]
  operator := by simp [operator?, h]

theorem isStmts_expr_iff {ls : List Lexeme} :
    IsStmts (ls ++ [.symbol .semicolon]) [.expr e] ↔ IsExpr ls e := by
  constructor
  · intro h
    generalize hls : ls ++ [.symbol .semicolon] = ms at h
    cases h with
    | cons hstmt hrest =>
        cases hrest
        cases hstmt with
        | expr he =>
            rw [List.append_nil] at hls
            rwa [List.append_cancel_right hls]
  · intro he
    have h : IsStmts (ls ++ [.symbol .semicolon] ++ []) [.expr e] := .cons (.expr he) .nil
    rwa [List.append_nil] at h

variable [Alphabet]

theorem readWholeExpr_eq_ok_iff {p q : Parser} :
    readWholeExpr p = .ok e q ↔ (p.expr .default).result = .ok e q ∧ q.hasTokens = false := by
  unfold readWholeExpr readExpr
  cases (p.expr .default).result with
  | error => simp
  | ok e' q' =>
      dsimp only
      split
      · rename_i htokens
        refine iff_of_false nofun ?_
        rintro ⟨⟨⟩, hend⟩
        rw [htokens] at hend
        cases hend
      · rename_i htokens
        refine ⟨?_, fun h => h.1⟩
        rintro ⟨⟩
        exact ⟨rfl, Bool.eq_false_iff.2 htokens⟩

/-- A text is parsed as an expression exactly when its lexemes are one. -/
theorem parseExpr_eq_ok_iff_lexes : parseExpr source = .ok e ↔ ∃ ls, Lexes source.toList ls ∧ IsExpr ls e := by
  constructor
  · intro h
    obtain ⟨p, q, hn, hr⟩ := onText_eq_ok_iff.1 h
    obtain ⟨hexpr, hend⟩ := readWholeExpr_eq_ok_iff.1 hr
    obtain ⟨ls, hls, he⟩ := isExpr_of_expr hexpr
    obtain ⟨ts, hts, hmap⟩ := Reads.tokens hls hend
    exact ⟨ls, lexes_iff.2 ⟨ts, (tokens_of_next hn).trans hts, hmap⟩, he⟩
  · rintro ⟨ls, hls, he⟩
    obtain ⟨p, q, hn, hreads, heof⟩ := exists_reads hls
    have hexpr := expr_of_isExpr he hreads (.of_end heof)
    have hend : q.hasTokens = false := by simp [hasTokens, Token.kind, heof, Lexeme.kind]
    exact onText_eq_ok_iff.2 ⟨p, q, hn, readWholeExpr_eq_ok_iff.2 ⟨hexpr, hend⟩⟩

/-- The lexemes of a text with a semicolon on a line of its own after it. -/
theorem lexes_semicolon_iff {cs : List Char} {xs : List Lexeme} :
    Lexes (cs ++ ['\n', ';']) xs ↔ ∃ ys, xs = ys ++ [.symbol .semicolon] ∧ Lexes cs ys := by
  have hsemicolon : Lexes [';'] [.symbol .semicolon] :=
    .lexeme (l := [';']) .nil ⟨rfl, rfl⟩ (Scan.front_punctuation (by decide) (by decide) rfl) nofun (.eof .nil)
  constructor
  · intro h
    obtain ⟨ys, zs, rfl, hys, hzs⟩ := h.newline (by decide) (by decide)
    exact ⟨ys, by rw [hzs.unique hsemicolon], hys⟩
  · rintro ⟨ys, rfl, hys⟩
    rw [← List.append_nil ys] at hys
    obtain ⟨cs', _, hall, hsplice⟩ := hys.splice
    rw [← hall rfl]
    exact hsplice hsemicolon

/-- A text is an expression exactly if, with a semicolon on a line of its own after it, it is a program whose only
statement is that expression. -/
theorem expression_and_statement_agree (source : String) (e : Expr) :
    parseExpr source = .ok e ↔ parse (source ++ "\n;") = .ok [.expr e] := by
  have htext : (source ++ "\n;").toList = source.toList ++ ['\n', ';'] := String.toList_append
  rw [parseExpr_eq_ok_iff_lexes, parse_eq_ok_iff_lexes, htext]
  constructor
  · rintro ⟨ls, hls, he⟩
    exact ⟨_, lexes_semicolon_iff.2 ⟨ls, rfl, hls⟩, isStmts_expr_iff.2 he⟩
  · rintro ⟨_, hlexes, hstmts⟩
    obtain ⟨ls, rfl, hls⟩ := lexes_semicolon_iff.1 hlexes
    exact ⟨ls, hls, isStmts_expr_iff.1 hstmts⟩

end ScriptEngine
