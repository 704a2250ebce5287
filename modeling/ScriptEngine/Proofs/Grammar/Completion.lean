import ScriptEngine.Proofs.Grammar.Refusal

/-!
# Completing statements

What is read of a statement before a token is refused can be completed to a statement. Only here the second
half of a `>>` can be the token: the first has closed the argument list at the end of a declared type, and
nothing that may follow the type starts with a `>`.
-/

namespace ScriptEngine.Grammar

open ScriptEngine.Parser ScriptEngine.Outcome

/-- A type that ends with a `>` has an argument list. -/
theorem eq_template_of_isType {ks : List Lexeme} {t : Ty} (h : IsType (ks ++ [.symbol .greater]) t) :
    ∃ n ts, t = .template n ts := by
  generalize hks : ks ++ [Lexeme.symbol .greater] = ls at h
  cases h with
  | plain n =>
      have hlast := congrArg List.getLast? hks
      simp at hlast
  | empty n => exact ⟨n, [], rfl⟩
  | applied n hts => exact ⟨n, _, rfl⟩
  | list ht =>
      have hlast := congrArg List.getLast? hks
      simp at hlast

theorem isBlock_empty : IsBlock [.symbol .openBrace, .symbol .closeBrace] [] := .braces .nil

variable [Alphabet] {p q stop : Parser} {ls : List Lexeme} {e : Error}

/-! ## Declarations -/

/-- What is read after the first half of a `>>` starts with the second, if there is anything. -/
theorem reads_splitShift {ks : List Lexeme} (hs : p.sees .shiftRight = true) (hls : Reads p.splitShift ls q)
    (hreading : Reading ls ks) :
    (ls = [] ∧ ks = [] ∧ q = p.splitShift) ∨
    ∃ ms, Reads p ms q ∧ Reading ms (.symbol .greater :: ks) := by
  cases hls with
  | nil =>
      cases hreading
      exact .inl ⟨rfl, rfl, rfl⟩
  | cons ht hls =>
      obtain ⟨rfl, hshift⟩ := (takes_splitShift_iff hs).mp ht
      cases hreading with
      | same _ hreading => exact .inr ⟨_, .cons hshift hls, .halves hreading⟩

/-- What is read in parts is read in whole lexemes, or ends with half of a `>>`. -/
theorem reads_or_half {ks : List Lexeme} (h : ReadsParts p ks q) :
    (∃ ls, Reads p ls q ∧ Reading ls ks) ∨
    ∃ ls ms m, ks = ms ++ [.symbol .greater] ∧ Reads p ls m ∧ Reading ls ms ∧ m.sees .shiftRight = true ∧
      q = m.splitShift := by
  induction h with
  | nil => exact .inl ⟨[], .nil, .nil⟩
  | @cons p m q l ks ht _ ih =>
      cases ht with
      | whole ht =>
          rcases ih with ⟨ls, hls, hreading⟩ | ⟨ls, ms, r, rfl, hls, hreading, hs, rfl⟩
          · exact .inl ⟨l :: ls, .cons ht hls, .same l hreading⟩
          · exact .inr ⟨l :: ls, l :: ms, r, rfl, .cons ht hls, .same l hreading, hs, rfl⟩
      | half hs =>
          rcases ih with ⟨ls, hls, hreading⟩ | ⟨ls, ms, r, rfl, hls, hreading, hr, rfl⟩
          · rcases reads_splitShift hs hls hreading with ⟨rfl, rfl, rfl⟩ | hwhole
            · exact .inr ⟨[], [], p, rfl, .nil, .nil, hs, rfl⟩
            · exact .inl hwhole
          · rcases reads_splitShift hs hls hreading with ⟨rfl, rfl, rfl⟩ | ⟨ls', hls', hreading'⟩
            · -- the second half is no `>>` again
              rw [sees_iff, current_splitShift hs] at hr
              cases hr
            · exact .inr ⟨ls', _, r, rfl, hls', hreading', hr, rfl⟩

theorem halts_of_isType {ks : List Lexeme} {t : Ty} (h : ReadsParts p ks q) (ht : IsType ks t) :
    ∃ ls, Halts p ls q ∧ Reading ls ks := by
  rcases reads_or_half h with ⟨ls, hls, hreading⟩ | ⟨ls, ms, m, rfl, hls, hreading, hs, rfl⟩
  · exact ⟨ls, .whole hls, hreading⟩
  · obtain ⟨n, ts, rfl⟩ := eq_template_of_isType ht
    exact ⟨_, .half hls hs ⟨[], ls, ms, n, ts, rfl, hreading, ht⟩, hreading.append (.single _)⟩

theorem halts_of_decl {d : Decl} (h : p.decl.result = .ok d q) : ∃ ls, Halts p ls q ∧ IsDecl ls d := by
  unfold Parser.decl at h
  obtain ⟨n, p₁, _, hname, h⟩ := result_andThen_eq_ok_iff.mp h
  obtain ⟨_, p₂, _, hcolon, h⟩ := result_andThen_eq_ok_iff.mp h
  obtain ⟨t, p₃, _, htype, h⟩ := result_andThen_eq_ok_iff.mp h
  have hreads := Path.cons (takes_of_takeName hname) (.single (takes_of_require hcolon))
  obtain ⟨ks, hks, ht⟩ := isType_of_type htype
  split at h
  · rw [result_relax] at h
    obtain ⟨_, p₄, _, hassign, h⟩ := result_andThen_eq_ok_iff.mp h
    obtain ⟨a, hexpr, rfl⟩ := result_map_eq_ok_iff.mp h
    have hassign := takes_of_require hassign
    obtain ⟨ls, hls, hreading⟩ := reads_of_readsParts hks (hassign.not_sees (by simp))
    obtain ⟨ms, hms, ha⟩ := isExpr_of_expr hexpr
    exact ⟨_, .whole (hreads.append (hls.append (.cons hassign hms))), .init n hreading ht ha⟩
  · cases h
    obtain ⟨ls, hls, hreading⟩ := halts_of_isType hks ht
    exact ⟨_, hls.after hreads, .plain n hreading ht⟩

theorem halts_of_decls {p q : Parser} {ds : List Decl} (h : p.decls.result = .ok ds q) :
    ∃ ls, Halts p ls q ∧ IsDecls ls ds := by
  rw [Parser.decls] at h
  obtain ⟨d, p₁, hp₁, hdecl, h⟩ := result_andThen_eq_ok_iff.mp h
  split at h
  · rw [result_relax] at h
    obtain ⟨_, p₂, hp₂, hcomma, h⟩ := result_andThen_eq_ok_iff.mp h
    obtain ⟨rest, hrest, rfl⟩ := result_map_eq_ok_iff.mp h
    have hc := takes_of_require hcomma
    obtain ⟨ls, hls, hd⟩ := isDecl_of_decl hdecl (hc.not_sees (by simp))
    obtain ⟨ms, hms, hds⟩ := halts_of_decls hrest
    refine ⟨_, hms.after (hls.append (.single hc)), ?_⟩
    simpa using IsDecls.more hd hds
  · cases h
    obtain ⟨ls, hls, hd⟩ := halts_of_decl hdecl
    exact ⟨ls, hls, .last hd⟩
termination_by p.size

theorem refuses_decl (hp : p.Readable) (h : p.decl.result = .error e stop) :
    Refuses (∃ d, IsDecl · d) p e stop := by
  have hx : IsType [.name "x"] (.basic "x") := .plain "x"
  unfold Parser.decl at h
  rcases result_andThen_eq_error_iff.mp h with hname | ⟨n, p₁, _, hname, h⟩
  · obtain ⟨rfl, rfl⟩ := hp.takeName_error hname
    exact .next .nil (refused_expected _ _) [.name "x", .symbol .colon, .name "x"] rfl
      ⟨_, .plain "x" (.single _) hx⟩
  have hn := takes_of_takeName hname
  rcases result_andThen_eq_error_iff.mp h with hcolon | ⟨_, p₂, _, hcolon, h⟩
  · exact .missing hp (.single hn) hcolon [.symbol .colon, .name "x"] rfl ⟨_, .plain n (.single _) hx⟩
  have hreads := Path.cons hn (.single (takes_of_require hcolon))
  have hreadable := hp.reads hreads
  rcases result_andThen_eq_error_iff.mp h with htype | ⟨t, p₃, _, htype, h⟩
  · refine .after hreads (refuses_type hreadable htype) ?_
    rintro ms ⟨ks, t, hreading, ht⟩
    exact ⟨_, .plain n hreading ht⟩
  obtain ⟨ks, hks, ht⟩ := isType_of_type htype
  split at h
  · rename_i hs
    rw [result_relax] at h
    have hq : p₃.sees .greater = false := sees_of_lexeme_ne (sees_iff.mp hs) (by simp)
    obtain ⟨ls, hls, hreading⟩ := reads_of_readsParts hks hq
    rcases result_andThen_eq_error_iff.mp h with hassign | ⟨_, p₄, _, hassign, h⟩
    · exact absurd hassign ((hreadable.reads hls).not_require_error hs)
    have hreads := hreads.append (hls.append (.single (takes_of_require hassign)))
    rw [result_map_eq_error_iff] at h
    refine .after hreads (refuses_expr (hp.reads hreads) h) ?_
    rintro ms ⟨a, ha⟩
    refine ⟨⟨n, t, some a⟩, ?_⟩
    simpa using IsDecl.init n hreading ht ha
  · cases h

theorem refuses_decls {p stop : Parser} {e : Error} (hp : p.Readable) (h : p.decls.result = .error e stop) :
    Refuses (∃ ds, IsDecls · ds) p e stop := by
  rw [Parser.decls] at h
  rcases result_andThen_eq_error_iff.mp h with hdecl | ⟨d, p₁, hp₁, hdecl, h⟩
  · refine (refuses_decl hp hdecl).mono ?_
    rintro ms ⟨d, hd⟩
    exact ⟨[d], .last hd⟩
  split at h
  · rename_i hs
    rw [result_relax] at h
    have hq : p₁.sees .greater = false := sees_of_lexeme_ne (sees_iff.mp hs) (by simp)
    obtain ⟨ls, hls, hd⟩ := isDecl_of_decl hdecl hq
    rcases result_andThen_eq_error_iff.mp h with hcomma | ⟨_, p₂, hp₂, hcomma, h⟩
    · exact absurd hcomma ((hp.reads hls).not_require_error hs)
    have hreads := hls.append (.single (takes_of_require hcomma))
    rw [result_map_eq_error_iff] at h
    refine .after hreads (refuses_decls (hp.reads hreads) h) ?_
    rintro ms ⟨ds, hds⟩
    refine ⟨d :: ds, ?_⟩
    simpa using IsDecls.more hd hds
  · cases h
termination_by p.size

/-! ## Statements -/

/-- The lexemes of a statement. -/
def StmtText (ls : List Lexeme) : Prop := ∃ s, IsStmt ls s

theorem refuses_letStmt (hp : p.Readable) (h : p.letStmt.result = .error e stop) :
    Refuses StmtText p e stop := by
  unfold letStmt at h
  rcases result_andThen_eq_error_iff.mp h with hlet | ⟨_, p₁, _, hlet, h⟩
  · exact .missing hp .nil hlet [.symbol .kwLet, .name "x", .symbol .colon, .name "x", .symbol .semicolon] rfl
      ⟨_, .declare (.last (.plain "x" (.single _) (.plain "x")))⟩
  have hl := Path.single (takes_of_require hlet)
  rcases result_andThen_eq_error_iff.mp h with hdecls | ⟨ds, p₂, _, hdecls, h⟩
  · refine .within hl (refuses_decls (hp.reads hl) hdecls) [.symbol .semicolon] rfl ?_
    rintro ms ⟨ds, hds⟩
    exact ⟨_, .declare hds⟩
  -- here the second half of a `>>` may be ahead
  obtain ⟨ls, hls, hds⟩ := halts_of_decls hdecls
  rw [result_map_eq_error_iff] at h
  obtain ⟨rfl, _, hstop⟩ := (hls.readable (hp.reads hl)).require_error h
  exact ⟨hstop, _, [.symbol .semicolon], hls.after hl, rfl, _, .declare hds⟩

theorem refuses_returnStmt (hp : p.Readable) (h : p.returnStmt.result = .error e stop) :
    Refuses StmtText p e stop := by
  unfold returnStmt at h
  rcases result_andThen_eq_error_iff.mp h with hret | ⟨_, p₁, _, hret, h⟩
  · exact .missing hp .nil hret [.symbol .kwReturn, .symbol .semicolon] rfl ⟨_, .ret⟩
  have hr := takes_of_require hret
  split at h
  · rename_i hs
    rw [result_map_eq_error_iff] at h
    exact absurd h ((hp.takes hr).not_require_error hs)
  rcases result_andThen_eq_error_iff.mp h with hexpr | ⟨a, p₂, _, hexpr, h⟩
  · refine .within (.single hr) (refuses_expr (hp.takes hr) hexpr) [.symbol .semicolon] rfl ?_
    rintro ms ⟨a, ha⟩
    exact ⟨_, .retValue ha⟩
  obtain ⟨ls, hls, ha⟩ := isExpr_of_expr hexpr
  rw [result_map_eq_error_iff] at h
  exact .missing hp (.cons hr hls) h [.symbol .semicolon] rfl ⟨_, .retValue ha⟩

theorem refuses_keywordStmt {keyword : Symbol} {s : Stmt} (hp : p.Readable)
    (hs : IsStmt [.symbol keyword, .symbol .semicolon] s)
    (h : (p.keywordStmt keyword s).result = .error e stop) : Refuses StmtText p e stop := by
  unfold keywordStmt at h
  rcases result_andThen_eq_error_iff.mp h with hkeyword | ⟨_, p₁, _, hkeyword, h⟩
  · exact .missing hp .nil hkeyword [.symbol keyword, .symbol .semicolon] rfl ⟨s, hs⟩
  rw [result_map_eq_error_iff] at h
  exact .missing hp (.single (takes_of_require hkeyword)) h [.symbol .semicolon] rfl ⟨s, hs⟩

theorem refuses_simpleStmt (hp : p.Readable) (h : p.simpleStmt.result = .error e stop) :
    Refuses StmtText p e stop := by
  unfold simpleStmt at h
  rcases result_andThen_eq_error_iff.mp h with hexpr | ⟨a, p₁, _, hexpr, h⟩
  · refine .within .nil (refuses_expr hp hexpr) [.symbol .semicolon] rfl ?_
    rintro ms ⟨a, ha⟩
    exact ⟨_, .expr ha⟩
  obtain ⟨ls, hls, ha⟩ := isExpr_of_expr hexpr
  split at h
  · rename_i hs
    rcases result_andThen_eq_error_iff.mp h with hassign | ⟨_, p₂, _, hassign, h⟩
    · exact absurd hassign ((hp.reads hls).not_require_error hs)
    have hreads := hls.append (.single (takes_of_require hassign))
    rcases result_andThen_eq_error_iff.mp h with hvalue | ⟨v, p₃, _, hvalue, h⟩
    · refine .within hreads (refuses_expr (hp.reads hreads) hvalue) [.symbol .semicolon] rfl ?_
      rintro ms ⟨v, hv⟩
      exact ⟨_, by simpa using IsStmt.assign ha hv⟩
    obtain ⟨ms, hms, hv⟩ := isExpr_of_expr hvalue
    rw [result_map_eq_error_iff] at h
    refine .missing hp (hreads.append hms) h [.symbol .semicolon] rfl ⟨.assign a v, ?_⟩
    simpa using IsStmt.assign ha hv
  · rw [result_map_eq_error_iff] at h
    exact .missing hp hls h [.symbol .semicolon] rfl ⟨_, .expr ha⟩

mutual

theorem refuses_stmt {p stop : Parser} {e : Error} (hp : p.Readable) (h : p.stmt.result = .error e stop) :
    Refuses StmtText p e stop := by
  rw [Parser.stmt] at h
  split at h
  · rw [result_map_eq_error_iff] at h
    exact .missing hp .nil h [.symbol .semicolon] rfl ⟨_, .noop⟩
  · rw [result_map_eq_error_iff] at h
    refine (refuses_block hp h).mono ?_
    rintro ms ⟨body, hbody⟩
    exact ⟨_, .block hbody⟩
  · exact refuses_letStmt hp h
  · rename_i hs
    rcases result_andThen_eq_error_iff.mp h with hif | ⟨_, p₁, hp₁, hif, h⟩
    · exact absurd hif (hp.not_require_error (sees_iff.mpr hs))
    have hi := takes_of_require hif
    rw [result_map_eq_error_iff] at h
    refine .after (.single hi) (refuses_arm (hp.takes hi) h) ?_
    rintro ms ⟨branches, hb⟩
    exact ⟨_, .branch hb⟩
  · rename_i hs
    rcases result_andThen_eq_error_iff.mp h with hwhile | ⟨_, p₁, hp₁, hwhile, h⟩
    · exact absurd hwhile (hp.not_require_error (sees_iff.mpr hs))
    have hw := takes_of_require hwhile
    rcases result_andThen_eq_error_iff.mp h with hexpr | ⟨a, p₂, hp₂, hexpr, h⟩
    · refine .within (.single hw) (refuses_expr (hp.takes hw) hexpr) [.symbol .openBrace, .symbol .closeBrace] rfl ?_
      rintro ms ⟨a, ha⟩
      have hloop := IsStmt.loop ha isBlock_empty
      exact ⟨_, hloop⟩
    obtain ⟨ls, hls, ha⟩ := isExpr_of_expr hexpr
    have hreads := Path.cons hw hls
    rw [result_map_eq_error_iff] at h
    refine .after hreads (refuses_block (hp.reads hreads) h) ?_
    rintro ms ⟨body, hbody⟩
    exact ⟨_, .loop ha hbody⟩
  · exact refuses_returnStmt hp h
  · exact refuses_keywordStmt hp .break h
  · exact refuses_keywordStmt hp .continue h
  · exact refuses_simpleStmt hp h
termination_by 3 * p.size + 1

theorem refuses_arm {p stop : Parser} {e : Error} (hp : p.Readable) (h : p.arm.result = .error e stop) :
    Refuses (∃ branches, IsBranches · branches) p e stop := by
  rw [arm] at h
  rcases result_andThen_eq_error_iff.mp h with hexpr | ⟨a, p₁, hp₁, hexpr, h⟩
  · refine .within .nil (refuses_expr hp hexpr) [.symbol .openBrace, .symbol .closeBrace] rfl ?_
    rintro ms ⟨a, ha⟩
    have harm := IsBranches.last ha isBlock_empty
    exact ⟨_, harm⟩
  obtain ⟨ls, hls, ha⟩ := isExpr_of_expr hexpr
  rcases result_andThen_eq_error_iff.mp h with hblock | ⟨body, p₂, hp₂, hblock, h⟩
  · refine .after hls (refuses_block (hp.reads hls) hblock) ?_
    rintro ms ⟨body, hbody⟩
    exact ⟨_, .last ha hbody⟩
  obtain ⟨ms, hms, hbody⟩ := isBlock_of_block hblock
  have hreads := hls.append hms
  rw [result_map_eq_error_iff] at h
  refine .after hreads (refuses_elses ha hbody (hp.reads hreads) h) ?_
  rintro ns ⟨branches, hb⟩
  refine ⟨branches, ?_⟩
  rwa [List.append_assoc]
termination_by 3 * p.size

/-- What follows an arm is completed together with it. -/
theorem refuses_elses {p stop : Parser} {ls ms : List Lexeme} {a : Expr} {body : List Stmt} {e : Error}
    (ha : IsExpr ls a) (hbody : IsBlock ms body) (hp : p.Readable) (h : p.elses.result = .error e stop) :
    Refuses (fun ns => ∃ branches, IsBranches (ls ++ (ms ++ ns)) branches) p e stop := by
  rw [elses] at h
  split at h
  · rename_i hs
    rw [result_relax] at h
    rcases result_andThen_eq_error_iff.mp h with helse | ⟨_, p₁, hp₁, helse, h⟩
    · exact absurd helse (hp.not_require_error hs)
    have he := takes_of_require helse
    split at h
    · rename_i hs
      rcases result_andThen_eq_error_iff.mp h with hif | ⟨_, p₂, hp₂, hif, h⟩
      · exact absurd hif ((hp.takes he).not_require_error hs)
      have hreads := Path.cons he (.single (takes_of_require hif))
      refine .after hreads (refuses_arm (hp.reads hreads) h) ?_
      rintro ns ⟨rest, hrest⟩
      exact ⟨_, .elseIf ha hbody hrest⟩
    · rw [result_map_eq_error_iff] at h
      refine .after (.single he) (refuses_block (hp.takes he) h) ?_
      rintro ns ⟨rest, hrest⟩
      exact ⟨_, .otherwise ha hbody hrest⟩
  · cases h
termination_by 3 * p.size

theorem refuses_block {p stop : Parser} {e : Error} (hp : p.Readable) (h : p.block.result = .error e stop) :
    Refuses (∃ body, IsBlock · body) p e stop := by
  rw [Parser.block] at h
  rcases result_andThen_eq_error_iff.mp h with hopen | ⟨_, p₁, hp₁, hopen, h⟩
  · exact .missing hp .nil hopen [.symbol .openBrace, .symbol .closeBrace] rfl ⟨[], isBlock_empty⟩
  have ho := takes_of_require hopen
  rcases result_andThen_eq_error_iff.mp h with hstmts | ⟨body, p₂, hp₂, hstmts, h⟩
  · refine .within (.single ho) (refuses_stmts (hp.takes ho) hstmts) [.symbol .closeBrace] rfl ?_
    rintro ms ⟨body, hbody⟩
    exact ⟨body, .braces hbody⟩
  obtain ⟨ls, hls, hbody⟩ := isStmts_of_stmts hstmts
  rw [result_map_eq_error_iff] at h
  exact .missing hp (.cons ho hls) h [.symbol .closeBrace] rfl ⟨body, .braces hbody⟩
termination_by 3 * p.size

theorem refuses_stmts {p stop : Parser} {e : Error} (hp : p.Readable) (h : p.stmts.result = .error e stop) :
    Refuses (∃ body, IsStmts · body) p e stop := by
  rw [stmts] at h
  split at h
  · cases h
  · split at h
    · rw [result_relax] at h
      rcases result_andThen_eq_error_iff.mp h with hstmt | ⟨s, p₁, hp₁, hstmt, h⟩
      · refine (refuses_stmt hp hstmt).mono ?_
        rintro ms ⟨s, hs⟩
        exact ⟨[s], by simpa using IsStmts.cons hs .nil⟩
      obtain ⟨ls, hls, hs⟩ := isStmt_of_stmt hstmt
      rw [result_map_eq_error_iff] at h
      refine .after hls (refuses_stmts (hp.reads hls) h) ?_
      rintro ms ⟨body, hbody⟩
      exact ⟨_, .cons hs hbody⟩
    · cases h
      exact .next .nil p.refused_unexpected [] rfl ⟨[], .nil⟩
termination_by 3 * p.size + 2

end

theorem refuses_stmtsToEnd {p stop : Parser} {e : Error} (hp : p.Readable)
    (h : p.stmtsToEnd.result = .error e stop) : Refuses (∃ body, IsStmts · body) p e stop := by
  rw [stmtsToEnd] at h
  split at h
  · rw [result_relax] at h
    rcases result_andThen_eq_error_iff.mp h with hstmt | ⟨s, p₁, hp₁, hstmt, h⟩
    · refine (refuses_stmt hp hstmt).mono ?_
      rintro ms ⟨s, hs⟩
      exact ⟨[s], by simpa using IsStmts.cons hs .nil⟩
    obtain ⟨ls, hls, hs⟩ := isStmt_of_stmt hstmt
    rw [result_map_eq_error_iff] at h
    refine .after hls (refuses_stmtsToEnd (hp.reads hls) h) ?_
    rintro ms ⟨body, hbody⟩
    exact ⟨_, .cons hs hbody⟩
  · cases h
termination_by p.size

end ScriptEngine.Grammar
