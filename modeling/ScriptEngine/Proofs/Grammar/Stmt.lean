import ScriptEngine.Parser.Rules
import ScriptEngine.Proofs.Grammar.Expr
import ScriptEngine.Proofs.Grammar.Type

/-!
# Statements are read by the grammar

What is read as statements derives them. A derivation of a statement is read as the statement unless an
`else` comes after it, which starts no statement.
-/

namespace ScriptEngine.Grammar

open ScriptEngine.Parser ScriptEngine.Outcome

/-- Whether a lexeme can come first in a statement. -/
def opensStmt (l : Lexeme) : Bool := l.kind.startsStmt || l.kind.startsFactor

theorem opensStmt_of_startsFactor {l : Lexeme} (h : l.kind.startsFactor = true) : opensStmt l = true := by
  simp [opensStmt, h]

theorem ne_symbol_of_opensStmt {l : Lexeme} {s : Symbol} (h : opensStmt l = true)
    (hs : opensStmt (.symbol s) = false) : l ≠ .symbol s := by
  rintro rfl
  rw [hs] at h
  cases h

theorem EndsExpr.not_sees_less {p : Parser} (h : EndsExpr p) : p.sees .less = false := by
  rw [Bool.eq_false_iff]
  intro hs
  have hless : p.current.lexeme = .symbol BinaryOp.lt.symbol := sees_iff.mp hs
  have hop := operator?_default hless
  rw [h.operator] at hop
  cases hop

theorem IsStmt.head {ls : List Lexeme} {s : Stmt} (h : IsStmt ls s) :
    ∃ l ms, ls = l :: ms ∧ opensStmt l = true := by
  cases h with
  | block hb =>
      cases hb
      exact ⟨_, _, rfl, rfl⟩
  | expr he =>
      obtain ⟨l, ms, rfl, hl⟩ := he.head
      exact ⟨l, _, rfl, opensStmt_of_startsFactor hl⟩
  | assign he _ =>
      obtain ⟨l, ms, rfl, hl⟩ := he.head
      exact ⟨l, _, rfl, opensStmt_of_startsFactor hl⟩
  | _ => exact ⟨_, _, rfl, rfl⟩

variable [Alphabet]

/-! ## What is read -/

theorem isDecl_of_decl {p q : Parser} {d : Decl} (h : p.decl.result = .ok d q)
    (hq : q.sees .greater = false) : ∃ ls, Reads p ls q ∧ IsDecl ls d := by
  unfold Parser.decl at h
  obtain ⟨n, p₁, _, hname, h⟩ := result_andThen_eq_ok_iff.mp h
  obtain ⟨_, p₂, _, hcolon, h⟩ := result_andThen_eq_ok_iff.mp h
  obtain ⟨t, p₃, _, htype, h⟩ := result_andThen_eq_ok_iff.mp h
  have hn := takes_of_takeName hname
  have hc := takes_of_require hcolon
  obtain ⟨ks, hks, ht⟩ := isType_of_type htype
  -- Half of a `>>` may be left ahead of the type, but then what is asked for next is refused.
  split at h
  · rw [result_relax] at h
    obtain ⟨_, p₄, _, hassign, h⟩ := result_andThen_eq_ok_iff.mp h
    obtain ⟨e, hexpr, rfl⟩ := result_map_eq_ok_iff.mp h
    have ha := takes_of_require hassign
    obtain ⟨ls, hls, hreading⟩ := reads_of_readsParts hks (ha.not_sees (by simp))
    obtain ⟨ms, hms, he⟩ := isExpr_of_expr hexpr
    exact ⟨_, .cons hn (.cons hc (hls.append (.cons ha hms))), .init n hreading ht he⟩
  · cases h
    obtain ⟨ls, hls, hreading⟩ := reads_of_readsParts hks hq
    exact ⟨_, .cons hn (.cons hc hls), .plain n hreading ht⟩

theorem isDecls_of_decls {p q : Parser} {ds : List Decl} (h : p.decls.result = .ok ds q)
    (hq : q.sees .greater = false) : ∃ ls, Reads p ls q ∧ IsDecls ls ds := by
  rw [Parser.decls] at h
  obtain ⟨d, p₁, hp₁, hdecl, h⟩ := result_andThen_eq_ok_iff.mp h
  split at h
  · rw [result_relax] at h
    obtain ⟨_, p₂, hp₂, hcomma, h⟩ := result_andThen_eq_ok_iff.mp h
    obtain ⟨rest, hrest, rfl⟩ := result_map_eq_ok_iff.mp h
    have hc := takes_of_require hcomma
    obtain ⟨ls, hls, hd⟩ := isDecl_of_decl hdecl (hc.not_sees (by simp))
    obtain ⟨ms, hms, hds⟩ := isDecls_of_decls hrest hq
    exact ⟨_, hls.append (.cons hc hms), .more hd hds⟩
  · cases h
    obtain ⟨ls, hls, hd⟩ := isDecl_of_decl hdecl hq
    exact ⟨_, hls, .last hd⟩
termination_by p.size

theorem isStmt_of_letStmt {p q : Parser} {s : Stmt} (h : p.letStmt.result = .ok s q) :
    ∃ ls, Reads p ls q ∧ IsStmt ls s := by
  unfold letStmt at h
  obtain ⟨_, p₁, _, hlet, h⟩ := result_andThen_eq_ok_iff.mp h
  obtain ⟨ds, p₂, _, hdecls, h⟩ := result_andThen_eq_ok_iff.mp h
  obtain ⟨_, hsemi, rfl⟩ := result_map_eq_ok_iff.mp h
  have hs := takes_of_require hsemi
  obtain ⟨ls, hls, hds⟩ := isDecls_of_decls hdecls (hs.not_sees (by simp))
  exact ⟨_, .cons (takes_of_require hlet) (hls.append (.single hs)), .declare hds⟩

theorem isStmt_of_returnStmt {p q : Parser} {s : Stmt} (h : p.returnStmt.result = .ok s q) :
    ∃ ls, Reads p ls q ∧ IsStmt ls s := by
  unfold returnStmt at h
  obtain ⟨_, p₁, _, hret, h⟩ := result_andThen_eq_ok_iff.mp h
  have hr := takes_of_require hret
  split at h
  · obtain ⟨_, hsemi, rfl⟩ := result_map_eq_ok_iff.mp h
    exact ⟨_, .cons hr (.single (takes_of_require hsemi)), .ret⟩
  · obtain ⟨e, p₂, _, hexpr, h⟩ := result_andThen_eq_ok_iff.mp h
    obtain ⟨_, hsemi, rfl⟩ := result_map_eq_ok_iff.mp h
    obtain ⟨ls, hls, he⟩ := isExpr_of_expr hexpr
    exact ⟨_, .cons hr (hls.append (.single (takes_of_require hsemi))), .retValue he⟩

theorem reads_of_keywordStmt {p q : Parser} {keyword : Symbol} {s s' : Stmt}
    (h : (p.keywordStmt keyword s).result = .ok s' q) :
    s' = s ∧ Reads p [.symbol keyword, .symbol .semicolon] q := by
  unfold keywordStmt at h
  obtain ⟨_, p₁, _, hkeyword, h⟩ := result_andThen_eq_ok_iff.mp h
  obtain ⟨_, hsemi, rfl⟩ := result_map_eq_ok_iff.mp h
  exact ⟨rfl, .cons (takes_of_require hkeyword) (.single (takes_of_require hsemi))⟩

theorem isStmt_of_simpleStmt {p q : Parser} {s : Stmt} (h : p.simpleStmt.result = .ok s q) :
    ∃ ls, Reads p ls q ∧ IsStmt ls s := by
  unfold simpleStmt at h
  obtain ⟨e, p₁, _, hexpr, h⟩ := result_andThen_eq_ok_iff.mp h
  obtain ⟨ls, hls, he⟩ := isExpr_of_expr hexpr
  split at h
  · obtain ⟨_, p₂, _, hassign, h⟩ := result_andThen_eq_ok_iff.mp h
    obtain ⟨v, p₃, _, hvalue, h⟩ := result_andThen_eq_ok_iff.mp h
    obtain ⟨_, hsemi, rfl⟩ := result_map_eq_ok_iff.mp h
    obtain ⟨ms, hms, hv⟩ := isExpr_of_expr hvalue
    have hrest := hms.append (.single (takes_of_require hsemi))
    exact ⟨_, hls.append (.cons (takes_of_require hassign) hrest), .assign he hv⟩
  · obtain ⟨_, hsemi, rfl⟩ := result_map_eq_ok_iff.mp h
    exact ⟨_, hls.append (.single (takes_of_require hsemi)), .expr he⟩

mutual

theorem isStmt_of_stmt {p q : Parser} {s : Stmt} (h : p.stmt.result = .ok s q) :
    ∃ ls, Reads p ls q ∧ IsStmt ls s := by
  rw [Parser.stmt] at h
  split at h
  · obtain ⟨_, hsemi, rfl⟩ := result_map_eq_ok_iff.mp h
    exact ⟨_, (.single (takes_of_require hsemi)), .noop⟩
  · obtain ⟨body, hblock, rfl⟩ := result_map_eq_ok_iff.mp h
    obtain ⟨ls, hls, hb⟩ := isBlock_of_block hblock
    exact ⟨ls, hls, .block hb⟩
  · exact isStmt_of_letStmt h
  · obtain ⟨_, p₁, hp₁, hif, h⟩ := result_andThen_eq_ok_iff.mp h
    obtain ⟨branches, harm, rfl⟩ := result_map_eq_ok_iff.mp h
    obtain ⟨ls, hls, hb⟩ := isBranches_of_arm harm
    exact ⟨_, .cons (takes_of_require hif) hls, .branch hb⟩
  · obtain ⟨_, p₁, hp₁, hwhile, h⟩ := result_andThen_eq_ok_iff.mp h
    obtain ⟨e, p₂, hp₂, hexpr, h⟩ := result_andThen_eq_ok_iff.mp h
    obtain ⟨body, hblock, rfl⟩ := result_map_eq_ok_iff.mp h
    obtain ⟨ls, hls, he⟩ := isExpr_of_expr hexpr
    obtain ⟨ms, hms, hb⟩ := isBlock_of_block hblock
    exact ⟨_, .cons (takes_of_require hwhile) (hls.append hms), .loop he hb⟩
  · exact isStmt_of_returnStmt h
  · obtain ⟨rfl, hls⟩ := reads_of_keywordStmt h
    exact ⟨_, hls, .break⟩
  · obtain ⟨rfl, hls⟩ := reads_of_keywordStmt h
    exact ⟨_, hls, .continue⟩
  · exact isStmt_of_simpleStmt h
termination_by 3 * p.size + 1

theorem isBranches_of_arm {p q : Parser} {branches : Branches} (h : p.arm.result = .ok branches q) :
    ∃ ls, Reads p ls q ∧ IsBranches ls branches := by
  rw [arm] at h
  obtain ⟨e, p₁, hp₁, hexpr, h⟩ := result_andThen_eq_ok_iff.mp h
  obtain ⟨body, p₂, hp₂, hblock, h⟩ := result_andThen_eq_ok_iff.mp h
  obtain ⟨rest, helses, rfl⟩ := result_map_eq_ok_iff.mp h
  obtain ⟨ls, hls, he⟩ := isExpr_of_expr hexpr
  obtain ⟨ms, hms, hb⟩ := isBlock_of_block hblock
  obtain ⟨ns, hns, hrest⟩ := isBranches_of_elses he hb helses
  exact ⟨_, hls.append (hms.append hns), hrest⟩
termination_by 3 * p.size

/-- What is read after an arm makes the branches with it. -/
theorem isBranches_of_elses {p q : Parser} {ls ms : List Lexeme} {e : Expr} {body : List Stmt}
    {rest : Branches} (he : IsExpr ls e) (hb : IsBlock ms body) (h : p.elses.result = .ok rest q) :
    ∃ ns, Reads p ns q ∧ IsBranches (ls ++ (ms ++ ns)) (.arm e body rest) := by
  rw [elses] at h
  split at h
  · rw [result_relax] at h
    obtain ⟨_, p₁, hp₁, helse, h⟩ := result_andThen_eq_ok_iff.mp h
    split at h
    · obtain ⟨_, p₂, hp₂, hif, h⟩ := result_andThen_eq_ok_iff.mp h
      obtain ⟨ns, hns, hrest⟩ := isBranches_of_arm h
      exact ⟨_, .cons (takes_of_require helse) (.cons (takes_of_require hif) hns), .elseIf he hb hrest⟩
    · obtain ⟨last, hblock, rfl⟩ := result_map_eq_ok_iff.mp h
      obtain ⟨ns, hns, hlast⟩ := isBlock_of_block hblock
      exact ⟨_, .cons (takes_of_require helse) hns, .otherwise he hb hlast⟩
  · cases h
    refine ⟨[], .nil, ?_⟩
    rw [List.append_nil]
    exact .last he hb
termination_by 3 * p.size

theorem isBlock_of_block {p q : Parser} {body : List Stmt} (h : p.block.result = .ok body q) :
    ∃ ls, Reads p ls q ∧ IsBlock ls body := by
  rw [Parser.block] at h
  obtain ⟨_, p₁, hp₁, hopen, h⟩ := result_andThen_eq_ok_iff.mp h
  obtain ⟨_, p₂, hp₂, hstmts, h⟩ := result_andThen_eq_ok_iff.mp h
  obtain ⟨_, hclose, rfl⟩ := result_map_eq_ok_iff.mp h
  obtain ⟨ls, hls, hs⟩ := isStmts_of_stmts hstmts
  exact ⟨_, .cons (takes_of_require hopen) (hls.append (.single (takes_of_require hclose))), .braces hs⟩
termination_by 3 * p.size

theorem isStmts_of_stmts {p q : Parser} {body : List Stmt} (h : p.stmts.result = .ok body q) :
    ∃ ls, Reads p ls q ∧ IsStmts ls body := by
  rw [stmts] at h
  split at h
  · cases h
    exact ⟨_, .nil, .nil⟩
  · split at h
    · rw [result_relax] at h
      obtain ⟨s, p₁, hp₁, hstmt, h⟩ := result_andThen_eq_ok_iff.mp h
      obtain ⟨rest, hstmts, rfl⟩ := result_map_eq_ok_iff.mp h
      obtain ⟨ls, hls, hs⟩ := isStmt_of_stmt hstmt
      obtain ⟨ms, hms, hrest⟩ := isStmts_of_stmts hstmts
      exact ⟨_, hls.append hms, .cons hs hrest⟩
    · cases h
termination_by 3 * p.size + 2

end

theorem isStmts_of_stmtsToEnd {p q : Parser} {body : List Stmt} (h : p.stmtsToEnd.result = .ok body q) :
    q.hasTokens = false ∧ ∃ ls, Reads p ls q ∧ IsStmts ls body := by
  rw [stmtsToEnd] at h
  split at h
  · rw [result_relax] at h
    obtain ⟨s, p₁, hp₁, hstmt, h⟩ := result_andThen_eq_ok_iff.mp h
    obtain ⟨rest, hstmts, rfl⟩ := result_map_eq_ok_iff.mp h
    obtain ⟨ls, hls, hs⟩ := isStmt_of_stmt hstmt
    obtain ⟨hend, ms, hms, hrest⟩ := isStmts_of_stmtsToEnd hstmts
    exact ⟨hend, _, hls.append hms, .cons hs hrest⟩
  · rename_i hend
    cases h
    exact ⟨by simpa using hend, _, .nil, .nil⟩
termination_by p.size

/-! ## What is derived -/

theorem type_eq_ok {p m : Parser} {ls ks : List Lexeme} {t : Ty} (hreading : Reading ls ks)
    (ht : IsType ks t) (h : Reads p ls m) (hm : EndsExpr m) : (p.type .default).result = .ok t m := by
  rw [type_of_isType ht (readsParts_of_reads h hreading) hm.not_sees_less, listSuffixes,
    if_neg (by simp [hm.bracket])]
  rfl

theorem decl_of_isDecl {p m : Parser} {ls : List Lexeme} {d : Decl} (hd : IsDecl ls d)
    (h : Reads p ls m) (hm : EndsExpr m) (hassign : m.sees .assign = false) :
    p.decl.result = .ok d m := by
  cases hd with
  | plain n hreading ht =>
      simp only [path_cons_iff] at h
      obtain ⟨p₁, hn, p₂, hc, hls⟩ := h
      obtain ⟨_, hcolon⟩ := hc.require
      rw [Parser.decl, result_andThen (hn.takeName _), result_andThen hcolon,
        result_andThen (type_eq_ok hreading ht hls hm), if_neg (by simp [hassign])]
      rfl
  | init n hreading ht he =>
      simp only [path_cons_iff, path_append_iff] at h
      obtain ⟨p₁, hn, p₂, hc, p₃, hls, p₄, ha, hms⟩ := h
      obtain ⟨_, hcolon⟩ := hc.require
      obtain ⟨_, hr⟩ := ha.require
      have htype := type_eq_ok hreading ht hls (.of_takes ha (by decide) rfl)
      rw [Parser.decl, result_andThen (hn.takeName _), result_andThen hcolon, result_andThen htype,
        if_pos ha.sees, result_relax, result_andThen hr]
      exact result_map _ (expr_of_isExpr he hms hm)

theorem decls_of_isDecls {p m : Parser} {ls : List Lexeme} {ds : List Decl} (hds : IsDecls ls ds)
    (h : Reads p ls m) (hm : EndsExpr m) (hassign : m.sees .assign = false)
    (hcomma : m.sees .comma = false) : p.decls.result = .ok ds m := by
  induction hds generalizing p with
  | last hd =>
      rw [Parser.decls, result_andThen (decl_of_isDecl hd h hm hassign), if_neg (by simp [hcomma])]
      rfl
  | more hd _ ih =>
      simp only [path_append_iff, path_cons_iff] at h
      obtain ⟨p₁, hls, p₂, hc, hms⟩ := h
      obtain ⟨_, hr⟩ := hc.require
      have hfirst := decl_of_isDecl hd hls (.of_takes hc (by decide) rfl) (hc.not_sees (by simp))
      rw [Parser.decls, result_andThen hfirst, if_pos hc.sees, result_relax, result_andThen hr]
      exact result_map _ (ih hms)

/-- A statement is told from what ends a row of statements and from an `else`. -/
theorem IsStmt.sees {p m : Parser} {ls : List Lexeme} {s : Stmt} (hs : IsStmt ls s)
    (h : Reads p ls m) :
    p.sees .closeBrace = false ∧ p.sees .kwElse = false ∧ p.hasTokens = true := by
  obtain ⟨l, ms, rfl, hl⟩ := hs.head
  obtain ⟨_, ht, _⟩ := path_cons_iff.mp h
  refine ⟨ht.not_sees (ne_symbol_of_opensStmt hl rfl), ht.not_sees (ne_symbol_of_opensStmt hl rfl), ?_⟩
  cases l with
  | eof => cases hl
  | _ => simp [hasTokens, Token.kind, ht.lexeme, Lexeme.kind]

theorem IsStmts.not_sees_else {p m : Parser} {ls : List Lexeme} {body : List Stmt}
    (hs : IsStmts ls body) (h : Reads p ls m) (hm : m.sees .kwElse = false) :
    p.sees .kwElse = false := by
  cases hs with
  | nil =>
      cases path_nil_iff.mp h
      exact hm
  | cons hs _ =>
      obtain ⟨_, hls, _⟩ := path_append_iff.mp h
      exact (hs.sees hls).2.1

theorem IsBlock.takes {p m : Parser} {ls : List Lexeme} {body : List Stmt} (hb : IsBlock ls body)
    (h : Reads p ls m) : ∃ q, Takes p (.symbol .openBrace) q := by
  cases hb with
  | braces _ =>
      obtain ⟨q, hopen, _⟩ := path_cons_iff.mp h
      exact ⟨q, hopen⟩

theorem IsBlock.endsExpr {p m : Parser} {ls : List Lexeme} {body : List Stmt} (hb : IsBlock ls body)
    (h : Reads p ls m) : EndsExpr p := by
  obtain ⟨_, hopen⟩ := hb.takes h
  exact .of_takes hopen (by decide) rfl

theorem IsExpr.takes {p m : Parser} {ls : List Lexeme} {e : Expr} (he : IsExpr ls e)
    (h : Reads p ls m) : ∃ l q, l.kind.startsFactor = true ∧ Takes p l q := by
  obtain ⟨l, ms, rfl, hl⟩ := he.head
  obtain ⟨q, ht, _⟩ := path_cons_iff.mp h
  exact ⟨l, q, hl, ht⟩

/-- A statement that starts with an expression has no form of its own. -/
theorem stmt_eq_simpleStmt {p m : Parser} {ls : List Lexeme} {e : Expr} (he : IsExpr ls e)
    (h : Reads p ls m) : p.stmt = p.simpleStmt := by
  obtain ⟨l, _, hl, ht⟩ := he.takes h
  rw [Parser.stmt]
  split
  all_goals first | rfl | (rename_i hs; rw [← ht.lexeme, hs] at hl; cases hl)

theorem arm_eq_ok {p p₁ p₂ m : Parser} {e : Expr} {body : List Stmt} {rest : Branches}
    (he : (p.expr .default).result = .ok e p₁) (hb : p₁.block.result = .ok body p₂)
    (hrest : p₂.elses.result = .ok rest m) : p.arm.result = .ok (.arm e body rest) m := by
  rw [arm, result_andThen he, result_andThen hb]
  exact result_map _ hrest

theorem keywordStmt_eq_ok {p m : Parser} {keyword : Symbol} {s : Stmt}
    (h : Reads p [.symbol keyword, .symbol .semicolon] m) :
    p.current.lexeme = .symbol keyword ∧ (p.keywordStmt keyword s).result = .ok s m := by
  simp only [path_cons_iff, path_nil_iff] at h
  obtain ⟨p₁, hk, p₂, hs, rfl⟩ := h
  obtain ⟨_, hr⟩ := hk.require
  obtain ⟨_, hsemi⟩ := hs.require
  refine ⟨hk.lexeme, ?_⟩
  rw [keywordStmt, result_andThen hr]
  exact result_map _ hsemi

mutual

theorem stmt_of_isStmt {p m : Parser} {ls : List Lexeme} {s : Stmt} (hs : IsStmt ls s)
    (h : Reads p ls m) (helse : m.sees .kwElse = false) : p.stmt.result = .ok s m :=
  match hs with
  | .noop => by
      simp only [path_cons_iff, path_nil_iff] at h
      obtain ⟨p₁, hsemi, rfl⟩ := h
      obtain ⟨_, hr⟩ := hsemi.require
      rw [Parser.stmt, hsemi.lexeme]
      exact result_map _ hr
  | .block hb => by
      obtain ⟨_, hopen⟩ := hb.takes h
      rw [Parser.stmt, hopen.lexeme]
      exact result_map _ (block_of_isBlock hb h)
  | .declare hds => by
      simp only [path_cons_iff, path_append_iff, path_nil_iff] at h
      obtain ⟨p₁, hlet, p₂, hls, p₃, hsemi, rfl⟩ := h
      obtain ⟨_, hr⟩ := hlet.require
      obtain ⟨_, hr'⟩ := hsemi.require
      have hdecls := decls_of_isDecls hds hls (.of_takes hsemi (by decide) rfl)
        (hsemi.not_sees (by simp)) (hsemi.not_sees (by simp))
      rw [Parser.stmt, hlet.lexeme]
      dsimp only
      rw [letStmt, result_andThen hr, result_andThen hdecls]
      exact result_map _ hr'
  | .branch hb => by
      obtain ⟨p₁, hif, hls⟩ := path_cons_iff.mp h
      obtain ⟨_, hr⟩ := hif.require
      rw [Parser.stmt, hif.lexeme]
      dsimp only
      rw [result_andThen hr]
      exact result_map _ (arm_of_isBranches hb hls helse)
  | .loop he hb => by
      simp only [path_cons_iff, path_append_iff] at h
      obtain ⟨p₁, hwhile, p₂, hls, hms⟩ := h
      obtain ⟨_, hr⟩ := hwhile.require
      rw [Parser.stmt, hwhile.lexeme]
      dsimp only
      rw [result_andThen hr, result_andThen (expr_of_isExpr he hls (hb.endsExpr hms))]
      exact result_map _ (block_of_isBlock hb hms)
  | .ret => by
      simp only [path_cons_iff, path_nil_iff] at h
      obtain ⟨p₁, hret, p₂, hsemi, rfl⟩ := h
      obtain ⟨_, hr⟩ := hret.require
      obtain ⟨_, hr'⟩ := hsemi.require
      rw [Parser.stmt, hret.lexeme]
      dsimp only
      rw [returnStmt, result_andThen hr, if_pos hsemi.sees]
      exact result_map _ hr'
  | .retValue he => by
      simp only [path_cons_iff, path_append_iff, path_nil_iff] at h
      obtain ⟨p₁, hret, p₂, hls, p₃, hsemi, rfl⟩ := h
      obtain ⟨_, hr⟩ := hret.require
      obtain ⟨_, hr'⟩ := hsemi.require
      have hnot : p₁.sees .semicolon = false := by
        obtain ⟨l, _, hl, ht⟩ := he.takes hls
        apply ht.not_sees
        rintro rfl
        cases hl
      rw [Parser.stmt, hret.lexeme]
      dsimp only
      rw [returnStmt, result_andThen hr, if_neg (by simp [hnot]),
        result_andThen (expr_of_isExpr he hls (.of_takes hsemi (by decide) rfl))]
      exact result_map _ hr'
  | .break => by
      obtain ⟨hlexeme, hr⟩ := keywordStmt_eq_ok h
      rw [Parser.stmt, hlexeme]
      exact hr
  | .continue => by
      obtain ⟨hlexeme, hr⟩ := keywordStmt_eq_ok h
      rw [Parser.stmt, hlexeme]
      exact hr
  | .expr he => by
      simp only [path_cons_iff, path_append_iff, path_nil_iff] at h
      obtain ⟨p₁, hls, p₂, hsemi, rfl⟩ := h
      obtain ⟨_, hr⟩ := hsemi.require
      rw [stmt_eq_simpleStmt he hls, simpleStmt,
        result_andThen (expr_of_isExpr he hls (.of_takes hsemi (by decide) rfl)),
        if_neg (by simp [hsemi.not_sees])]
      exact result_map _ hr
  | .assign he hv => by
      simp only [path_cons_iff, path_append_iff, path_nil_iff] at h
      obtain ⟨p₁, hls, p₂, hassign, p₃, hms, p₄, hsemi, rfl⟩ := h
      obtain ⟨_, hr⟩ := hassign.require
      obtain ⟨_, hr'⟩ := hsemi.require
      rw [stmt_eq_simpleStmt he hls, simpleStmt,
        result_andThen (expr_of_isExpr he hls (.of_takes hassign (by decide) rfl)),
        if_pos hassign.sees, result_andThen hr,
        result_andThen (expr_of_isExpr hv hms (.of_takes hsemi (by decide) rfl))]
      exact result_map _ hr'

theorem arm_of_isBranches {p m : Parser} {ls : List Lexeme} {branches : Branches}
    (hbranches : IsBranches ls branches) (h : Reads p ls m) (helse : m.sees .kwElse = false) :
    p.arm.result = .ok branches m :=
  match hbranches with
  | .last he hb => by
      obtain ⟨p₁, hls, hms⟩ := path_append_iff.mp h
      apply arm_eq_ok (expr_of_isExpr he hls (hb.endsExpr hms)) (block_of_isBlock hb hms)
      rw [elses, if_neg (by simp [helse])]
      rfl
  | .otherwise he hb hrest => by
      simp only [path_cons_iff, path_append_iff] at h
      obtain ⟨p₁, hls, p₂, hms, p₃, hkw, hns⟩ := h
      obtain ⟨_, hr⟩ := hkw.require
      obtain ⟨_, hopen⟩ := hrest.takes hns
      apply arm_eq_ok (expr_of_isExpr he hls (hb.endsExpr hms)) (block_of_isBlock hb hms)
      rw [elses, if_pos hkw.sees, result_relax, result_andThen hr, if_neg (by simp [hopen.not_sees])]
      exact result_map _ (block_of_isBlock hrest hns)
  | .elseIf he hb hrest => by
      simp only [path_cons_iff, path_append_iff] at h
      obtain ⟨p₁, hls, p₂, hms, p₃, hkw, p₄, hif, hns⟩ := h
      obtain ⟨_, hr⟩ := hkw.require
      obtain ⟨_, hr'⟩ := hif.require
      apply arm_eq_ok (expr_of_isExpr he hls (hb.endsExpr hms)) (block_of_isBlock hb hms)
      rw [elses, if_pos hkw.sees, result_relax, result_andThen hr, if_pos hif.sees, result_andThen hr']
      exact arm_of_isBranches hrest hns helse

theorem block_of_isBlock {p m : Parser} {ls : List Lexeme} {body : List Stmt} (hb : IsBlock ls body)
    (h : Reads p ls m) : p.block.result = .ok body m :=
  match hb with
  | .braces hs => by
      simp only [path_cons_iff, path_append_iff, path_nil_iff] at h
      obtain ⟨p₁, hopen, p₂, hls, p₃, hclose, rfl⟩ := h
      obtain ⟨_, hr⟩ := hopen.require
      obtain ⟨_, hr'⟩ := hclose.require
      rw [Parser.block, result_andThen hr, result_andThen (stmts_of_isStmts hs hls hclose)]
      exact result_map _ hr'

theorem stmts_of_isStmts {p m m' : Parser} {ls : List Lexeme} {body : List Stmt}
    (hbody : IsStmts ls body) (h : Reads p ls m) (hm : Takes m (.symbol .closeBrace) m') :
    p.stmts.result = .ok body m :=
  match hbody with
  | .nil => by
      cases path_nil_iff.mp h
      rw [stmts, if_pos hm.sees]
      rfl
  | .cons hs hrest => by
      obtain ⟨p₁, hls, hms⟩ := path_append_iff.mp h
      obtain ⟨hclose, -, htokens⟩ := hs.sees hls
      have helse := hrest.not_sees_else hms (hm.not_sees (by simp))
      rw [stmts, if_neg (by simp [hclose]), if_pos htokens, result_relax,
        result_andThen (stmt_of_isStmt hs hls helse)]
      exact result_map _ (stmts_of_isStmts hrest hms hm)

end

theorem stmtsToEnd_of_isStmts {p m : Parser} {ls : List Lexeme} {body : List Stmt}
    (hs : IsStmts ls body) (h : Reads p ls m) (hm : m.hasTokens = false) :
    p.stmtsToEnd.result = .ok body m := by
  induction body generalizing p ls with
  | nil =>
      cases hs
      cases path_nil_iff.mp h
      rw [stmtsToEnd, if_neg (by simp [hm])]
      rfl
  | cons s rest ih =>
      cases hs with
      | cons hs hrest =>
          obtain ⟨p₁, hls, hms⟩ := path_append_iff.mp h
          have hnot : m.sees .kwElse = false := by
            simp only [hasTokens, bne_eq_false_iff_eq] at hm
            simp [Parser.sees, hm]
          rw [stmtsToEnd, if_pos (hs.sees hls).2.2, result_relax,
            result_andThen (stmt_of_isStmt hs hls (hrest.not_sees_else hms hnot))]
          exact result_map _ (ih hrest hms)

end ScriptEngine.Grammar
