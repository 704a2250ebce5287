import ScriptEngine.Proofs.Ends
import ScriptEngine.Proofs.Grammar.Program
import ScriptEngine.Proofs.Token.Seam
import ScriptEngine.Text.Unicode

/-!
# Programs in pieces

Two programs joined by a newline are read as the statements of the one and then those of the other. A run of
them is a run of the first and, if that falls through, a run of the second from where it stopped.
-/

namespace ScriptEngine

open ScriptEngine.Parser Grammar Trivia

/-! ## Reading -/

theorem Grammar.IsStmts.append {ls ms : List Lexeme} {a b : List Stmt} (ha : IsStmts ls a)
    (hb : IsStmts ms b) : IsStmts (ls ++ ms) (a ++ b) := by
  induction a generalizing ls with
  | nil =>
      cases ha
      exact hb
  | cons s a ih =>
      cases ha with
      | cons hs ha =>
          rw [List.append_assoc]
          exact .cons hs (ih ha)

/-! ## Running -/

/-- What is run after some statements is run only if they fall through. -/
theorem runBlock_append (rounds : Nat) (i : ScopeId) (a b : List Stmt) (σ : Store) :
    runBlock rounds i (a ++ b) σ =
      match runBlock rounds i a σ with
      | .ok none σ' => runBlock rounds i b σ'
      | .ok (some signal) σ' => .ok (some signal) σ'
      | .error e σ' => .error e σ' := by
  induction a generalizing σ with
  | nil =>
      rw [List.nil_append, runBlock]
      rfl
  | cons s a ih =>
      rw [List.cons_append, runBlock, runBlock, bind_apply, bind_apply]
      cases runStmt rounds i s σ with
      | error e σ' => rfl
      | ok signal σ' =>
          cases signal with
          | some signal => rfl
          | none => exact ih σ'

/-- Programs can be fed in pieces: two texts that are parsed are, joined by a newline, parsed as the
statements of both in order, and these run as the first and then, if it falls through, the second. -/
theorem parse_join [Alphabet] {A B : String} {a b : List Stmt} (hA : parse A = .ok a) (hB : parse B = .ok b) :
    parse (A ++ "\n" ++ B) = .ok (a ++ b) ∧
    ∀ rounds i σ, runBlock rounds i (a ++ b) σ =
      match runBlock rounds i a σ with
      | .ok none σ' => runBlock rounds i b σ'
      | .ok (some signal) σ' => .ok (some signal) σ'
      | .error e σ' => .error e σ' := by
  refine ⟨?_, fun rounds i σ => runBlock_append rounds i a b σ⟩
  obtain ⟨ls, hls, ha⟩ := parse_eq_ok_iff_lexes.mp hA
  obtain ⟨ms, hms, hb⟩ := parse_eq_ok_iff_lexes.mp hB
  -- nothing of the first text is cut off
  rw [← List.append_nil ls] at hls
  obtain ⟨cs, -, hcs, hsplice⟩ := hls.splice
  have hjoin := hsplice hms
  rw [hcs rfl] at hjoin
  refine parse_eq_ok_iff_lexes.mpr ⟨ls ++ ms, ?_, ha.append hb⟩
  simpa using hjoin

open scoped Unicode16

/-- An `if` with a line comment after it, and then a statement of its own. -/
theorem parse_join_comment :
    let a : Stmt := .branch (.arm (.var "x") [] (.otherwise []))
    let b : Stmt := .expr (.var "x")
    parse "if x\x7b\x7d//" = .ok [a] ∧ parse "x;" = .ok [b] ∧
      parse ("if x\x7b\x7d//" ++ "\n" ++ "x;") = .ok ([a] ++ [b]) := by
  intro a b
  have hblank : Gap [' '] ['x', '\x7b', '\x7d', '/', '/'] := .cons (.space (.inl rfl)) .nil
  have hcomment : Gap ['/', '/'] [] := .cons (@Piece.line [] [] (by simp) (by simp)) .nil
  have hif : Lexes "if x\x7b\x7d//".toList
      [.symbol .kwIf, .name "x", .symbol .openBrace, .symbol .closeBrace] :=
    .lexeme (l := ['i', 'f']) .nil ⟨rfl, rfl⟩ rfl nofun
      (.lexeme (l := ['x']) hblank ⟨rfl, rfl⟩ rfl nofun
        (.lexeme (l := ['\x7b']) .nil ⟨rfl, rfl⟩ rfl nofun
          (.lexeme (l := ['\x7d']) .nil ⟨rfl, rfl⟩ rfl nofun (.eof hcomment))))
  have hx : Lexes "x;".toList [.name "x", .symbol .semicolon] :=
    .lexeme (l := ['x']) .nil ⟨rfl, rfl⟩ rfl nofun
      (.lexeme (l := [';']) .nil ⟨rfl, rfl⟩ rfl nofun (.eof .nil))
  have hvar : IsExpr [.name "x"] (.var "x") := .chain (.primary (.var "x")) .nil (.single _)
  have hA : parse "if x\x7b\x7d//" = .ok [a] :=
    parse_eq_ok_iff_lexes.mpr ⟨_, hif, .cons (.branch (.last hvar (.braces .nil))) .nil⟩
  have hB : parse "x;" = .ok [b] := parse_eq_ok_iff_lexes.mpr ⟨_, hx, .cons (.expr hvar) .nil⟩
  exact ⟨hA, hB, (parse_join hA hB).1⟩

end ScriptEngine
