import ScriptEngine.Error
import ScriptEngine.Proofs.Grammar.Reads
import ScriptEngine.Proofs.Parser.Invariant
import ScriptEngine.Proofs.Token.Layout

/-!
# Where errors of the syntax are found

The position of such an error comes from a token, from the place at which reading stopped, or from the
second half of a `>>`. None of them lies among the spaces and tabs that a line starts with: reading skips
these between tokens, and inside of a string it only stops after a backslash.
-/

namespace ScriptEngine

open Cursor Trivia Source

/-- A place in the source that is not inside the indentation of its line: what stands there is no space and
no tab, or something else stands before it in the line. -/
def Marked (source : String) (p : Position) : Prop :=
  ∃ pre rest, source.toList = pre ++ rest ∧ p = .of pre ∧
    ((∃ c ∈ lastLine pre, Error.isIndent c = false) ∨ ∀ c, rest.head? = some c → Error.isIndent c = false)

/-- An error of the syntax at a marked place. -/
def Blames (source : String) (e : Error) : Prop :=
  e.cause.kind = .syntactic ∧ ∃ p, e.position = some p ∧ Marked source p

variable {source : String} {pre : List Char} {c d : Cursor}

/-! ## Reading -/

theorem isIndent_of_piece {cs : List Char} (h : piece cs = 0) (c : Char) (hc : cs.head? = some c) :
    Error.isIndent c = false := by
  cases cs with
  | nil => cases hc
  | cons b cs =>
      obtain rfl : b = c := Option.some.inj hc
      by_cases hs : b = ' ' ∨ b = '\t'
      · rcases hs with rfl | rfl <;> cases h
      · simpa [Error.isIndent] using hs

theorem piece_drop_length (cs : List Char) : piece (cs.drop (Trivia.length cs)) = 0 := by
  obtain ⟨g, rest, hcs, hlen, _, hend⟩ := exists_gap cs
  rw [← hlen, hcs, List.drop_left]
  exact hend

theorem Cursor.Passes.marked (h : (ofText source).Passes pre c) (hc : piece c.rest = 0) :
    Marked source c.position :=
  ⟨pre, c.rest, h.toList_eq, h.position_of, .inr (isIndent_of_piece hc)⟩

/-- The place after a character that is neither blank nor a newline. -/
theorem Cursor.Passes.marked_skip {n : Nat} {a : Char} (h : (ofText source).Passes pre c)
    (ha : c.rest[n]? = some a) (hn : a ≠ '\n') (hi : Error.isIndent a = false) :
    Marked source (c.skip (n + 1)).position := by
  have hs := h.trans (c.passes_skip (n + 1))
  refine ⟨_, _, hs.toList_eq, hs.position_of, .inl ⟨a, ?_, hi⟩⟩
  rw [List.take_add_one, ha, ← List.append_assoc]
  simp only [Option.toList_some, lastLine_append_of_ne _ hn]
  exact List.mem_append_right _ (List.mem_singleton.mpr rfl)

theorem StringLiteral.Body.of_after_unknown {b : Body} {a : Char} {k offset reached : Nat} {spelling : List Char}
    (h : b.after a k = .unknown spelling offset reached) :
    ∃ m r, b = .unknown spelling m r ∧ offset = k + m := by
  cases b <;> cases h
  exact ⟨_, _, rfl, rfl⟩

theorem StringLiteral.backslash_of_unknown {cs spelling : List Char} {offset reached : Nat}
    (h : body cs = .unknown spelling offset reached) : ∃ n, offset = n + 1 ∧ cs[n]? = some '\\' := by
  fun_induction body cs generalizing spelling offset reached with
  | case1 => cases h
  | case2 => cases h
  | case3 cs d k he _ ih =>
      obtain ⟨m, r, hb, rfl⟩ := Body.of_after_unknown h
      obtain ⟨n, rfl, hn⟩ := ih hb
      rw [List.getElem?_drop] at hn
      exact ⟨k + n + 1, by omega, by simpa using hn⟩
  | case4 =>
      cases h
      exact ⟨0, rfl, rfl⟩
  | case5 => cases h
  | case6 c cs _ _ ih =>
      obtain ⟨m, r, hb, rfl⟩ := Body.of_after_unknown h
      obtain ⟨n, rfl, hn⟩ := ih hb
      exact ⟨n + 1, by omega, by simpa using hn⟩

variable [Alphabet]

/-- What is refused is refused where it starts, or after a backslash. -/
theorem Scan.of_front_refused {cs : List Char} {cause : Cause} {offset reached : Nat}
    (h : front cs = .refused cause offset reached) :
    cause.kind = .syntactic ∧ (offset = 0 ∨ ∃ n, offset = n + 1 ∧ cs[n]? = some '\\') := by
  cases cs with
  | nil => cases h
  | cons c cs =>
      rcases front_cons c cs with ⟨m, hf⟩ | hf | hf | ⟨s, _, hf⟩ | hf
      · cases hf.symm.trans h
      · rw [h] at hf
        unfold number at hf
        dsimp only at hf
        split at hf <;> cases hf
        exact ⟨rfl, .inl rfl⟩
      · rw [h] at hf
        unfold string at hf
        split at hf
        · cases hf
        · rename_i hb
          cases hf
          obtain ⟨n, rfl, hn⟩ := StringLiteral.backslash_of_unknown hb
          exact ⟨rfl, .inr ⟨n + 1, by omega, by simpa using hn⟩⟩
        · cases hf
          exact ⟨rfl, .inl rfl⟩
      · cases hf.symm.trans h
      · cases hf.symm.trans h
        exact ⟨rfl, .inl rfl⟩

theorem Cursor.Passes.blames {e : Error} (h : (ofText source).Passes pre c) (he : Cursor.next c = .error e d) :
    Blames source e := by
  have htrivia := h.trans (c.passes_skip (Trivia.length c.rest))
  have hend : piece (c.skip (Trivia.length c.rest)).rest = 0 := by
    rw [rest_skip]
    exact piece_drop_length c.rest
  unfold Cursor.next at he
  dsimp only at he
  split at he
  · cases he
    exact ⟨rfl, _, rfl, htrivia.marked hend⟩
  · split at he
    · cases he
    · rename_i hf
      cases he
      obtain ⟨hkind, rfl | ⟨n, rfl, hn⟩⟩ := Scan.of_front_refused hf
      · exact ⟨hkind, _, rfl, (htrivia.trans (passes_skip _ 0)).marked (by rwa [rest_skip])⟩
      -- inside of a string: the backslash of the escape stands before it in the same line
      · exact ⟨hkind, _, rfl, htrivia.marked_skip hn (by decide) rfl⟩

/-! ## Tokens -/

theorem Scan.eq_of_front_shiftRight {cs : List Char} {n : Nat}
    (h : front cs = .lexeme (.symbol .shiftRight) n) : ∃ rest, cs = '>' :: '>' :: rest := by
  cases cs with
  | nil => cases h
  | cons c cs =>
      rcases front_cons c cs with ⟨m, hf⟩ | hf | hf | ⟨s, hs, hf⟩ | hf
      · rw [h] at hf
        injection hf with hw
        unfold word at hw
        split at hw
        · rename_i hk
          cases hw
          exact absurd (List.mem_of_find?_eq_some hk) (by decide)
        · split at hw <;> cases hw
      · obtain ⟨_, hv⟩ := constant_of_number (.inl (hf.symm.trans h))
        cases hv
      · obtain ⟨_, hv⟩ := constant_of_number (.inr (hf.symm.trans h))
        cases hv
      · cases hf.symm.trans h
        have hprefix : Symbol.shiftRight.chars.isPrefixOf (c :: cs) = true := by simpa using List.find?_some hs
        obtain ⟨rest, hrest⟩ := List.isPrefixOf_iff_prefix.mp hprefix
        exact ⟨rest, hrest.symm⟩
      · cases hf.symm.trans h

/-- A parser that has read from the front of the source up to a marked token. -/
structure Placed (source : String) (p : Parser) : Prop where
  passed : ∃ pre, (ofText source).Passes pre p.cursor
  ahead : Marked source p.current.position
  half : p.sees .shiftRight = true → Marked source ⟨p.current.position.line, p.current.position.column + 1⟩

theorem Cursor.Passes.placed {t : Token} (h : (ofText source).Passes pre c) (hn : Cursor.next c = .ok t d) :
    Placed source ⟨d, t⟩ := by
  obtain ⟨g, l, hpass, _, hend, hpos, hfront⟩ := Cursor.next_eq_ok hn
  rw [h.position_of, Position.of_after] at hpos
  have htext : source.toList = pre ++ g ++ (l ++ d.rest) := by
    rw [h.toList_eq, hpass.text]
    simp only [List.append_assoc]
  refine ⟨⟨_, h.trans hpass⟩, ⟨_, _, htext, hpos, .inr (isIndent_of_piece hend)⟩, fun hs => ?_⟩
  -- the second half of a `>>` is a character further, in the same line
  · rw [Parser.sees_iff.mp hs] at hfront
    obtain ⟨rest, hrest⟩ := Scan.eq_of_front_shiftRight hfront
    rw [hrest] at htext
    refine ⟨pre ++ g ++ ['>'], '>' :: rest, by simpa using htext, ?_, .inr ?_⟩
    · rw [← Position.of_after, hpos]
      rfl
    · rintro _ ⟨⟩
      rfl

/-! ## Parsing -/

theorem placed_invariant (source : String) : Parser.Invariant (Placed source) (Blames source) where
  read hp hn := by
    obtain ⟨pre, hs⟩ := hp.passed
    exact hs.placed hn
  refused hp hn := by
    obtain ⟨pre, hs⟩ := hp.passed
    exact hs.blames hn
  half {p} hp := by
    unfold Parser.splitShift
    split
    · rename_i hs
      refine ⟨hp.passed, hp.half hs, fun h => ?_⟩
      cases h
    · exact hp
  unexpected hp := ⟨rfl, _, rfl, hp.ahead⟩
  expected _ hp := ⟨rfl, _, rfl, hp.ahead⟩

/-- Every error of reading a program or an expression is one of the syntax at a marked place. -/
theorem blames_of_parse {e : Error} (h : parse source = .error e ∨ parseExpr source = .error e) :
    Blames source e := by
  have hinv := placed_invariant source
  have hstart : ∀ t c, (Cursor.ofText source).next = .ok t c → Placed source ⟨c, t⟩ :=
    fun _ _ hn => (passes_nil _).placed hn
  have hrefused : ∀ e c, (Cursor.ofText source).next = .error e c → Blames source e :=
    fun _ _ hn => (passes_nil _).blames hn
  rcases h with h | h
  · exact Parser.Invariant.onText hstart hrefused (fun _ _ _ hp he => hinv.readProgram hp he) h
  · exact Parser.Invariant.onText hstart hrefused (fun _ _ _ hp he => hinv.readWholeExpr hp he) h

end ScriptEngine
