import ScriptEngine.Proofs.Parser.Calls
import ScriptEngine.Proofs.Parser.Lookahead
import ScriptEngine.Proofs.Token.Cursor
import ScriptEngine.Proofs.Token.Trivia

/-!
# Reading comes to an end

A cursor only goes forward, and each piece of trivia and each token but the end takes it at least one character
further. A parser becomes smaller with everything that is read and larger with nothing, also where reading fails.
So every loop of reading has to end, on any text.
-/

namespace ScriptEngine

/-! ## Trivia -/

namespace Trivia

theorem Piece.ne_nil {p rest : List Char} (h : Piece p rest) : p ≠ [] := by
  cases h <;> simp

theorem length_of_piece {p rest : List Char} (h : Piece p rest) : length (p ++ rest) = p.length + length rest := by
  rw [length, if_neg (piece_ne_zero h), piece_append h, List.drop_left]

theorem length_of_no_piece {cs : List Char} (h : ∀ p rest, cs = p ++ rest → ¬Piece p rest) : length cs = 0 := by
  have hzero : piece cs = 0 := by
    by_contra hne
    obtain ⟨p, rest, hcs, _, hp⟩ := exists_piece hne
    exact h p rest hcs hp
  rw [length, if_pos hzero]

end Trivia

/-! ## Cursors -/

namespace Cursor

/-- The first cursor is where the second has come by reading a token other than the end. -/
def ReadFrom [Alphabet] (d c : Cursor) : Prop := ∃ t, Cursor.next c = .ok t d ∧ t.kind ≠ .eof

variable [Alphabet] {c d : Cursor}

theorem ReadFrom.length_lt (h : ReadFrom d c) : d.rest.length < c.rest.length := by
  obtain ⟨t, hn, ht⟩ := h
  have hweight := weight_le_of_next hn
  have hpos := Lexeme.weight_pos ht
  omega

theorem ReadFrom.passes (h : ReadFrom d c) : ∃ read, read ≠ [] ∧ c.Passes read d := by
  have hlt := h.length_lt
  obtain ⟨t, hn, _⟩ := h
  obtain ⟨read, hread⟩ := passes_of_next hn
  refine ⟨read, ?_, hread⟩
  rintro rfl
  rw [hread.text, List.nil_append] at hlt
  exact Nat.lt_irrefl _ hlt

theorem wellFounded_readFrom : WellFounded ReadFrom :=
  Subrelation.wf ReadFrom.length_lt (measure fun c : Cursor => c.rest.length).wf

end Cursor

/-! ## Parsers -/

namespace Parser

variable {α : Type}

/-- A value leaves less than there was. -/
def Shrinks (x : EStateM Error Parser α) : Prop := ∀ p a q, x p = .ok a q → q.size < p.size

/-- Neither a value nor an error leaves more than there was. -/
def NeverGrows (x : EStateM Error Parser α) : Prop :=
  (∀ p a q, x p = .ok a q → q.size ≤ p.size) ∧ ∀ p e q, x p = .error e q → q.size ≤ p.size

theorem size_eq (p : Parser) :
    p.size = p.cursor.rest.length + if p.hasTokens then if p.sees .shiftRight then 2 else 1 else 0 := by
  unfold size hasTokens sees Token.kind
  cases p.current.lexeme with
  | symbol s => by_cases hs : s = .shiftRight <;> simp [Lexeme.kind, Lexeme.weight, hs]
  | _ => simp [Lexeme.kind, Lexeme.weight]

theorem size_splitShift_le (p : Parser) : p.splitShift.size ≤ p.size := by
  by_cases hs : p.sees .shiftRight = true
  · exact Nat.le_of_lt (size_splitShift_lt hs)
  · rw [splitShift, if_neg hs]

variable [Alphabet]

theorem neverGrows_advance : NeverGrows advance where
  left _ _ _ h := Nat.le_trans (size_le_of_advance h) (Nat.le_add_right _ _)
  right _ _ _ h := size_le_of_advance_error h

theorem neverGrows_expect (kind : TokenKind) : NeverGrows (expect kind) := by
  refine ⟨fun p t q h => ?_, fun p e q h => ?_⟩
  · unfold expect at h
    split at h
    · exact neverGrows_advance.1 p t q h
    · cases h
  · unfold expect at h
    split at h
    · exact neverGrows_advance.2 p e q h
    · cases h
      exact Nat.le_refl _

theorem Rule.neverGrows (r : Rule) : NeverGrows r.run where
  left _ _ _ h := Outcome.size_le_of_result h
  right _ _ _ h := Outcome.size_le_of_error h

theorem Rule.shrinks {r : Rule} (hr : r.reads = true) : Shrinks r.run := by
  intro p a q h
  have hremains := Outcome.remains_of_result h
  rwa [hr] at hremains

end Parser

open ScriptEngine.Parser

/-- Reading makes progress. Each piece of trivia has a character, and what is skipped is one piece after the other.
Whatever a cursor is asked for, it goes forward, and by at least a character for a token other than the end. The size of
a parser is the number of characters left, and none for the end, two for `>>` and one for another token ahead. It goes
down with every factor, expression, type, block and statement that is read, and it goes up with nothing, be it read or
refused. A rule does what is recorded of it, which never takes the end. So tokens are not read for ever, and rules do
not apply rules for ever, themselves included. -/
theorem reading_makes_progress [Alphabet] :
    -- trivia
    (∀ p rest, Trivia.Piece p rest → p ≠ [] ∧ Trivia.length (p ++ rest) = p.length + Trivia.length rest) ∧
    (∀ cs, (∀ p rest, cs = p ++ rest → ¬Trivia.Piece p rest) → Trivia.length cs = 0) ∧
    -- tokens
    (∀ (m : Cursor.Move) (c d : Cursor), m.apply c = some d → ∃ read, c.Passes read d) ∧
    (∀ c t d, Cursor.next c = .ok t d → t.kind ≠ .eof → ∃ read, read ≠ [] ∧ c.Passes read d) ∧
    WellFounded Cursor.ReadFrom ∧
    -- sizes
    (∀ p : Parser, p.size = p.cursor.rest.length +
      if p.hasTokens then if p.sees .shiftRight then 2 else 1 else 0) ∧
    Shrinks readFactor ∧ (∀ bp, Shrinks (readExpr bp)) ∧ (∀ bp, Shrinks (readType bp)) ∧ Shrinks readBlock ∧
      Shrinks readStmt ∧
    NeverGrows advance ∧ (∀ kind, NeverGrows (expect kind)) ∧ (∀ p : Parser, p.splitShift.size ≤ p.size) ∧
      (∀ r : Rule, NeverGrows r.run) ∧
    -- rules
    (∀ (r : Rule) (p : Parser), (Recorded.ofRule r p).result = r.run p ∧
      ∀ q, .takes q ∈ (Recorded.ofRule r p).events → q.hasTokens = true) ∧
    WellFounded Calls := by
  refine ⟨fun p rest hp => ⟨hp.ne_nil, Trivia.length_of_piece hp⟩, fun cs => Trivia.length_of_no_piece,
    fun m c d => Cursor.Move.passes, fun c t d hn ht => Cursor.ReadFrom.passes ⟨t, hn, ht⟩, Cursor.wellFounded_readFrom, ?_⟩
  refine ⟨size_eq, Rule.shrinks (r := .factor) rfl, fun bp => Rule.shrinks (r := .expr bp) rfl,
    fun bp => Rule.shrinks (r := .type bp) rfl, Rule.shrinks (r := .block) rfl, Rule.shrinks (r := .stmt) rfl, ?_⟩
  refine ⟨neverGrows_advance, neverGrows_expect, size_splitShift_le, Rule.neverGrows, fun r p => ?_,
    wellFounded_calls⟩
  have hrecords := Rule.records p r
  exact ⟨hrecords.result, fun q hq => hrecords.events _ hq⟩

end ScriptEngine
