import ScriptEngine.Proofs.Source.Position
import ScriptEngine.Proofs.Token.Trivia
import ScriptEngine.Token.Cursor

/-!
# Where a cursor stands

Whatever a cursor is asked to do, it passes a whole number of characters of its text, and its offset and its
position are moved along them. A move by bytes is made if its end is a place of the text, and stops the
program otherwise.
-/

namespace ScriptEngine.Cursor

/-- The cursor `d` comes after `c` in their text, with the characters `read` between them. -/
structure Passes (c : Cursor) (read : List Char) (d : Cursor) : Prop where
  source : d.source = c.source
  text : c.rest = read ++ d.rest
  offset : d.offset = c.offset + Source.bytes read
  position : d.position = c.position.after read

variable {source : String} {c d : Cursor}

theorem passes_nil (c : Cursor) : c.Passes [] c := ⟨rfl, rfl, rfl, rfl⟩

theorem passes_skip (c : Cursor) (n : Nat) : c.Passes (c.rest.take n) (c.skip n) where
  source := rfl
  text := by rw [rest_skip, List.take_append_drop]
  offset := rfl
  position := position_skip n c

theorem Passes.trans {e : Cursor} {read more : List Char} (h : c.Passes read d) (k : d.Passes more e) :
    c.Passes (read ++ more) e where
  source := k.source.trans h.source
  text := by rw [h.text, k.text, List.append_assoc]
  offset := by rw [k.offset, h.offset, Source.bytes_append, Nat.add_assoc]
  position := by rw [k.position, h.position, Position.after_append]

theorem Passes.toList_eq {pre : List Char} (h : (ofText source).Passes pre c) : source.toList = pre ++ c.rest :=
  (rest_ofText source).symm.trans h.text

theorem Passes.position_of {pre : List Char} (h : (ofText source).Passes pre c) : c.position = .of pre :=
  h.position.trans (Position.start_after pre)

/-- The characters read fix the place. -/
theorem Passes.unique {read : List Char} {e : Cursor} (h : c.Passes read d) (k : c.Passes read e) : d = e := by
  cases d
  cases e
  obtain ⟨rfl, _, rfl, rfl⟩ := h
  obtain ⟨rfl, _, rfl, rfl⟩ := k
  rfl

/-- Before what is no trivia, a gap is passed. -/
theorem passes_gap {g rest : List Char} (hrest : c.rest = g ++ rest) (hgap : Trivia.Gap g rest)
    (hend : Trivia.piece rest = 0) :
    c.Passes g (c.skip (Trivia.length c.rest)) ∧ (c.skip (Trivia.length c.rest)).rest = rest := by
  have hpass := c.passes_skip (Trivia.length c.rest)
  have hlength := Trivia.length_append hgap hend
  rw [rest_skip, hrest, hlength, List.drop_left]
  rw [hrest, hlength, List.take_left] at hpass
  exact ⟨hpass, rfl⟩

/-! ## Bytes -/

theorem offset_add_bytes_rest (c : Cursor) : c.offset + Source.bytes c.rest = c.source.utf8ByteSize := by
  obtain ⟨read, htext, hoff⟩ := c.exists_read
  rw [hoff, ← Source.bytes_append, ← htext, Source.bytes_toList]

/-- From one place of a text to a later one there is a whole number of characters. -/
theorem exists_take_of_isValid {stop : Nat} (hle : c.offset ≤ stop) (h : (String.Pos.Raw.mk stop).IsValid c.source) :
    ∃ n, stop = c.offset + Source.bytes (c.rest.take n) := by
  obtain ⟨read, htext, hoff⟩ := c.exists_read
  obtain ⟨before, rest, htext', hstop⟩ := Source.isValid_iff.mp h
  rcases List.append_eq_append_iff.mp (htext.symm.trans htext') with ⟨more, hbefore, hrest⟩ | ⟨more, hread, _⟩
  · refine ⟨more.length, ?_⟩
    rw [hrest, List.take_left, hstop, hbefore, Source.bytes_append, hoff]
  · -- the first place is not before the second one, so both are the same
    refine ⟨0, ?_⟩
    rw [hread, Source.bytes_append] at hoff
    rw [List.take_zero, Source.bytes_nil]
    omega

/-- A move by bytes is one by characters, up to the end of the text. -/
theorem exists_skip_of_advanceBytes? {n : UInt64} (h : c.advanceBytes? n = some d) :
    ∃ k, d = c.skip k ∧ d.offset = min (c.offset + n.toNat) c.source.utf8ByteSize := by
  have hle := c.offset_add_bytes_rest
  unfold advanceBytes? at h
  split at h
  · dsimp only at h
    split at h
    · rename_i hvalid
      cases h
      obtain ⟨k, hk⟩ := exists_take_of_isValid (by omega) hvalid
      refine ⟨k, ?_, rfl⟩
      simp only [skip, hk]
    · cases h
  · cases h

/-- What a cursor can be asked for: a token, one character, or a number of bytes. -/
inductive Move where
  | next
  | advance
  | advanceBytes (n : UInt64)

variable [Alphabet]

/-- The cursor after a move. A token that is refused moves it too. -/
def Move.apply : Move → Cursor → Option Cursor
  | .next, c =>
    match Cursor.next c with
    | .ok _ d => some d
    | .error _ d => some d
  | .advance, c => some (c.skip 1)
  | .advanceBytes n, c => c.advanceBytes? n

theorem passes_of_next {t : Token} (h : Cursor.next c = .ok t d) : ∃ read, c.Passes read d := by
  have htrivia := c.passes_skip (Trivia.length c.rest)
  unfold Cursor.next at h
  dsimp only at h
  split at h
  · cases h
  · split at h <;> cases h
    exact ⟨_, htrivia.trans (passes_skip _ _)⟩

theorem passes_of_next_error {e : Error} (h : Cursor.next c = .error e d) : ∃ read, c.Passes read d := by
  have htrivia := c.passes_skip (Trivia.length c.rest)
  unfold Cursor.next at h
  dsimp only at h
  split at h
  · cases h
    exact ⟨_, htrivia⟩
  · split at h <;> cases h
    exact ⟨_, htrivia.trans (passes_skip _ _)⟩

theorem Move.passes {m : Move} (h : m.apply c = some d) : ∃ read, c.Passes read d := by
  cases m with
  | advance =>
      cases h
      exact ⟨_, passes_skip c 1⟩
  | advanceBytes n =>
      obtain ⟨k, rfl, _⟩ := exists_skip_of_advanceBytes? h
      exact ⟨_, passes_skip c k⟩
  | next =>
      simp only [Move.apply] at h
      split at h
      · rename_i hn
        cases h
        exact passes_of_next hn
      · rename_i hn
        cases h
        exact passes_of_next_error hn

section

variable {g rest : List Char}

theorem next_of_lexeme {l : Lexeme} {n : Nat} (hrest : c.rest = g ++ rest) (hgap : Trivia.Gap g rest)
    (hend : Trivia.piece rest = 0) (hopens : Trivia.opensComment rest = false) (hf : Scan.front rest = .lexeme l n) :
    ∃ b, c.Passes g b ∧ b.rest = rest ∧ Cursor.next c = .ok ⟨l, b.position⟩ (b.skip n) := by
  obtain ⟨hpass, hb⟩ := passes_gap hrest hgap hend
  refine ⟨_, hpass, hb, ?_⟩
  simp only [Cursor.next, hb, hopens, hf]
  rfl

theorem next_of_refused {cause : Cause} {offset reached : Nat} (hrest : c.rest = g ++ rest)
    (hgap : Trivia.Gap g rest) (hend : Trivia.piece rest = 0) (hopens : Trivia.opensComment rest = false)
    (hf : Scan.front rest = .refused cause offset reached) :
    ∃ b, c.Passes g b ∧ b.rest = rest ∧
      Cursor.next c = .error (.located (b.skip offset).position cause) (b.skip reached) := by
  obtain ⟨hpass, hb⟩ := passes_gap hrest hgap hend
  refine ⟨_, hpass, hb, ?_⟩
  simp only [Cursor.next, hb, hopens, hf]
  rfl

end

theorem tokens_of_next {c d : Cursor} {t : Token} (h : Cursor.next c = .ok t d) :
    c.tokens = if t.kind = .eof then .ok [t] else d.tokens.map (t :: ·) := by
  rw [Cursor.tokens]
  split
  · rename_i hn
    cases h.symm.trans hn
  · rename_i hn
    obtain ⟨rfl, rfl⟩ := EStateM.Result.ok.inj (h.symm.trans hn)
    split
    · rfl
    · cases d.tokens <;> rfl

theorem tokens_eq_ok {c : Cursor} {ts : List Token} (h : c.tokens = .ok ts) :
    ∃ t d, Cursor.next c = .ok t d ∧
      ((t.kind = .eof ∧ ts = [t]) ∨ (t.kind ≠ .eof ∧ ∃ us, d.tokens = .ok us ∧ ts = t :: us)) := by
  cases hn : Cursor.next c with
  | error e d =>
      rw [Cursor.tokens] at h
      split at h
      · cases h
      · rename_i hok
        cases hn.symm.trans hok
  | ok t d =>
      refine ⟨t, d, rfl, ?_⟩
      rw [tokens_of_next hn] at h
      by_cases ht : t.kind = .eof
      · simp only [ht, if_true, Except.ok.injEq] at h
        exact .inl ⟨ht, h.symm⟩
      · simp only [ht, if_false] at h
        cases hus : d.tokens with
        | error e =>
            rw [hus] at h
            cases h
        | ok us =>
            rw [hus] at h
            cases h
            exact .inr ⟨ht, us, rfl, rfl⟩

end ScriptEngine.Cursor
