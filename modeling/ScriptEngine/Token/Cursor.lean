import ScriptEngine.Token.Scan

/-!
# Cursors

A cursor is a place in a source text: how many bytes are before it, and the line and column of its first character. It
only moves forward, by whole characters, and counts lines and columns along what it passes.
-/

namespace ScriptEngine

/-- A place in a source text, at the boundary of a character. -/
structure Cursor where
  source : String
  /-- The number of bytes before the place. -/
  offset : Nat
  position : Position
  boundary : (String.Pos.Raw.mk offset).IsValid source

namespace Cursor

/-- The cursor at the start of a text. -/
def ofText (source : String) : Cursor := ⟨source, 0, Position.start, String.Pos.Raw.isValid_zero⟩

/-- What is left to read. -/
def rest (c : Cursor) : List Char := Source.fromByte c.offset c.source.toList

/-- The cursor at a later place of its text. -/
def moveTo (c : Cursor) (stop : Nat) (h : (String.Pos.Raw.mk stop).IsValid c.source) : Cursor :=
  ⟨c.source, stop, c.position.after (Source.upToByte (stop - c.offset) c.rest), h⟩

/-- The cursor `n` bytes further, or at the end. There is none where the sum of the bytes is no word of 64 bits, or
falls into a character. -/
def advanceBytes? (n : UInt64) (c : Cursor) : Option Cursor :=
  if c.offset + n.toNat < UInt64.size then
    let stop := min (c.offset + n.toNat) c.source.utf8ByteSize
    if h : (String.Pos.Raw.mk stop).IsValid c.source then some (c.moveTo stop h) else none
  else none

theorem exists_read (c : Cursor) : ∃ read, c.source.toList = read ++ c.rest ∧ c.offset = Source.bytes read := by
  obtain ⟨read, rest, htext, hoff⟩ := Source.isValid_iff.mp c.boundary
  refine ⟨read, ?_, hoff⟩
  rw [Cursor.rest, htext, hoff, Source.fromByte_bytes]

theorem isValid_offset_add (c : Cursor) (n : Nat) :
    (String.Pos.Raw.mk (c.offset + Source.bytes (c.rest.take n))).IsValid c.source := by
  obtain ⟨read, htext, hoff⟩ := c.exists_read
  refine Source.isValid_iff.mpr ⟨read ++ c.rest.take n, c.rest.drop n, ?_, ?_⟩
  · rw [List.append_assoc, List.take_append_drop, htext]
  · rw [Source.bytes_append, hoff]

/-- The cursor after the next `n` characters, or at the end. -/
def skip (n : Nat) (c : Cursor) : Cursor :=
  c.moveTo (c.offset + Source.bytes (c.rest.take n)) (c.isValid_offset_add n)

@[simp] theorem source_skip (n : Nat) (c : Cursor) : (c.skip n).source = c.source := rfl

@[simp] theorem offset_skip (n : Nat) (c : Cursor) :
    (c.skip n).offset = c.offset + Source.bytes (c.rest.take n) := rfl

@[simp] theorem rest_skip (n : Nat) (c : Cursor) : (c.skip n).rest = c.rest.drop n := by
  obtain ⟨read, htext, hoff⟩ := c.exists_read
  have hsplit : c.source.toList = (read ++ c.rest.take n) ++ c.rest.drop n := by
    rw [List.append_assoc, List.take_append_drop, htext]
  rw [Cursor.rest, offset_skip, source_skip, hoff, ← Source.bytes_append, hsplit, Source.fromByte_bytes]

@[simp] theorem position_skip (n : Nat) (c : Cursor) :
    (c.skip n).position = c.position.after (c.rest.take n) := by
  have h := Source.upToByte_bytes (c.rest.take n) (c.rest.drop n)
  rw [List.take_append_drop] at h
  rw [skip, moveTo, Nat.add_sub_cancel_left, h]

@[simp] theorem rest_ofText (source : String) : (ofText source).rest = source.toList := Source.fromByte_zero _

theorem length_skip_le (n : Nat) (c : Cursor) : (c.skip n).rest.length ≤ c.rest.length := by
  simp

variable [Alphabet]

/-- Reads the next token, after any trivia. The token at the end of the text is there as often as it
is asked for. When something is refused, the cursor stays where the reading stopped. -/
def next : EStateM Error Cursor Token := fun c =>
  let c := c.skip (Trivia.length c.rest)
  if Trivia.opensComment c.rest then .error (.located c.position .unterminatedComment) c
  else
    match Scan.front c.rest with
    | .lexeme l n => .ok ⟨l, c.position⟩ (c.skip n)
    | .refused cause offset reached =>
      .error (.located (c.skip offset).position cause) (c.skip reached)

/-! ## Progress -/

/-- A token that is read weighs no more than the characters it took. -/
theorem weight_le_of_next {c d : Cursor} {t : Token} (h : next c = .ok t d) :
    d.rest.length + t.lexeme.weight ≤ c.rest.length := by
  unfold next at h
  dsimp only at h
  split at h
  · cases h
  · split at h
    · rename_i hf
      cases h
      have := Scan.weight_le_of_front hf
      have := length_skip_le (Trivia.length c.rest) c
      simp only [rest_skip, List.length_drop] at *
      omega
    · cases h

theorem length_le_of_next_error {c d : Cursor} {e : Error} (h : next c = .error e d) :
    d.rest.length ≤ c.rest.length := by
  unfold next at h
  dsimp only at h
  split at h
  · cases h
    exact length_skip_le _ _
  · split at h
    · cases h
    · cases h
      exact Nat.le_trans (length_skip_le _ _) (length_skip_le _ _)

/-- All tokens from here on, the end included. -/
def tokens (c : Cursor) : Except Error (List Token) :=
  match h : next c with
  | .error e _ => .error e
  | .ok t d =>
    if ht : t.kind = .eof then .ok [t]
    else
      have := weight_le_of_next h
      have := Lexeme.weight_pos ht
      match tokens d with
      | .error e => .error e
      | .ok ts => .ok (t :: ts)
termination_by c.rest.length

end Cursor

/-- All tokens of a text, the end included. -/
def tokenize [Alphabet] (source : String) : Except Error (List Token) := (Cursor.ofText source).tokens

end ScriptEngine
