import ScriptEngine.Proofs.Token.Cursor
import ScriptEngine.Proofs.Token.Trivia

/-!
# The layout of a text

A text that is read into tokens falls into gaps of trivia and the texts of its tokens, in turn and
without a remainder. Each token carries the position of its first character, which the lines of the text
show at that place.
-/

namespace ScriptEngine

open Trivia Cursor

theorem Scan.word_ne_eof (cs : List Char) : Scan.word cs ≠ .eof := by
  unfold Scan.word
  split
  · exact nofun
  · split <;> exact nofun

/-- A number or a string is a constant, if it is anything. -/
theorem Scan.constant_of_number {cs : List Char} {l : Lexeme} {n : Nat}
    (h : Scan.number cs = .lexeme l n ∨ Scan.string cs = .lexeme l n) : ∃ v, l = .constant v := by
  rcases h with h | h
  · unfold Scan.number at h
    dsimp only at h
    split at h <;> cases h
    exact ⟨_, rfl⟩
  · unfold Scan.string at h
    split at h <;> cases h
    exact ⟨_, rfl⟩

variable [Alphabet]

/-- What a first character decides. -/
theorem Scan.front_cons (c : Char) (cs : List Char) :
    (∃ n, Scan.front (c :: cs) = .lexeme (Scan.word ((c :: cs).takeWhile Scan.isWordChar)) n) ∨
    Scan.front (c :: cs) = Scan.number (c :: cs) ∨ Scan.front (c :: cs) = Scan.string (c :: cs) ∨
    (∃ s, Symbol.leading? (c :: cs) = some s ∧ Scan.front (c :: cs) = .lexeme (.symbol s) s.chars.length) ∨
    Scan.front (c :: cs) = .refused (.unrecognisedToken (String.ofList [c])) 0 0 := by
  unfold Scan.front
  dsimp only
  split
  · exact .inl ⟨_, rfl⟩
  · split
    · exact .inr (.inl rfl)
    · split
      · exact .inr (.inr (.inl rfl))
      · split
        · rename_i hs
          exact .inr (.inr (.inr (.inl ⟨_, hs, rfl⟩)))
        · exact .inr (.inr (.inr (.inr rfl)))

theorem Scan.eq_nil_of_front_eof {cs : List Char} {n : Nat} (h : Scan.front cs = .lexeme .eof n) : cs = [] := by
  cases cs with
  | nil => rfl
  | cons c cs =>
      rcases Scan.front_cons c cs with ⟨m, hf⟩ | hf | hf | ⟨s, _, hf⟩ | hf
      · rw [h] at hf
        injection hf with hf
        exact absurd hf.symm (Scan.word_ne_eof _)
      · obtain ⟨_, hv⟩ := Scan.constant_of_number (.inl (hf.symm.trans h))
        cases hv
      · obtain ⟨_, hv⟩ := Scan.constant_of_number (.inr (hf.symm.trans h))
        cases hv
      · cases hf.symm.trans h
      · cases hf.symm.trans h

/-- A token is read after the trivia before it, from the characters that make its lexeme. -/
theorem Cursor.next_eq_ok {c d : Cursor} {t : Token} (h : Cursor.next c = .ok t d) :
    ∃ g l, c.Passes (g ++ l) d ∧ Gap g (l ++ d.rest) ∧ piece (l ++ d.rest) = 0 ∧
      t.position = c.position.after g ∧ Scan.front (l ++ d.rest) = .lexeme t.lexeme l.length := by
  obtain ⟨g, rest, hrest, hlen, hgap, hend⟩ := exists_gap c.rest
  have htrivia := c.passes_skip (Trivia.length c.rest)
  have hgap' : c.rest.take (Trivia.length c.rest) = g := by rw [← hlen, hrest, List.take_left]
  have hrest' : (c.skip (Trivia.length c.rest)).rest = rest := by rw [rest_skip, ← hlen, hrest, List.drop_left]
  rw [hgap'] at htrivia
  unfold Cursor.next at h
  dsimp only at h
  generalize c.skip (Trivia.length c.rest) = b at h htrivia hrest'
  subst hrest'
  split at h
  · cases h
  · split at h
    · rename_i l n hf
      cases h
      have hn := (Scan.weight_le_of_front hf).2
      have hsplit : b.rest.take n ++ (b.skip n).rest = b.rest := by rw [rest_skip, List.take_append_drop]
      refine ⟨g, b.rest.take n, htrivia.trans (b.passes_skip n), ?_, ?_, htrivia.position, ?_⟩
      · rwa [hsplit]
      · rwa [hsplit]
      · rw [hsplit, hf, List.length_take_of_le hn]
    · cases h

/-! ## Texts -/

end ScriptEngine
