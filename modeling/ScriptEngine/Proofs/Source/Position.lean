import Mathlib.Data.List.Induction
import ScriptEngine.Source

/-!
# Positions and lines

The position after some characters is counted from the characters alone: its line from the newlines
among them, its column from those after the last newline, both as words of 32 bits. As long as these hold
the numbers, it is also where the lines of a text, which are split apart from that counting, have the next
character.
-/

namespace ScriptEngine

/-- The characters after the last newline. -/
def Source.lastLine (cs : List Char) : List Char := (cs.reverse.takeWhile (· != '\n')).reverse

namespace Position

/-- The position of what follows the characters `cs` at the start of a text. -/
def of (cs : List Char) : Position := ⟨.ofNat (1 + cs.count '\n'), .ofNat (1 + (Source.lastLine cs).length)⟩

/-- After the characters `cs` line and column are still below the last word of 32 bits. -/
structure Fits (cs : List Char) : Prop where
  line : 1 + cs.count '\n' < UInt32.size
  column : 1 + (Source.lastLine cs).length < UInt32.size

end Position

namespace Source

theorem lastLine_append_newline (cs : List Char) : lastLine (cs ++ ['\n']) = [] := by
  simp [lastLine]

theorem lastLine_append_of_ne {c : Char} (cs : List Char) (h : c ≠ '\n') :
    lastLine (cs ++ [c]) = lastLine cs ++ [c] := by
  simp [lastLine, h]

/-- What stands before the last line is empty or ends with a newline. -/
theorem exists_append_lastLine (cs : List Char) : ∃ before, cs = before ++ lastLine cs ∧
    '\n' ∉ lastLine cs ∧ (before = [] ∨ ∃ b, before = b ++ ['\n']) := by
  induction cs using List.reverseRecOn with
  | nil => exact ⟨[], rfl, List.not_mem_nil, .inl rfl⟩
  | append_singleton cs c ih =>
      by_cases hc : c = '\n'
      · subst hc
        rw [lastLine_append_newline]
        exact ⟨cs ++ ['\n'], (List.append_nil _).symm, List.not_mem_nil, .inr ⟨cs, rfl⟩⟩
      · obtain ⟨before, hcs, hlast, hend⟩ := ih
        rw [lastLine_append_of_ne cs hc]
        refine ⟨before, ?_, ?_, hend⟩
        · rw [← List.append_assoc, ← hcs]
        · simp [hlast, Ne.symm hc]

theorem lastLine_of_not_mem {cs : List Char} (h : '\n' ∉ cs) : lastLine cs = cs := by
  obtain ⟨before, hcs, _, rfl | ⟨b, rfl⟩⟩ := exists_append_lastLine cs
  · exact hcs.symm
  · rw [hcs] at h
    simp at h

theorem length_lastLine_le (cs : List Char) : (lastLine cs).length ≤ cs.length := by
  obtain ⟨before, hcs, _⟩ := exists_append_lastLine cs
  have h := congrArg List.length hcs
  rw [List.length_append] at h
  omega

end Source

namespace Position

theorem start_after (cs : List Char) : start.after cs = of cs := by
  induction cs using List.reverseRecOn with
  | nil => rfl
  | append_singleton cs c ih =>
      rw [after_append, ih]
      by_cases hc : c = '\n'
      · subst hc
        simp only [after_cons, after_nil, step, of, if_true, Source.lastLine_append_newline, List.count_append,
          List.count_singleton_self, ← Nat.add_assoc, UInt32.ofNat_add]
        rfl
      · have hcount : (cs ++ [c]).count '\n' = cs.count '\n' := by simp [hc]
        simp only [after_cons, after_nil, step, of, if_neg hc, Source.lastLine_append_of_ne cs hc, hcount,
          List.length_append, List.length_singleton, ← Nat.add_assoc, UInt32.ofNat_add]
        rfl

theorem of_after (cs ds : List Char) : (of cs).after ds = of (cs ++ ds) := by
  rw [← start_after, ← after_append, start_after]

theorem Fits.of_length {cs : List Char} (h : cs.length + 1 < UInt32.size) : Fits cs where
  line := by
    have := List.count_le_length (a := '\n') (l := cs)
    omega
  column := by
    have := Source.length_lastLine_le cs
    omega

theorem Fits.line_toNat {cs : List Char} (h : Fits cs) : (of cs).line.toNat = 1 + cs.count '\n' :=
  UInt32.toNat_ofNat_of_lt' h.line

theorem Fits.column_toNat {cs : List Char} (h : Fits cs) : (of cs).column.toNat = 1 + (Source.lastLine cs).length :=
  UInt32.toNat_ofNat_of_lt' h.column

end Position

namespace Source

/-! ## Lines -/

theorem splitLines_append_newline (cs rest : List Char) :
    splitLines (cs ++ '\n' :: rest) = splitLines cs ++ splitLines rest := by
  induction cs with
  | nil => simp [splitLines]
  | cons c cs ih =>
      by_cases hc : c = '\n'
      · simp [splitLines, hc, ih]
      · simp only [List.cons_append, splitLines, if_neg hc, ih]
        cases h : splitLines cs with
        | nil => exact absurd h (splitLines_ne_nil cs)
        | cons line lines => rfl

theorem length_splitLines (cs : List Char) : (splitLines cs).length = cs.count '\n' + 1 := by
  induction cs with
  | nil => rfl
  | cons c cs ih =>
      by_cases hc : c = '\n'
      · simp [splitLines, hc, ih]
      · simp only [splitLines, if_neg hc]
        cases h : splitLines cs with
        | nil => exact absurd h (splitLines_ne_nil cs)
        | cons line lines => rw [h] at ih; simpa [hc] using ih

theorem splitLines_zero (cs : List Char) : (splitLines cs)[0]? = some (cs.takeWhile (· != '\n')) := by
  induction cs with
  | nil => rfl
  | cons c cs ih =>
      by_cases hc : c = '\n'
      · simp [splitLines, hc]
      · simp only [splitLines, if_neg hc]
        cases h : splitLines cs with
        | nil => exact absurd h (splitLines_ne_nil cs)
        | cons line lines =>
            rw [h] at ih
            simpa [hc] using ih

/-- The line that a place in a text lies in, before and after the place. -/
theorem splitLines_append (cs rest : List Char) : (splitLines (cs ++ rest))[cs.count '\n']? =
    some (lastLine cs ++ rest.takeWhile (· != '\n')) := by
  obtain ⟨before, hcs, hlast, hend⟩ := exists_append_lastLine cs
  have hline : (lastLine cs ++ rest).takeWhile (· != '\n') = lastLine cs ++ rest.takeWhile (· != '\n') := by
    rw [List.takeWhile_append_of_pos]
    intro d hd
    simpa using ne_of_mem_of_not_mem hd hlast
  have hzero : (lastLine cs).count '\n' = 0 := List.count_eq_zero.mpr hlast
  rw [← hline, ← splitLines_zero]
  generalize lastLine cs = last at hcs hzero
  subst hcs
  rcases hend with rfl | ⟨b, rfl⟩
  · simp [hzero]
  · have hlen : (b ++ ['\n'] ++ last).count '\n' = (splitLines b).length := by
      simp [hzero, length_splitLines]
    rw [hlen]
    simp only [List.append_assoc, List.cons_append, List.nil_append, splitLines_append_newline]
    rw [List.getElem?_append_right (Nat.le_refl _), Nat.sub_self]

theorem line?_of {cs : List Char} (h : Position.Fits cs) (source : List Char) :
    line? source (Position.of cs).line = (splitLines source)[cs.count '\n']?.map dropReturn := by
  have hne : (Position.of cs).line ≠ 0 := by
    intro h0
    have := h.line_toNat
    rw [h0] at this
    exact absurd this (by simp; omega)
  rw [line?, if_neg hne, h.line_toNat, Nat.add_sub_cancel_left]

end Source

end ScriptEngine
