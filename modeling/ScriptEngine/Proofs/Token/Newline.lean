import ScriptEngine.Proofs.Token.Escapes

/-!
# Cutting texts at a newline

A newline is a piece of trivia of its own unless it stands in a string or in a comment between `/*` and `*/`. Neither
goes on beyond it if what follows has no quote and no slash. Then a text falls into the lexemes before the newline
and those after it, and each side is read by itself as it is read in the whole.
-/

namespace ScriptEngine

open Trivia

variable {l rest cs ds : List Char}

section

variable {α : Type} {a b xs ys : List α} {c d : α}

/-- An element of two lists in a row is in the first or in the second. -/
theorem cut_cases (h : a ++ b = xs ++ c :: ys) :
    (∃ zs, xs = a ++ zs ∧ b = zs ++ c :: ys) ∨ ∃ zs, a = xs ++ c :: zs ∧ ys = zs ++ b := by
  rcases List.append_eq_append_iff.1 h with ⟨zs, hxs, hb⟩ | ⟨zs, ha, hb⟩
  · exact .inl ⟨zs, hxs, hb⟩
  · cases zs with
    | nil => exact .inl ⟨[], by simpa using ha.symm, hb.symm⟩
    | cons d zs =>
        cases hb
        exact .inr ⟨zs, ha, rfl⟩

theorem last_mem_of_ne (h : xs ++ c :: ys = a ++ [d]) (hne : c ≠ d) : d ∈ ys := by
  rcases List.eq_nil_or_concat ys with rfl | ⟨zs, e, rfl⟩
  · exact absurd (List.append_singleton_inj.1 h).2 hne
  · have hlast : xs ++ c :: zs ++ [e] = a ++ [d] := by simpa using h
    rw [(List.append_singleton_inj.1 hlast).2]
    simp

end

theorem follows_self_append (cs ds : List Char) : Follows (cs ++ ds) cs := by
  intro c hc
  cases cs with
  | nil => cases hc
  | cons d cs => exact .inl hc

/-! ## Gaps -/

namespace Trivia

theorem Piece.newline (h : Piece (cs ++ '\n' :: ds) rest) (hds : '/' ∉ ds) : cs = [] ∧ ds = [] := by
  generalize hp : cs ++ '\n' :: ds = p at h
  cases h with
  | space =>
      have hlength := congrArg List.length hp
      simp only [List.length_append, List.length_cons, List.length_nil] at hlength
      exact ⟨List.length_eq_zero_iff.1 (by omega), List.length_eq_zero_iff.1 (by omega)⟩
  | @line body _ hbody =>
      have hmem : '\n' ∈ '/' :: '/' :: body := hp ▸ by simp
      simp [hbody] at hmem
  | @block body _ =>
      have hend : cs ++ '\n' :: ds = '/' :: '*' :: body ++ ['*'] ++ ['/'] := by simpa using hp
      exact absurd (last_mem_of_ne hend (by decide)) hds

/-- A newline parts a gap in two. -/
theorem Gap.newline (h : Gap (cs ++ '\n' :: ds) rest) (hds : '/' ∉ ds) :
    Gap cs ('\n' :: (ds ++ rest)) ∧ Gap ds rest := by
  generalize hg : cs ++ '\n' :: ds = g at h
  induction h generalizing cs with
  | nil => simp at hg
  | @cons p g rest hp hgap ih =>
      rcases cut_cases hg.symm with ⟨zs, rfl, rfl⟩ | ⟨zs, rfl, rfl⟩
      · obtain ⟨hbefore, hafter⟩ := ih rfl
        refine ⟨.cons ?_ hbefore, hafter⟩
        simpa using hp
      · obtain ⟨rfl, rfl⟩ := hp.newline fun hmem => hds (List.mem_append_left _ hmem)
        exact ⟨.nil, hgap⟩

end Trivia

/-! ## Lexemes -/

namespace Scan

theorem of_mem_run {p : Char → Bool} {c : Char} (h : ((l ++ rest).takeWhile p).length = l.length) (hc : c ∈ l) :
    p c = true := by
  rw [← takeWhile_eq_left h] at hc
  exact List.mem_takeWhile_imp hc

/-- Only strings have newlines in them, and they end with a quote. -/
theorem quote_of_newline [Alphabet] {x : Lexeme} (h : front (l ++ rest) = .lexeme x l.length) (hl : '\n' ∈ l) :
    ∃ l', l = l' ++ ['\x22'] := by
  obtain ⟨c, l, rfl⟩ := List.exists_cons_of_ne_nil (List.ne_nil_of_mem hl)
  simp only [List.cons_append, front] at h
  split at h
  · injection h with _ hlen
    have hnewline := of_mem_run (l := c :: l) hlen hl
    rw [isWordChar_of_lt (by decide)] at hnewline
    cases hnewline
  · split at h
    · unfold number at h
      dsimp only at h
      split at h
      · injection h with _ hlen
        cases of_mem_run (l := c :: l) hlen hl
      · cases h
    · split at h
      · unfold string at h
        split at h
        · rename_i hbody
          injection h with _ hlen
          obtain ⟨items, after, htext, _, rfl⟩ := StringLiteral.exists_items_of_closed hbody
          have hclosed : l ++ rest = items ++ ['\x22'] ++ after := by simpa using htext
          have hl : l = items ++ ['\x22'] := by
            refine (List.append_inj hclosed ?_).1
            simp only [List.length_append, List.length_cons, List.length_nil] at hlen ⊢
            omega
          exact ⟨c :: items, by rw [hl]; rfl⟩
        · cases h
        · cases h
      · split at h
        · rename_i s hs
          injection h with _ hlen
          have hprefix : s.chars <+: c :: l ++ rest := by
            unfold Symbol.leading? at hs
            simpa using List.find?_some hs
          have hchars : s.chars = c :: l :=
            (List.prefix_of_prefix_length_le hprefix (List.prefix_append (c :: l) rest) hlen.le).eq_of_length hlen
          rw [← hchars] at hl
          exact absurd hl (length_punctuation_le s (List.mem_of_find?_eq_some hs)).2
        · cases h

end Scan

/-! ## Texts -/

theorem Lexes.unique [Alphabet] {xs ys : List Lexeme} (h : Lexes cs xs) (h' : Lexes cs ys) : xs = ys := by
  rw [← String.toList_ofList (l := cs)] at h h'
  obtain ⟨ts, hts, hxs⟩ := lexes_iff.mp h
  obtain ⟨us, hus, hys⟩ := lexes_iff.mp h'
  cases hts.symm.trans hus
  exact List.append_cancel_right (hxs.symm.trans hys)

/-- A text with a newline falls into the lexemes of the text before it and those of the text after it, unless a
string or a comment goes on beyond the newline. -/
theorem Lexes.newline [Alphabet] {xs : List Lexeme} (h : Lexes (cs ++ '\n' :: ds) xs) (hquote : '\x22' ∉ ds)
    (hslash : '/' ∉ ds) : ∃ ys zs, xs = ys ++ zs ∧ Lexes cs ys ∧ Lexes ds zs := by
  generalize htext : cs ++ '\n' :: ds = text at h
  induction h generalizing cs with
  | @eof g hg =>
      subst htext
      obtain ⟨hbefore, hafter⟩ := hg.newline hslash
      exact ⟨[], [], rfl, .eof (hbefore.follows nofun), .eof hafter⟩
  | @lexeme g l rest x xs hg hbare hx hne hrest ih =>
      have hl := Scan.ne_nil_of_front hx hne
      rcases cut_cases htext.symm with ⟨zs, rfl, hlexeme⟩ | ⟨zs, rfl, rfl⟩
      · rcases cut_cases hlexeme with ⟨us, rfl, rfl⟩ | ⟨us, rfl, rfl⟩
        · obtain ⟨ys, zs, rfl, hys, hzs⟩ := ih rfl
          have ht := follows_self_append us ('\n' :: ds)
          exact ⟨x :: ys, zs, rfl, .lexeme (hg.follows ht.append) (hbare.follows hl ht) (Scan.front_follows hx hl ht)
            hne hys, hzs⟩
        · -- the newline is in the lexeme, which then has to end with a quote
          obtain ⟨l', hl'⟩ := Scan.quote_of_newline hx (by simp)
          exact absurd (List.mem_append_left _ (last_mem_of_ne hl' (by decide))) hquote
      · obtain ⟨hbefore, hafter⟩ := hg.newline fun hmem => hslash (List.mem_append_left _ hmem)
        exact ⟨[], x :: xs, rfl, .eof (hbefore.follows nofun), .lexeme hafter hbare hx hne hrest⟩

end ScriptEngine
