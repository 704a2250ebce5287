import ScriptEngine.Proofs.Token.Seam
import ScriptEngine.Text.Unicode

/-!
# What a string literal stands for

The items of a string literal and the character that each stands for, with no regard to how they are read. The
items up to the first thing that is none are the same for every reader, so a literal is read in one way: to its
quote, to an escape that stands for nothing, or to the end of the text. Octal digits are read through a number of
32 bits, which is wide enough for every character.
-/

namespace ScriptEngine

open StringLiteral Trivia

namespace StringLiteral

/-- The letters that can follow a backslash, each with what the two stand for. -/
def letters : List (Char × Char) :=
  [('r', '\r'), ('t', '\t'), ('a', '\x07'), ('f', '\x0c'), ('v', '\x0b'), ('b', '\x08'), ('n', '\n'),
    ('\x22', '\x22'), ('\'', '\''), ('\\', '\\')]

def Octal (c : Char) : Prop := '0' ≤ c ∧ c ≤ '7'

/-- Octal digits that no further one follows. -/
structure OctalRun (ds rest : List Char) : Prop where
  nonempty : ds ≠ []
  digits : ∀ d ∈ ds, Octal d
  maximal : ∀ d, rest.head? = some d → ¬Octal d

/-- The characters `item` stand for `c` when `rest` follows them. -/
inductive Item : (item rest : List Char) → (c : Char) → Prop where
  | plain {c : Char} {rest : List Char} : c ≠ '\x22' → c ≠ '\\' → Item [c] rest c
  | letter {l c : Char} {rest : List Char} : (l, c) ∈ letters → Item ['\\', l] rest c
  | octal {ds rest : List Char} {c : Char} : OctalRun ds rest → Nat.ofDigitChars 8 ds 0 = c.toNat →
      Item ('\\' :: ds) rest c

/-- The characters `items` are items, one after the other, that stand for `text` when `rest` follows them. -/
inductive Items : (items rest text : List Char) → Prop where
  | nil {rest : List Char} : Items [] rest []
  | cons {item items rest text : List Char} {c : Char} : Item item (items ++ rest) c → Items items rest text →
      Items (item ++ items) rest (c :: text)

/-- After a backslash the characters `spelling` stand for nothing when `rest` follows them: a character that is
neither a letter nor a digit, or digits that spell no character. -/
inductive Unknown : (spelling rest : List Char) → Prop where
  | letter {c : Char} {rest : List Char} : (∀ d, (c, d) ∉ letters) → ¬Octal c → Unknown [c] rest
  | octal {ds rest : List Char} : OctalRun ds rest →
      0x10FFFF < Nat.ofDigitChars 8 ds 0 ∨ 0xD800 ≤ Nat.ofDigitChars 8 ds 0 ∧ Nat.ofDigitChars 8 ds 0 ≤ 0xDFFF →
      Unknown ds rest

variable {cs ds items rest spelling text : List Char} {c d : Char}

/-! ## Digits -/

theorem isOctal_iff : isOctal c = true ↔ Octal c := by
  simp [isOctal, Octal]

theorem le_ofDigitChars (ds : List Char) (n : Nat) : n ≤ Nat.ofDigitChars 8 ds n := by
  induction ds generalizing n with
  | nil => simp
  | cons d ds ih =>
      rw [Nat.ofDigitChars_cons]
      have hle := ih (8 * n + (d.toNat - '0'.toNat))
      omega

/-- The number only grows with the digits, so it fits at each of them if it fits at the end. -/
theorem foldlM_unsigned? {n : Nat} (hn : n < 1 <<< 32) :
    ds.foldlM (fun n c => Number.unsigned? 32 (8 * n + (c.toNat - '0'.toNat))) n =
      Number.unsigned? 32 (Nat.ofDigitChars 8 ds n) := by
  induction ds generalizing n with
  | nil =>
      rw [List.foldlM_nil, Nat.ofDigitChars_nil, Number.unsigned?, if_pos hn]
      rfl
  | cons d ds ih =>
      rw [List.foldlM_cons, Nat.ofDigitChars_cons]
      by_cases hfits : 8 * n + (d.toNat - '0'.toNat) < 1 <<< 32
      · rw [Number.unsigned?, if_pos hfits]
        exact ih hfits
      · have hle := le_ofDigitChars ds (8 * n + (d.toNat - '0'.toNat))
        rw [Number.unsigned?, if_neg hfits, Number.unsigned?, if_neg (by omega)]
        rfl

theorem scalar?_eq_some_iff {n : Nat} : scalar? n = some c ↔ n = c.toNat := by
  unfold scalar?
  constructor
  · intro h
    split at h
    · rename_i hn
      cases h
      rw [Char.ofNat, dif_pos hn]
      rfl
    · cases h
  · rintro rfl
    have hvalid : c.toNat.isValidChar := c.valid
    rw [if_pos hvalid, Char.ofNat_toNat]

theorem scalar?_eq_none_iff {n : Nat} : scalar? n = none ↔ 0x10FFFF < n ∨ 0xD800 ≤ n ∧ n ≤ 0xDFFF := by
  have hvalid : n.isValidChar ↔ n < 0xD800 ∨ 0xDFFF < n ∧ n < 0x110000 := Iff.rfl
  unfold scalar?
  split
  · rename_i hn
    rw [hvalid] at hn
    exact iff_of_false nofun (by omega)
  · rename_i hn
    rw [hvalid] at hn
    exact iff_of_true rfl (by omega)

/-- No character is lost to the width of the number. -/
theorem ofOctal?_bind_scalar? (ds : List Char) :
    (ofOctal? ds).bind scalar? = scalar? (Nat.ofDigitChars 8 ds 0) := by
  rw [ofOctal?, foldlM_unsigned? (by decide), Number.unsigned?]
  split
  · rfl
  · exact (scalar?_eq_none_iff.2 (by omega)).symm

/-! ## Escapes -/

theorem escaped?_eq_some_iff : escaped? c = some d ↔ (c, d) ∈ letters := by
  by_cases hc : c ∈ letters.map Prod.fst
  · simp only [letters, List.map_cons, List.map_nil, List.mem_cons, List.not_mem_nil, or_false] at hc
    rcases hc with rfl | rfl | rfl | rfl | rfl | rfl | rfl | rfl | rfl | rfl <;>
      simp [escaped?, letters, eq_comm]
  · have hd : (c, d) ∉ letters := fun hd => hc (List.mem_map_of_mem (f := Prod.fst) hd)
    simp only [letters, List.map_cons, List.map_nil, List.mem_cons, List.not_mem_nil, or_false, not_or] at hc
    simp only [escaped?, hc, hd, if_false, reduceCtorEq]

theorem escaped?_eq_none_iff : escaped? c = none ↔ ∀ d, (c, d) ∉ letters := by
  simp only [← escaped?_eq_some_iff, Option.eq_none_iff_forall_ne_some, ne_eq]

/-- No letter is a digit. -/
theorem escaped?_of_octal (h : Octal c) : escaped? c = none := by
  rw [escaped?_eq_none_iff]
  intro d hd
  have hletters : ∀ p ∈ letters, isOctal p.1 = false := by decide
  rw [← isOctal_iff, hletters _ hd] at h
  cases h

theorem OctalRun.takeWhile (h : OctalRun ds rest) : (ds ++ rest).takeWhile isOctal = ds := by
  rw [List.takeWhile_append_of_pos fun d hd => isOctal_iff.2 (h.digits d hd)]
  cases rest with
  | nil => simp
  | cons d rest =>
      have hd : ¬isOctal d = true := fun hd => h.maximal d rfl (isOctal_iff.1 hd)
      simp [hd]

theorem octalRun_takeWhile (cs : List Char) (hc : Octal c) :
    OctalRun ((c :: cs).takeWhile isOctal) ((c :: cs).dropWhile isOctal) where
  nonempty := by simp [isOctal_iff.2 hc]
  digits := fun d hd => isOctal_iff.1 (List.mem_takeWhile_imp hd)
  maximal := by
    intro d hd hoctal
    have hstop : isOctal d = false := by simpa only [hd] using List.head?_dropWhile_not isOctal (c :: cs)
    rw [isOctal_iff.2 hoctal] at hstop
    cases hstop

/-- A run of digits is looked at as a whole. -/
theorem OctalRun.escape {r : Option Char} (h : OctalRun ds rest) (hr : scalar? (Nat.ofDigitChars 8 ds 0) = r) :
    StringLiteral.escape (ds ++ rest) = r.elim (.unknown ds ds.length) (.char · ds.length) := by
  have hrun := h.takeWhile
  obtain ⟨d, ds, rfl⟩ := List.exists_cons_of_ne_nil h.nonempty
  have hd := h.digits d List.mem_cons_self
  rw [List.cons_append, List.takeWhile_cons_of_pos (isOctal_iff.2 hd), List.cons_inj_right] at hrun
  rw [List.cons_append, StringLiteral.escape, escaped?_of_octal hd]
  cases r with
  | none => simp only [isOctal_iff.2 hd, if_true, hrun, ofOctal?_bind_scalar?, hr, Option.elim_none]
  | some c => simp only [isOctal_iff.2 hd, if_true, hrun, ofOctal?_bind_scalar?, hr, Option.elim_some]

theorem escape_item (h : Item ('\\' :: ds) rest c) : escape (ds ++ rest) = .char c ds.length := by
  cases h with
  | plain _ hback => exact absurd rfl hback
  | letter hl => simp only [List.cons_append, escape, escaped?_eq_some_iff.2 hl, List.length_singleton]
  | octal hrun hvalue => exact hrun.escape (scalar?_eq_some_iff.2 hvalue)

theorem escape_unknown (h : Unknown spelling rest) :
    ∃ reached, escape (spelling ++ rest) = .unknown spelling reached := by
  cases h with
  | letter hl hoctal =>
      refine ⟨0, ?_⟩
      rw [List.cons_append, escape, escaped?_eq_none_iff.2 hl]
      exact if_neg fun hd => hoctal (isOctal_iff.1 hd)
  | octal hrun hvalue =>
      exact ⟨spelling.length, hrun.escape (scalar?_eq_none_iff.2 hvalue)⟩

/-- After a backslash there is nothing, or the rest of an item, or something unknown. -/
theorem escape_cases (cs : List Char) : cs = [] ∨ (∃ ds rest c, cs = ds ++ rest ∧ Item ('\\' :: ds) rest c) ∨
    ∃ spelling rest, cs = spelling ++ rest ∧ Unknown spelling rest := by
  cases cs with
  | nil => exact .inl rfl
  | cons c cs =>
      right
      cases hletter : escaped? c with
      | some d => exact .inl ⟨[c], cs, d, rfl, .letter (escaped?_eq_some_iff.1 hletter)⟩
      | none =>
          by_cases hoctal : Octal c
          · have hrun := octalRun_takeWhile cs hoctal
            have hsplit := (List.takeWhile_append_dropWhile (p := isOctal) (l := c :: cs)).symm
            cases hvalue : scalar? (Nat.ofDigitChars 8 ((c :: cs).takeWhile isOctal) 0) with
            | some d => exact .inl ⟨_, _, d, hsplit, .octal hrun (scalar?_eq_some_iff.1 hvalue)⟩
            | none => exact .inr ⟨_, _, hsplit, .octal hrun (scalar?_eq_none_iff.1 hvalue)⟩
          · exact .inr ⟨[c], cs, rfl, .letter (escaped?_eq_none_iff.1 hletter) hoctal⟩

/-! ## Bodies -/

/-- A body after items of `length` characters that stand for `text`. -/
def Body.past (text : List Char) (length : Nat) : Body → Body
  | .closed more n => .closed (text ++ more) (length + n)
  | .unknown spelling offset reached => .unknown spelling (length + offset) (length + reached)
  | .unterminated => .unterminated

theorem Body.past_nil (b : Body) : b.past [] 0 = b := by
  cases b <;> simp [Body.past]

theorem Body.after_past (b : Body) (c : Char) (m n : Nat) (text : List Char) :
    (b.past text n).after c m = b.past (c :: text) (m + n) := by
  cases b <;> simp [Body.past, Body.after, Nat.add_assoc]

theorem Item.body (h : Item items rest c) :
    StringLiteral.body (items ++ rest) = (StringLiteral.body rest).after c items.length := by
  have hescape {ds : List Char} (h : Item ('\\' :: ds) rest c) :
      StringLiteral.body ('\\' :: ds ++ rest) = (StringLiteral.body rest).after c ('\\' :: ds).length := by
    rw [List.cons_append, StringLiteral.body, if_neg (by decide), if_pos rfl, escape_item h]
    simp only [List.drop_left, List.length_cons, Nat.add_comm]
  cases h with
  | plain hquote hback =>
      rw [List.cons_append, StringLiteral.body, if_neg hquote, if_neg hback]
      rfl
  | letter hl => exact hescape (.letter hl)
  | octal hrun hvalue => exact hescape (.octal hrun hvalue)

theorem Items.body (h : Items items rest text) :
    StringLiteral.body (items ++ rest) = (StringLiteral.body rest).past text items.length := by
  induction h with
  | nil => rw [List.nil_append, List.length_nil, Body.past_nil]
  | cons hitem _ ih => rw [List.append_assoc, hitem.body, ih, Body.after_past, List.length_append]

/-- What items can end at. -/
inductive Stop : List Char → Prop where
  | quote (rest : List Char) : Stop ('\x22' :: rest)
  | unknown {spelling rest : List Char} : Unknown spelling rest → Stop ('\\' :: (spelling ++ rest))
  | backslash : Stop ['\\']
  | nil : Stop []

theorem exists_items (cs : List Char) :
    ∃ items rest text, cs = items ++ rest ∧ Items items rest text ∧ Stop rest := by
  induction hn : cs.length using Nat.strongRecOn generalizing cs with
  | ind n ih =>
      -- an item at the front leaves a shorter text
      have hitem {item rest : List Char} {c : Char} (hcs : cs = item ++ rest) (hne : item ≠ [])
          (h : Item item rest c) : ∃ items rest text, cs = items ++ rest ∧ Items items rest text ∧ Stop rest := by
        have hshort : rest.length < n := by
          rw [← hn, hcs, List.length_append]
          have := List.length_pos_iff.2 hne
          omega
        obtain ⟨items, rest', text, rfl, hitems, hstop⟩ := ih _ hshort rest rfl
        exact ⟨item ++ items, rest', c :: text, by rw [hcs, List.append_assoc], .cons h hitems, hstop⟩
      cases cs with
      | nil => exact ⟨[], [], [], rfl, .nil, .nil⟩
      | cons c cs =>
          by_cases hquote : c = '\x22'
          · exact ⟨[], _, [], rfl, .nil, hquote ▸ .quote cs⟩
          · by_cases hback : c = '\\'
            · subst hback
              rcases escape_cases cs with rfl | ⟨ds, rest, d, rfl, h⟩ | ⟨spelling, rest, rfl, h⟩
              · exact ⟨[], _, [], rfl, .nil, .backslash⟩
              · exact hitem rfl (List.cons_ne_nil _ _) h
              · exact ⟨[], _, [], rfl, .nil, .unknown h⟩
            · exact hitem (List.singleton_append).symm (List.cons_ne_nil _ _) (.plain hquote hback)

theorem body_quote (rest : List Char) : body ('\x22' :: rest) = .closed [] 1 := by
  rw [body, if_pos rfl]

theorem body_unknown (h : Unknown spelling rest) :
    ∃ reached, body ('\\' :: (spelling ++ rest)) = .unknown spelling 1 reached := by
  obtain ⟨reached, hescape⟩ := escape_unknown h
  refine ⟨1 + reached, ?_⟩
  rw [body, if_neg (by decide), if_pos rfl, hescape]

theorem body_unterminated (h : rest = [] ∨ rest = ['\\']) : body rest = .unterminated := by
  rcases h with rfl | rfl
  · rw [body]
  · rw [body, if_neg (by decide), if_pos rfl, escape]

/-- A body that is closed is closed by a quote after its items. -/
theorem exists_items_of_closed {n : Nat} (h : body cs = .closed text n) :
    ∃ items rest, cs = items ++ '\x22' :: rest ∧ Items items ('\x22' :: rest) text ∧ n = items.length + 1 := by
  obtain ⟨items, stop, text', rfl, hitems, hstop⟩ := exists_items cs
  rw [hitems.body] at h
  cases hstop with
  | quote rest =>
      rw [body_quote, Body.past, List.append_nil] at h
      cases h
      exact ⟨items, rest, rfl, hitems, rfl⟩
  | unknown hunknown =>
      obtain ⟨reached, hbody⟩ := body_unknown hunknown
      rw [hbody] at h
      cases h
  | backslash =>
      rw [body_unterminated (.inr rfl)] at h
      cases h
  | nil =>
      rw [body_unterminated (.inl rfl)] at h
      cases h

end StringLiteral

/-! ## Tokens -/

namespace Cursor

theorem bare_quote (cs : List Char) : Bare ('\x22' :: cs) := bare_cons_iff.2 ⟨rfl, by simp⟩

variable [Alphabet] {items rest spelling text : List Char} {c : Cursor}

theorem next_closed (h : Items items ('\x22' :: rest) text) (hc : c.rest = '\x22' :: (items ++ '\x22' :: rest)) :
    ∃ d, Cursor.next c = .ok ⟨.constant (.str (String.ofList text)), c.position⟩ d ∧
      c.Passes ('\x22' :: items ++ ['\x22']) d := by
  have hbody : body (items ++ '\x22' :: rest) = .closed text (items.length + 1) := by
    rw [h.body, body_quote, Body.past, List.append_nil]
  have hfront : Scan.front ('\x22' :: (items ++ '\x22' :: rest)) =
      .lexeme (.constant (.str (String.ofList text))) (1 + (items.length + 1)) := by
    rw [Scan.front_quote, hbody]
  have hbare := bare_quote (items ++ '\x22' :: rest)
  obtain ⟨b, hpass, hb, hn⟩ := next_of_lexeme (g := []) hc .nil hbare.1 hbare.2 hfront
  have htake : b.rest.take (1 + (items.length + 1)) = '\x22' :: items ++ ['\x22'] := by
    rw [hb, show '\x22' :: (items ++ '\x22' :: rest) = '\x22' :: items ++ ['\x22'] ++ rest by simp]
    exact List.take_left' (by simp; omega)
  refine ⟨b.skip (1 + (items.length + 1)), ?_, ?_⟩
  · rw [hn, hpass.position, Position.after_nil]
  · rw [← htake]
    exact hpass.trans (b.passes_skip _)

theorem next_unknown (h : Items items ('\\' :: (spelling ++ rest)) text) (hunknown : Unknown spelling rest)
    (hc : c.rest = '\x22' :: (items ++ '\\' :: (spelling ++ rest))) : ∃ d, Cursor.next c =
      .error (.located (c.position.after ('\x22' :: items ++ ['\\'])) (.unknownEscape (String.ofList spelling))) d := by
  obtain ⟨reached, hstop⟩ := body_unknown hunknown
  have hbody : body (items ++ '\\' :: (spelling ++ rest)) =
      .unknown spelling (items.length + 1) (items.length + reached) := by
    rw [h.body, hstop, Body.past]
  have hfront : Scan.front ('\x22' :: (items ++ '\\' :: (spelling ++ rest))) =
      .refused (.unknownEscape (String.ofList spelling)) (1 + (items.length + 1)) (1 + (items.length + reached)) := by
    rw [Scan.front_quote, hbody]
  have hbare := bare_quote (items ++ '\\' :: (spelling ++ rest))
  obtain ⟨b, hpass, hb, hn⟩ := next_of_refused (g := []) hc .nil hbare.1 hbare.2 hfront
  have htake : b.rest.take (1 + (items.length + 1)) = '\x22' :: items ++ ['\\'] := by
    rw [hb, show '\x22' :: (items ++ '\\' :: (spelling ++ rest)) =
      '\x22' :: items ++ ['\\'] ++ (spelling ++ rest) by simp]
    exact List.take_left' (by simp; omega)
  refine ⟨b.skip (1 + (items.length + reached)), ?_⟩
  rw [hn, position_skip, htake, hpass.position, Position.after_nil]

theorem next_unterminated (h : Items items rest text) (hrest : rest = [] ∨ rest = ['\\'])
    (hc : c.rest = '\x22' :: (items ++ rest)) :
    ∃ d, Cursor.next c = .error (.located c.position .unterminatedString) d := by
  have hbody : body (items ++ rest) = .unterminated := by rw [h.body, body_unterminated hrest, Body.past]
  have hfront : Scan.front ('\x22' :: (items ++ rest)) =
      .refused .unterminatedString 0 ('\x22' :: (items ++ rest)).length := by
    rw [Scan.front_quote, hbody]
  have hbare := bare_quote (items ++ rest)
  obtain ⟨b, hpass, _, hn⟩ := next_of_refused (g := []) hc .nil hbare.1 hbare.2 hfront
  refine ⟨b.skip ('\x22' :: (items ++ rest)).length, ?_⟩
  rw [hn, position_skip, List.take_zero, Position.after_nil, hpass.position, Position.after_nil]

end Cursor

/-- At a quote, a string token is read exactly if a quote ends the items that follow. It stands at the opening
quote, its text is what the items stand for, and the reading goes on after the closing one. Otherwise the first
thing that is no item is the error: an escape that stands for nothing, at the character after its backslash, or the
end of the text, also after a backslash, at the opening quote. -/
theorem string_literals_decoded [Alphabet] (c : Cursor) (cs : List Char) (hc : c.rest = '\x22' :: cs) :
    (∀ t d, Cursor.next c = .ok t d ↔
      ∃ items rest text, cs = items ++ '\x22' :: rest ∧ Items items ('\x22' :: rest) text ∧
        t = ⟨.constant (.str (String.ofList text)), c.position⟩ ∧ c.Passes ('\x22' :: items ++ ['\x22']) d) ∧
    ∀ e, (∃ d, Cursor.next c = .error e d) ↔
      (∃ items spelling rest text, cs = items ++ '\\' :: (spelling ++ rest) ∧
        Items items ('\\' :: (spelling ++ rest)) text ∧ Unknown spelling rest ∧
        e = .located (c.position.after ('\x22' :: items ++ ['\\'])) (.unknownEscape (String.ofList spelling))) ∨
      ∃ items rest text, cs = items ++ rest ∧ Items items rest text ∧ (rest = [] ∨ rest = ['\\']) ∧
        e = .located c.position .unterminatedString := by
  obtain ⟨items, stop, text, rfl, hitems, hstop⟩ := exists_items cs
  constructor
  · intro t d
    constructor
    · intro h
      cases hstop with
      | quote rest =>
          obtain ⟨_, hn, hpass⟩ := Cursor.next_closed hitems hc
          cases hn.symm.trans h
          exact ⟨items, rest, text, rfl, hitems, rfl, hpass⟩
      | unknown hunknown =>
          obtain ⟨_, herror⟩ := Cursor.next_unknown hitems hunknown hc
          cases herror.symm.trans h
      | backslash =>
          obtain ⟨_, herror⟩ := Cursor.next_unterminated hitems (.inr rfl) hc
          cases herror.symm.trans h
      | nil =>
          obtain ⟨_, herror⟩ := Cursor.next_unterminated hitems (.inl rfl) hc
          cases herror.symm.trans h
    · rintro ⟨items, rest, text, hcs, hitems, rfl, hpass⟩
      rw [hcs] at hc
      obtain ⟨_, hn, hpass'⟩ := Cursor.next_closed hitems hc
      rw [hpass.unique hpass']
      exact hn
  · intro e
    constructor
    · rintro ⟨d, h⟩
      cases hstop with
      | quote rest =>
          obtain ⟨_, hn, _⟩ := Cursor.next_closed hitems hc
          cases hn.symm.trans h
      | unknown hunknown =>
          obtain ⟨_, herror⟩ := Cursor.next_unknown hitems hunknown hc
          cases herror.symm.trans h
          exact .inl ⟨items, _, _, text, rfl, hitems, hunknown, rfl⟩
      | backslash =>
          obtain ⟨_, herror⟩ := Cursor.next_unterminated hitems (.inr rfl) hc
          cases herror.symm.trans h
          exact .inr ⟨items, _, text, rfl, hitems, .inr rfl, rfl⟩
      | nil =>
          obtain ⟨_, herror⟩ := Cursor.next_unterminated hitems (.inl rfl) hc
          cases herror.symm.trans h
          exact .inr ⟨items, _, text, rfl, hitems, .inl rfl, rfl⟩
    · rintro (⟨items, spelling, rest, text, hcs, hitems, hunknown, rfl⟩ |
        ⟨items, rest, text, hcs, hitems, hrest, rfl⟩)
      · rw [hcs] at hc
        exact Cursor.next_unknown hitems hunknown hc
      · rw [hcs] at hc
        exact Cursor.next_unterminated hitems hrest hc

open scoped Unicode16

/-- A string over two lines, with an escaped quote and an octal escape before a digit that is none of its own. -/
theorem two_line_string_decoded :
    let c := Cursor.ofText "\x22\\\x22\n\\1018\x22;"
    c.rest = ['\x22', '\\', '\x22', '\n', '\\', '1', '0', '1', '8', '\x22', ';'] ∧
    Cursor.next c = .ok ⟨.constant (.str (String.ofList ['\x22', '\n', 'A', '8'])), ⟨1, 1⟩⟩ (c.skip 10) := by
  intro c
  have hc : c.rest = ['\x22', '\\', '\x22', '\n', '\\', '1', '0', '1', '8', '\x22', ';'] := Cursor.rest_ofText _
  have hrun : OctalRun ['1', '0', '1'] ['8', '\x22', ';'] := ⟨by decide, by simp [Octal], by simp [Octal]⟩
  have hdigit : Items ['8'] ['\x22', ';'] ['8'] := .cons (.plain (by decide) (by decide)) .nil
  have hoctal : Items ['\\', '1', '0', '1', '8'] ['\x22', ';'] ['A', '8'] :=
    @Items.cons ['\\', '1', '0', '1'] _ _ _ _ (.octal hrun rfl) hdigit
  have hline : Items ['\n', '\\', '1', '0', '1', '8'] ['\x22', ';'] ['\n', 'A', '8'] :=
    .cons (.plain (by decide) (by decide)) hoctal
  have hitems : Items ['\\', '\x22', '\n', '\\', '1', '0', '1', '8'] ['\x22', ';'] ['\x22', '\n', 'A', '8'] :=
    .cons (.letter (by simp [letters])) hline
  have hpass := c.passes_skip 10
  rw [hc] at hpass
  exact ⟨hc, ((string_literals_decoded c _ hc).1 _ _).2 ⟨_, _, _, rfl, hitems, rfl, hpass⟩⟩

end ScriptEngine
