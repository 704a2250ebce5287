import ScriptEngine.Proofs.Token.Layout

/-!
# Joining texts

A text is read as lexemes whatever its positions are, and what a lexeme is depends on the text after it by
one character at most. So a text can be cut after any of its lexemes and joined to another one by a newline:
the lexemes before the cut and those of the other text are read as before.
-/

namespace ScriptEngine

open Trivia

/-! ## What follows -/

/-- The text `t` may follow where `rest` did: it starts with the same character or with a newline. -/
def Follows (rest t : List Char) : Prop := ∀ c, t.head? = some c → rest.head? = some c ∨ c = '\n'

variable {l rest t : List Char}

theorem Follows.append (h : Follows rest t) : Follows (l ++ rest) (l ++ t) := by
  intro c hc
  cases l with
  | nil => exact h c hc
  | cons d l => exact .inl hc

theorem follows_of_isPrefix {cs cs' : List Char} (h : cs' <+: cs) (ds : List Char) :
    Follows cs (cs' ++ '\n' :: ds) := by
  obtain ⟨more, rfl⟩ := h
  cases cs' with
  | nil =>
      intro c hc
      exact .inr (Option.some.inj hc).symm
  | cons d cs' => exact fun c hc => .inl hc

namespace Trivia

theorem Piece.follows {p : List Char} (h : Piece p rest) (ht : Follows rest t) : Piece p t := by
  cases h with
  | space hc => exact .space hc
  | line hcs hrest => exact .line hcs fun c hc => (ht c hc).elim (hrest c) id
  | block hfirst => exact .block hfirst

theorem Gap.follows {g : List Char} (h : Gap g rest) (ht : Follows rest t) : Gap g t := by
  induction h with
  | nil => exact .nil
  | cons hp _ ih => exact .cons (hp.follows ht.append) (ih ht)

theorem Gap.append {g g' : List Char} (h : Gap g (g' ++ rest)) (h' : Gap g' rest) : Gap (g ++ g') rest := by
  generalize hgap : g' ++ rest = gap at h
  induction h with
  | nil => exact h'
  | @cons p g rest' hp _ ih =>
      subst hgap
      rw [List.append_assoc]
      refine .cons ?_ (ih rfl)
      rw [List.append_assoc]
      exact hp

/-- No trivia is left at the front of a text, nor a comment without an end. -/
def Bare (cs : List Char) : Prop := piece cs = 0 ∧ opensComment cs = false

theorem bare_cons_iff {c : Char} {cs : List Char} :
    Bare (c :: cs) ↔ isSpace c = false ∧ ∀ d, cs.head? = some d → ¬(c = '/' ∧ (d = '/' ∨ d = '*')) := by
  unfold Bare
  by_cases hc : c = '/'
  · subst hc
    cases cs with
    | nil => simp [piece, opensComment, isSpace]
    | cons d cs =>
        by_cases hd : d = '/'
        · simp [hd, piece]
        · by_cases hd' : d = '*'
          · simp [hd', opensComment]
          · simp [hd, hd', piece, opensComment, isSpace]
  · simp [hc, piece, opensComment]

theorem Bare.follows (h : Bare (l ++ rest)) (hl : l ≠ []) (ht : Follows rest t) : Bare (l ++ t) := by
  obtain ⟨c, l, rfl⟩ := List.exists_cons_of_ne_nil hl
  rw [List.cons_append, bare_cons_iff] at h ⊢
  refine ⟨h.1, fun d hd => ?_⟩
  rcases ht.append d hd with hd | rfl
  · exact h.2 d hd
  · simp

end Trivia

/-! ## One lexeme -/

namespace StringLiteral

theorem escape_follows {c : Char} {n : Nat} (h : escape (l ++ rest) = .char c n) (hn : n < l.length) :
    escape (l ++ t) = .char c n := by
  cases l with
  | nil => simp at hn
  | cons d l =>
      simp only [List.cons_append, escape] at h ⊢
      split at h
      · exact h
      · split at h
        · split at h
          · rename_i hscalar
            cases h
            -- the run of digits ends inside `l`, so what comes after `l` is not looked at
            have hrun : (l.takeWhile isOctal).length ≠ l.length := by
              intro hlen
              rw [List.takeWhile_append, if_pos hlen] at hn
              simp only [List.length_cons, List.length_append] at hn
              omega
            rw [List.takeWhile_append, if_neg hrun] at hscalar ⊢
            rw [List.takeWhile_append, if_neg hrun, hscalar]
            simp [*]
          · cases h
        · cases h

theorem body_follows {text : List Char} (h : body (l ++ rest) = .closed text l.length) :
    body (l ++ t) = .closed text l.length := by
  generalize hcs : l ++ rest = cs at h
  fun_induction body cs generalizing l text with
  | case1 => cases h
  | case2 cs =>
      obtain ⟨rfl, hl⟩ := Body.closed.inj h
      obtain ⟨c, rfl⟩ := List.length_eq_one_iff.mp hl.symm
      cases hcs
      rw [List.singleton_append, body, if_pos rfl]
      rfl
  | case3 cs d n hd _ ih =>
      obtain ⟨text', m, hm, rfl, hlen⟩ := Body.of_after_closed h
      have hpos := (length_of_body_closed hm).1
      cases l with
      | nil => simp at hlen; omega
      | cons c l =>
          cases hcs
          rw [List.length_cons] at hlen
          have hn : n < l.length := by omega
          have hm' : m = (l.drop n).length := by
            rw [List.length_drop]
            omega
          rw [hm'] at hm
          have hrest := ih (List.drop_append_of_le_length hn.le).symm hm
          rw [List.cons_append, body, if_neg (by decide), if_pos rfl, escape_follows hd hn]
          simp only [List.drop_append_of_le_length hn.le, hrest, Body.after, List.length_cons]
          rw [← hm', hlen]
  | case4 => cases h
  | case5 => cases h
  | case6 c cs hquote hback ih =>
      obtain ⟨text', m, hm, rfl, hlen⟩ := Body.of_after_closed h
      have hpos := (length_of_body_closed hm).1
      cases l with
      | nil => simp at hlen; omega
      | cons d l =>
          cases hcs
          obtain rfl : m = l.length := by
            rw [List.length_cons] at hlen
            omega
          rw [List.cons_append, body, if_neg hquote, if_neg hback, ih rfl hm]
          rw [Body.after, hlen]

end StringLiteral

namespace Scan

theorem takeWhile_eq_left {p : Char → Bool} (h : ((l ++ rest).takeWhile p).length = l.length) :
    (l ++ rest).takeWhile p = l :=
  (List.prefix_of_prefix_length_le (List.takeWhile_prefix p) (List.prefix_append l rest) h.le).eq_of_length h

/-- A run that ends with `l` ends there before any text that may follow. -/
theorem takeWhile_follows {p : Char → Bool} (h : ((l ++ rest).takeWhile p).length = l.length)
    (hp : p '\n' = false) (ht : Follows rest t) :
    (l ++ rest).takeWhile p = l ∧ (l ++ t).takeWhile p = l := by
  have hrun := takeWhile_eq_left h
  refine ⟨hrun, ?_⟩
  have hall : ∀ c ∈ l, p c = true := by
    intro c hc
    rw [← hrun] at hc
    exact List.mem_takeWhile_imp hc
  rw [List.takeWhile_append_of_pos hall] at hrun ⊢
  cases t with
  | nil => simp
  | cons c t =>
      have hc : p c = false := by
        rcases ht c rfl with hc | rfl
        · cases rest with
          | nil => cases hc
          | cons d rest =>
              cases hc
              simpa [List.takeWhile_cons] using hrun
        · exact hp
      simp [hc]

/-- Punctuation has two characters at most, and none of them is a newline. -/
theorem length_punctuation_le : ∀ s ∈ Symbol.punctuation, s.chars.length ≤ 2 ∧ '\n' ∉ s.chars := by
  decide

theorem isPrefix_follows {cs : List Char} (h : cs <+: l ++ t) (hlen : cs.length ≤ l.length + 1)
    (hcs : '\n' ∉ cs) (ht : Follows rest t) : cs <+: l ++ rest := by
  induction l generalizing cs with
  | nil =>
      match cs with
      | [] => exact List.nil_prefix
      | [c] =>
          obtain ⟨more, rfl⟩ := h
          rcases ht c rfl with hc | rfl
          · obtain ⟨more', rfl⟩ := List.head?_eq_some_iff.mp hc
            exact ⟨more', rfl⟩
          · exact absurd List.mem_cons_self hcs
      | _ :: _ :: _ => simp at hlen
  | cons d l ih =>
      cases cs with
      | nil => exact List.nil_prefix
      | cons c cs =>
          rw [List.cons_append, List.cons_prefix_cons] at h ⊢
          refine ⟨h.1, ih h.2 ?_ fun hc => hcs (List.mem_cons_of_mem c hc)⟩
          simpa using hlen

theorem leading?_follows {s : Symbol} (h : Symbol.leading? (l ++ rest) = some s) (hl : l ≠ [])
    (hlen : s.chars.length = l.length) (ht : Follows rest t) : Symbol.leading? (l ++ t) = some s := by
  unfold Symbol.leading? at h ⊢
  rw [List.find?_eq_some_iff_append] at h ⊢
  obtain ⟨hs, before, after, hsplit, hbefore⟩ := h
  have hchars : s.chars = l :=
    (List.prefix_of_prefix_length_le (List.isPrefixOf_iff_prefix.mp hs) (List.prefix_append l rest)
      hlen.le).eq_of_length hlen
  refine ⟨by simp [hchars], before, after, hsplit, fun a ha => ?_⟩
  -- a longer symbol that fits now would have fitted before
  have hshort := length_punctuation_le a (hsplit ▸ List.mem_append_left _ ha)
  have hpos := List.length_pos_iff.mpr hl
  have hno := hbefore a ha
  rw [Bool.not_eq_true', Bool.eq_false_iff, ne_eq, List.isPrefixOf_iff_prefix] at hno ⊢
  exact fun ha => hno (isPrefix_follows ha (by omega) hshort.2 ht)

theorem number_follows {x : Lexeme} (h : number (l ++ rest) = .lexeme x l.length) (ht : Follows rest t) :
    number (l ++ t) = .lexeme x l.length := by
  unfold number at h ⊢
  dsimp only at h
  split at h
  · rename_i v hv
    injection h with hx hlen
    obtain ⟨hrun, hrun'⟩ := takeWhile_follows hlen rfl ht
    rw [hrun] at hv
    simp [hrun', hv, hx]
  · cases h

theorem string_follows {x : Lexeme} {c : Char} (h : string (c :: l ++ rest) = .lexeme x (c :: l).length) :
    string (c :: l ++ t) = .lexeme x (c :: l).length := by
  unfold string at h ⊢
  simp only [List.cons_append, List.drop_succ_cons, List.drop_zero, List.length_cons] at h ⊢
  split at h
  · rename_i text n hbody
    injection h with hx hlen
    obtain rfl : n = l.length := by omega
    rw [StringLiteral.body_follows hbody]
    simp [hx, Nat.add_comm]
  · cases h
  · cases h

variable [Alphabet]

/-- A lexeme is read alike before any text that may follow it. -/
theorem front_follows {x : Lexeme} (h : front (l ++ rest) = .lexeme x l.length) (hl : l ≠ [])
    (ht : Follows rest t) : front (l ++ t) = .lexeme x l.length := by
  obtain ⟨c, l, rfl⟩ := List.exists_cons_of_ne_nil hl
  simp only [List.cons_append, front] at h ⊢
  by_cases hc : Alphabet.isAlphabetic c = true
  · rw [if_pos hc] at h ⊢
    injection h with hword hlen
    obtain ⟨hrun, hrun'⟩ := takeWhile_follows (l := c :: l) hlen (isWordChar_of_lt (by decide)) ht
    rw [List.cons_append] at hrun hrun'
    rw [hrun', ← hword, hrun]
  · rw [if_neg hc] at h ⊢
    by_cases hd : c.isDigit = true
    · rw [if_pos hd] at h ⊢
      exact number_follows (l := c :: l) h ht
    · rw [if_neg hd] at h ⊢
      by_cases hq : c = '\x22'
      · rw [if_pos hq] at h ⊢
        exact string_follows h
      · rw [if_neg hq] at h ⊢
        split at h
        · rename_i s hs
          injection h with hx hlen
          have hs' := leading?_follows (l := c :: l) hs hl hlen ht
          rw [List.cons_append] at hs'
          simp [hs', hx, hlen]
        · cases h

theorem ne_nil_of_front {x : Lexeme} (h : front (l ++ rest) = .lexeme x l.length) (hx : x ≠ .eof) : l ≠ [] := by
  have hweight := (weight_le_of_front h).1
  have hpos := Lexeme.weight_pos fun hk => hx (Lexeme.eq_eof_of_kind hk)
  rintro rfl
  rw [List.length_nil] at hweight
  omega

end Scan

/-! ## Whole texts -/

variable [Alphabet]

/-- A text falls into gaps and the lexemes `xs`. -/
inductive Lexes : List Char → List Lexeme → Prop where
  | eof {g : List Char} : Gap g [] → Lexes g []
  | lexeme {g l rest : List Char} {x : Lexeme} {xs : List Lexeme} : Gap g (l ++ rest) → Bare (l ++ rest) →
      Scan.front (l ++ rest) = .lexeme x l.length → x ≠ .eof → Lexes rest xs →
      Lexes (g ++ (l ++ rest)) (x :: xs)

theorem Lexes.gap {g cs : List Char} {xs : List Lexeme} (hg : Gap g cs) (h : Lexes cs xs) :
    Lexes (g ++ cs) xs := by
  cases h with
  | eof h =>
      refine .eof (.append ?_ h)
      rwa [List.append_nil]
  | lexeme h hbare hx hne hrest =>
      rw [← List.append_assoc]
      exact .lexeme (hg.append h) hbare hx hne hrest

/-- A text can be cut after any of its lexemes, also after the last, and then goes on after a newline. -/
theorem Lexes.splice {cs : List Char} {xs ys : List Lexeme} (h : Lexes cs (xs ++ ys)) :
    ∃ cs', cs' <+: cs ∧ (ys = [] → cs' = cs) ∧
      ∀ {ds : List Char} {zs : List Lexeme}, Lexes ds zs → Lexes (cs' ++ '\n' :: ds) (xs ++ zs) := by
  induction xs generalizing cs with
  | nil =>
      have hnewline : ∀ {ds zs}, Lexes ds zs → Lexes ('\n' :: ds) zs :=
        .gap (.cons (.space (.inr (.inr rfl))) .nil)
      cases h with
      | eof hg =>
          refine ⟨cs, List.prefix_rfl, fun _ => rfl, fun hds => .gap (hg.follows ?_) (hnewline hds)⟩
          exact fun c hc => .inr (Option.some.inj hc).symm
      | lexeme => exact ⟨[], List.nil_prefix, nofun, hnewline⟩
  | cons x xs ih =>
      cases h with
      | @lexeme g l rest _ _ hg hbare hx hne hrest =>
          obtain ⟨rest', hprefix, hall, hsplice⟩ := ih hrest
          refine ⟨g ++ (l ++ rest'), ?_, fun hys => by rw [hall hys], fun {ds zs} hds => ?_⟩
          · rwa [List.prefix_append_right_inj, List.prefix_append_right_inj]
          · have hl := Scan.ne_nil_of_front hx hne
            have ht := follows_of_isPrefix hprefix ds
            rw [List.append_assoc, List.append_assoc]
            exact .lexeme (hg.follows ht.append) (hbare.follows hl ht) (Scan.front_follows hx hl ht) hne
              (hsplice hds)

/-! ## Tokens -/

theorem Cursor.bare_of_next {c d : Cursor} {t : Token} (h : Cursor.next c = .ok t d) :
    ∃ g l, c.rest = g ++ (l ++ d.rest) ∧ Gap g (l ++ d.rest) ∧ Bare (l ++ d.rest) ∧
      Scan.front (l ++ d.rest) = .lexeme t.lexeme l.length := by
  obtain ⟨g, l, hpass, hg, hend, -, hx⟩ := Cursor.next_eq_ok h
  have hrest : c.rest = g ++ (l ++ d.rest) := by rw [hpass.text, List.append_assoc]
  refine ⟨g, l, hrest, hg, ⟨hend, ?_⟩, hx⟩
  unfold Cursor.next at h
  simp only [(Cursor.passes_gap hrest hg hend).2] at h
  split at h
  · cases h
  · rename_i hopens
    exact Bool.eq_false_iff.mpr hopens

theorem Lexes.tokens {c : Cursor} {xs : List Lexeme} (h : Lexes c.rest xs) :
    ∃ ts, c.tokens = .ok ts ∧ ts.map Token.lexeme = xs ++ [.eof] := by
  generalize hc : c.rest = cs at h
  induction h generalizing c with
  | @eof g hg =>
      rw [← List.append_nil g] at hc
      obtain ⟨b, _, _, hn⟩ := Cursor.next_of_lexeme hc hg rfl rfl rfl
      exact ⟨_, Cursor.tokens_of_next hn, rfl⟩
  | @lexeme g l rest x xs hg hbare hx hne _ ih =>
      obtain ⟨b, _, hb, hn⟩ := Cursor.next_of_lexeme hc hg hbare.1 hbare.2 hx
      obtain ⟨ts, hts, hxs⟩ := ih (c := b.skip l.length) (by rw [Cursor.rest_skip, hb, List.drop_left])
      have hk : Token.kind ⟨x, b.position⟩ ≠ .eof := fun hk => hne (Lexeme.eq_eof_of_kind hk)
      refine ⟨⟨x, b.position⟩ :: ts, ?_, by simp [hxs]⟩
      rw [Cursor.tokens_of_next hn, if_neg hk, hts]
      rfl

theorem lexes_of_tokens {c : Cursor} {ts : List Token} (h : c.tokens = .ok ts) :
    ∃ xs, Lexes c.rest xs ∧ ts.map Token.lexeme = xs ++ [.eof] := by
  induction ts generalizing c with
  | nil =>
      obtain ⟨t, d, _, ⟨_, hts⟩ | ⟨_, us, _, hts⟩⟩ := Cursor.tokens_eq_ok h
      · cases hts
      · cases hts
  | cons t ts ih =>
      obtain ⟨u, d, hn, hts⟩ := Cursor.tokens_eq_ok h
      obtain ⟨g, l, hrest, hg, hbare, hx⟩ := Cursor.bare_of_next hn
      rw [hrest]
      rcases hts with ⟨ht, hts⟩ | ⟨ht, us, hus, hts⟩
      · cases hts
        have heof := Lexeme.eq_eof_of_kind ht
        have hnil := Scan.eq_nil_of_front_eof (heof ▸ hx)
        rw [hnil] at hg ⊢
        exact ⟨[], .eof (by simpa using hg), by simp [heof]⟩
      · cases hts
        obtain ⟨xs, hxs, hmap⟩ := ih hus
        exact ⟨t.lexeme :: xs, .lexeme hg hbare hx (fun hk => ht (by rw [Token.kind, hk]; rfl)) hxs,
          by simp [hmap]⟩

/-- A text falls into lexemes exactly if it falls into their tokens and the end. -/
theorem lexes_iff {source : String} {xs : List Lexeme} :
    Lexes source.toList xs ↔ ∃ ts, tokenize source = .ok ts ∧ ts.map Token.lexeme = xs ++ [.eof] := by
  constructor
  · intro h
    refine Lexes.tokens ?_
    rwa [Cursor.rest_ofText]
  · rintro ⟨ts, hts, hmap⟩
    obtain ⟨ys, hys, hmap'⟩ := lexes_of_tokens hts
    rw [Cursor.rest_ofText] at hys
    rw [hmap, List.append_cancel_right_eq] at hmap'
    rw [hmap']
    exact hys

end ScriptEngine
