import Mathlib.Tactic.FinCases
import ScriptEngine.Proofs.Token.Cursor
import ScriptEngine.Proofs.Token.Trivia
import ScriptEngine.Text.Unicode

/-!
# Reading what was spelled

Lexemes are spelled one after the other with a separator before each of them and one at the end. A
separator starts with a blank, so no spelling can run on into what follows it, and the text is read as the
lexemes that were spelled, whatever stands in the comments between them.
-/

namespace ScriptEngine

open Trivia

/-! ## Spellings -/

/-- Blanks and comments with their ends, one after the other. -/
inductive Filler : List Char → Prop where
  | nil : Filler []
  | blank {c : Char} {cs : List Char} : c = ' ' ∨ c = '\t' ∨ c = '\n' → Filler cs → Filler (c :: cs)
  | line {body cs : List Char} : '\n' ∉ body → Filler cs → Filler ('/' :: '/' :: (body ++ '\n' :: cs))
  | block {body cs : List Char} : ¬['*', '/'] <:+: body → Filler cs →
      Filler ('/' :: '*' :: (body ++ '*' :: '/' :: cs))

/-- A blank and a filler. -/
inductive Separator : List Char → Prop where
  | mk {c : Char} {cs : List Char} : c = ' ' ∨ c = '\t' ∨ c = '\n' → Filler cs → Separator (c :: cs)

/-- A character inside a string. Quotes and backslashes are escaped, and all else stands as it is. -/
def StringLiteral.spellChar (c : Char) : List Char :=
  if c = '\x22' ∨ c = '\\' then ['\\', c] else [c]

def StringLiteral.spell (s : List Char) : List Char := '\x22' :: (s.flatMap spellChar ++ ['\x22'])

/-- The texts that spell a lexeme. Floats are left out, and an integer may have zeros before it. -/
inductive Lexeme.Spelled [Alphabet] : Lexeme → List Char → Prop where
  | symbol (s : Symbol) : Spelled (.symbol s) s.chars
  | name {c : Char} {cs : List Char} : Alphabet.isAlphabetic c = true →
      (∀ d ∈ cs, Alphabet.isAlphabetic d = true ∨ Alphabet.isNumeric d = true ∨ d = '_') →
      (∀ s ∈ Symbol.keywords, s.chars ≠ c :: cs) →
      c :: cs ∉ [['T', 'r', 'u', 'e'], ['F', 'a', 'l', 's', 'e'], ['N', 'o', 'n', 'e']] →
      Spelled (.name (String.ofList (c :: cs))) (c :: cs)
  | int {n : Int64} (zeros : Nat) : 0 ≤ n.toInt →
      Spelled (.constant (.int n)) (List.replicate zeros '0' ++ Nat.toDigits 10 n.toInt.toNat)
  | boolTrue : Spelled (.constant (.bool true)) ['T', 'r', 'u', 'e']
  | boolFalse : Spelled (.constant (.bool false)) ['F', 'a', 'l', 's', 'e']
  | null : Spelled (.constant .null) ['N', 'o', 'n', 'e']
  | str (s : String) : Spelled (.constant (.str s)) (StringLiteral.spell s.toList)

/-- A text that spells lexemes with a separator before each of them and one at the end. -/
inductive Spells [Alphabet] : List Lexeme → List Char → Prop where
  | done {sep : List Char} : Separator sep → Spells [] sep
  | next {sep cs rest : List Char} {l : Lexeme} {ls : List Lexeme} : Separator sep → l.Spelled cs →
      Spells ls rest → Spells (l :: ls) (sep ++ (cs ++ rest))

/-! ## Separators -/

theorem Filler.gap {g : List Char} (h : Filler g) (rest : List Char) : Gap g rest := by
  induction h with
  | nil => exact .nil
  | blank hc _ ih => exact .cons (.space hc) ih
  | @line body cs hbody _ ih =>
      have hcomment : Piece ('/' :: '/' :: body) (['\n'] ++ cs ++ rest) := .line hbody (by simp)
      exact .cons hcomment (.cons (.space (.inr (.inr rfl))) ih)
  | @block body cs hbody _ ih =>
      have hfirst : ¬['*', '/'] <:+: body ++ ['*'] := by
        rw [List.infix_concat_iff]
        rintro (⟨before, hends⟩ | hin)
        · have hlast := congrArg List.getLast? hends
          simp at hlast
        · exact hbody hin
      have hcomment : Gap ('/' :: '*' :: (body ++ ['*', '/']) ++ cs) rest := .cons (.block hfirst) ih
      simpa using hcomment

theorem Separator.gap {sep : List Char} (h : Separator sep) (rest : List Char) : Gap sep rest := by
  cases h with
  | mk hc hcs => exact (Filler.blank hc hcs).gap rest

theorem Spells.starts [Alphabet] {ls : List Lexeme} {cs : List Char} (h : Spells ls cs) :
    ∃ b rest, cs = b :: rest ∧ isSpace b = true := by
  have hsep : ∀ {sep : List Char} (rest : List Char), Separator sep →
      ∃ b rest', sep ++ rest = b :: rest' ∧ isSpace b = true := by
    rintro _ rest ⟨hc, _⟩
    exact ⟨_, _, rfl, by rcases hc with rfl | rfl | rfl <;> rfl⟩
  cases h with
  | done h => simpa using hsep [] h
  | next h _ _ => exact hsep _ h

/-! ## Characters -/

theorem takeWhile_append_stop {p : Char → Bool} {w : List Char} {b : Char} (rest : List Char)
    (hw : ∀ c ∈ w, p c = true) (hb : p b = false) : (w ++ b :: rest).takeWhile p = w := by
  rw [List.takeWhile_append_of_pos hw]
  simp [hb]

namespace Scan

variable {b : Char}

theorem isSpace_cases (hb : isSpace b = true) : b = ' ' ∨ b = '\t' ∨ b = '\n' := by
  simpa [isSpace, or_assoc] using hb

theorem isNumberChar_of_isSpace (hb : isSpace b = true) : isNumberChar b = false := by
  rcases isSpace_cases hb with rfl | rfl | rfl <;> rfl

theorem keyword_chars : ∀ s ∈ Symbol.keywords, s.chars ≠ [] ∧ Symbol.keyword? s.chars = some s ∧
    s.chars.all Char.isAlpha = true := by
  decide

theorem punctuation_chars : ∀ s ∈ Symbol.punctuation, s.chars ≠ [] ∧ ('/' ∈ s.chars → s = .slash) ∧
    s.chars.all (fun c => !(127 < c.toNat || c.isAlpha || c.isDigit || c == '\x22' || isSpace c)) = true := by
  decide

/-- Before a blank the longest punctuation that fits is the one that was spelled. -/
theorem leading?_chars {s : Symbol} (rest : List Char) (hs : s ∈ Symbol.punctuation)
    (hb : isSpace b = true) : Symbol.leading? (s.chars ++ b :: rest) = some s := by
  rcases isSpace_cases hb with rfl | rfl | rfl <;> fin_cases hs <;> rfl

theorem body_spellChar (s rest : List Char) :
    StringLiteral.body (s.flatMap StringLiteral.spellChar ++ '\x22' :: rest) =
      .closed s ((s.flatMap StringLiteral.spellChar).length + 1) := by
  induction s with
  | nil =>
      rw [List.flatMap_nil, List.nil_append, StringLiteral.body, if_pos rfl]
      rfl
  | cons c s ih =>
      -- an item of two characters if it is escaped, of one if not
      by_cases hc : c = '\x22' ∨ c = '\\'
      · have hescape : ∀ cs, StringLiteral.escape (c :: cs) = .char c 1 := by
          rcases hc with rfl | rfl <;> exact fun _ => rfl
        have hspell : StringLiteral.spellChar c = ['\\', c] := if_pos hc
        simp only [List.flatMap_cons, hspell, List.cons_append, List.nil_append]
        rw [StringLiteral.body, if_neg (by decide), if_pos rfl, hescape]
        simp only [List.drop_succ_cons, List.drop_zero, ih, StringLiteral.Body.after, List.length_cons]
        congr 1
        omega
      · obtain ⟨hquote, hback⟩ := not_or.mp hc
        have hspell : StringLiteral.spellChar c = [c] := if_neg hc
        simp only [List.flatMap_cons, hspell, List.cons_append, List.nil_append]
        rw [StringLiteral.body, if_neg hquote, if_neg hback, ih]
        simp only [StringLiteral.Body.after, List.length_cons]
        congr 1
        omega

/-! ## Words and numbers -/

variable [Alphabet]

theorem isWordChar_of_isSpace (hb : isSpace b = true) : isWordChar b = false := by
  rcases isSpace_cases hb with rfl | rfl | rfl <;> exact isWordChar_of_lt (by decide)

theorem isWordChar_of_isAlphabetic {c : Char} (hc : Alphabet.isAlphabetic c = true) : isWordChar c = true := by
  simp [isWordChar, hc]

/-- A word before a blank is read as a whole. -/
theorem front_word {c : Char} {cs : List Char} (rest : List Char) (hc : Alphabet.isAlphabetic c = true)
    (hcs : ∀ d ∈ cs, isWordChar d = true) (hb : isSpace b = true) :
    front (c :: cs ++ b :: rest) = .lexeme (word (c :: cs)) (c :: cs).length := by
  have hword : (c :: cs ++ b :: rest).takeWhile isWordChar = c :: cs := by
    refine takeWhile_append_stop rest (fun d hd => ?_) (isWordChar_of_isSpace hb)
    rcases List.mem_cons.mp hd with rfl | hd
    · exact isWordChar_of_isAlphabetic hc
    · exact hcs d hd
  simp only [List.cons_append] at hword ⊢
  simp only [front, hc, if_true, hword]

theorem front_letters {c : Char} {cs : List Char} (rest : List Char) (hcs : (c :: cs).all Char.isAlpha = true)
    (hb : isSpace b = true) : front (c :: cs ++ b :: rest) = .lexeme (word (c :: cs)) (c :: cs).length := by
  rw [List.all_eq_true] at hcs
  refine front_word rest (Alphabet.isAlphabetic_of_isAlpha (hcs c List.mem_cons_self)) (fun d hd => ?_) hb
  exact isWordChar_of_isAlphabetic (Alphabet.isAlphabetic_of_isAlpha (hcs d (List.mem_cons_of_mem c hd)))

theorem isWordChar_of_isDigit {c : Char} (hc : c.isDigit = true) : isWordChar c = true := by
  have hrange : 48 ≤ c.toNat ∧ c.toNat ≤ 57 := Char.isDigit_iff_toNat.mp hc
  simp [isWordChar, Alphabet.isNumeric_of_lt (show c.toNat < 128 by omega), hc]

theorem isAlphabetic_of_isDigit {c : Char} (hc : c.isDigit = true) : Alphabet.isAlphabetic c = false := by
  have hrange : 48 ≤ c.toNat ∧ c.toNat ≤ 57 := Char.isDigit_iff_toNat.mp hc
  rw [Alphabet.isAlphabetic_of_lt (by omega)]
  delta Char.isAlpha Char.isUpper Char.isLower
  simp [UInt32.le_iff_toNat_le]
  omega

/-- Digits before a blank are read as the integer they spell, if it fits. -/
theorem front_digits {ds : List Char} {n : Int64} (rest : List Char) (hne : ds ≠ [])
    (hds : ∀ d ∈ ds, d.isDigit = true) (hn : Number.ofDigits ds = n.toInt) (hb : isSpace b = true) :
    front (ds ++ b :: rest) = .lexeme (.constant (.int n)) ds.length := by
  have hrun : (ds ++ b :: rest).takeWhile isNumberChar = ds := by
    refine takeWhile_append_stop rest (fun d hd => ?_) (isNumberChar_of_isSpace hb)
    simp [isNumberChar, hds d hd]
  have hvalue : number? ds = some (.int n) := by
    have hdrop : ds.dropWhile Char.isDigit = [] := List.dropWhile_eq_nil_iff.mpr hds
    have hfits : Number.fits n.toInt = true := by
      have h₁ := n.le_toInt
      have h₂ := n.toInt_lt
      simp only [Number.fits, Bool.and_eq_true, decide_eq_true_eq]
      omega
    simp only [number?, hdrop, hn, Number.word?, hfits, if_true, Int64.ofInt_toInt, Option.map_some]
  obtain ⟨d, ds, rfl⟩ := List.exists_cons_of_ne_nil hne
  have hd := hds d List.mem_cons_self
  simp only [List.cons_append] at hrun ⊢
  simp only [front, isAlphabetic_of_isDigit hd, hd, number, hrun, hvalue, if_true]
  rfl

/-! ## Strings and symbols -/

theorem front_string (s : String) (rest : List Char) :
    front (StringLiteral.spell s.toList ++ rest) =
      .lexeme (.constant (.str s)) (StringLiteral.spell s.toList).length := by
  have hbody := body_spellChar s.toList rest
  simp only [StringLiteral.spell, List.cons_append, List.append_assoc, List.nil_append, front_quote, hbody,
    String.ofList_toList]
  simp
  omega

theorem front_symbol (s : Symbol) (rest : List Char) (hb : isSpace b = true) :
    front (s.chars ++ b :: rest) = .lexeme (.symbol s) s.chars.length := by
  rcases Symbol.mem_keywords_or_punctuation s with hs | hs
  · obtain ⟨hne, hkeyword, hall⟩ := keyword_chars s hs
    obtain ⟨c, cs, hcs⟩ := List.exists_cons_of_ne_nil hne
    rw [hcs] at hkeyword hall ⊢
    rw [front_letters rest hall hb, word, hkeyword]
  · obtain ⟨hne, _, hall⟩ := punctuation_chars s hs
    have hleading := leading?_chars rest hs hb
    obtain ⟨c, cs, hcs⟩ := List.exists_cons_of_ne_nil hne
    rw [hcs] at hall hleading ⊢
    simp only [List.all_cons, Bool.and_eq_true, Bool.not_eq_true', Bool.or_eq_false_iff,
      beq_eq_false_iff_ne, decide_eq_false_iff_not] at hall
    obtain ⟨⟨⟨⟨⟨hascii, halpha⟩, hdigit⟩, hquote⟩, _⟩, _⟩ := hall
    have hfront := front_punctuation (by omega) ⟨halpha, hdigit, hquote⟩ hleading
    rwa [hcs] at hfront

end Scan

/-! ## Lexemes -/

namespace Lexeme.Spelled

open Scan

theorem digits_isDigit {zeros n : Nat} :
    ∀ d ∈ List.replicate zeros '0' ++ Nat.toDigits 10 n, d.isDigit = true := by
  intro d hd
  rcases List.mem_append.mp hd with hd | hd
  · rw [List.eq_of_mem_replicate hd]
    rfl
  · exact Nat.isDigit_of_mem_toDigits (by decide) (by decide) hd

variable [Alphabet] {l : Lexeme} {cs : List Char} {b : Char}

theorem head_of_isWordChar {c : Char} {s : List Char} (hc : isWordChar c = true) :
    isSpace c = false ∧ (c = '/' → s = []) := by
  constructor
  · rw [← Bool.not_eq_true]
    intro hb
    rw [isWordChar_of_isSpace hb] at hc
    cases hc
  · rintro rfl
    rw [isWordChar_of_lt (by decide)] at hc
    cases hc

theorem head_of_isAlpha {c : Char} {ds : List Char} (hc : c.isAlpha = true) :
    isSpace c = false ∧ (c = '/' → ds = []) :=
  head_of_isWordChar (isWordChar_of_isAlphabetic (Alphabet.isAlphabetic_of_isAlpha hc))

/-- A spelling starts with no blank, and with a slash only if it is one. -/
theorem head (h : l.Spelled cs) :
    ∃ c ds, cs = c :: ds ∧ isSpace c = false ∧ (c = '/' → ds = []) := by
  cases h with
  | symbol s =>
      rcases Symbol.mem_keywords_or_punctuation s with hs | hs
      · obtain ⟨hne, _, hall⟩ := keyword_chars s hs
        obtain ⟨c, cs, hcs⟩ := List.exists_cons_of_ne_nil hne
        rw [hcs, List.all_cons, Bool.and_eq_true] at hall
        exact ⟨c, cs, hcs, head_of_isAlpha hall.1⟩
      · obtain ⟨hne, hslash, hall⟩ := punctuation_chars s hs
        obtain ⟨c, cs, hcs⟩ := List.exists_cons_of_ne_nil hne
        rw [hcs, List.all_cons, Bool.and_eq_true, Bool.not_eq_true', Bool.or_eq_false_iff] at hall
        refine ⟨c, cs, hcs, hall.1.2, ?_⟩
        rintro rfl
        rw [hslash (hcs ▸ List.mem_cons_self)] at hcs
        cases hcs
        rfl
  | name hc => exact ⟨_, _, rfl, head_of_isWordChar (isWordChar_of_isAlphabetic hc)⟩
  | @int n zeros =>
      obtain ⟨d, ds, hds⟩ := List.exists_cons_of_ne_nil
        (show List.replicate zeros '0' ++ Nat.toDigits 10 n.toInt.toNat ≠ [] by simp)
      have hd : d.isDigit = true := digits_isDigit d (hds ▸ List.mem_cons_self)
      exact ⟨d, ds, hds, head_of_isWordChar (isWordChar_of_isDigit hd)⟩
  | boolTrue => exact ⟨_, _, rfl, head_of_isAlpha rfl⟩
  | boolFalse => exact ⟨_, _, rfl, head_of_isAlpha rfl⟩
  | null => exact ⟨_, _, rfl, head_of_isAlpha rfl⟩
  | str s => exact ⟨'\x22', _, rfl, rfl, nofun⟩

/-- A spelling is no trivia, also not together with the blank after it. -/
theorem piece_eq_zero (h : l.Spelled cs) (rest : List Char) (hb : isSpace b = true) :
    piece (cs ++ b :: rest) = 0 ∧ opensComment (cs ++ b :: rest) = false := by
  obtain ⟨c, ds, rfl, hc, hslash⟩ := h.head
  by_cases hs : c = '/'
  · rw [hslash hs, hs]
    rcases isSpace_cases hb with rfl | rfl | rfl <;> exact ⟨rfl, rfl⟩
  · constructor
    · rw [List.cons_append, piece.eq_3]
      · simp [hc]
      · exact fun _ h => absurd h hs
      · exact fun _ h => absurd h hs
    · rw [List.cons_append, opensComment.eq_2]
      exact fun _ h => hs (List.cons.inj h).1

/-- A spelling before a blank is read as the lexeme that it spells. -/
theorem front (h : l.Spelled cs) (rest : List Char) (hb : isSpace b = true) :
    Scan.front (cs ++ b :: rest) = .lexeme l cs.length := by
  cases h with
  | symbol s => exact front_symbol s rest hb
  | @name c cs hc hcs hkeyword hconstant =>
      have hword : ∀ d ∈ cs, isWordChar d = true := fun d hd => by
        simpa [isWordChar, or_assoc] using hcs d hd
      have hname : word (c :: cs) = .name (String.ofList (c :: cs)) := by
        have hnone : Symbol.keyword? (c :: cs) = none := by
          simpa [Symbol.keyword?] using hkeyword
        simp only [List.mem_cons, List.not_mem_nil, or_false, not_or] at hconstant
        obtain ⟨ht, hf, hn⟩ := hconstant
        rw [word, hnone]
        simp only [wordConstant?, ht, hf, hn, if_false]
      rw [front_word rest hc hword hb, hname]
  | @int n zeros hn =>
      refine front_digits rest (by simp) digits_isDigit ?_ hb
      · have hvalue : Number.ofDigits (List.replicate zeros '0' ++ Nat.toDigits 10 n.toInt.toNat) =
            n.toInt.toNat := by
          show Nat.ofDigitChars 10 _ 0 = _
          rw [Nat.ofDigitChars_append, Nat.ofDigitChars_replicate_zero, Nat.mul_zero,
            Nat.ofDigitChars_ten_toDigits]
        rw [hvalue]
        exact Int.toNat_of_nonneg hn
  | boolTrue => exact front_letters rest rfl hb
  | boolFalse => exact front_letters rest rfl hb
  | null => exact front_letters rest rfl hb
  | str s => exact front_string s _

end Lexeme.Spelled

/-! ## Texts -/

section

variable [Alphabet]

/-- After a separator the lexeme that was spelled is read, and nothing after it. -/
theorem Separator.next {sep cs rest : List Char} {l : Lexeme} {ls : List Lexeme} {c : Cursor} (hsep : Separator sep)
    (hl : l.Spelled cs) (hrest : Spells ls rest) (hc : c.rest = sep ++ (cs ++ rest)) :
    ∃ q d, Cursor.next c = .ok ⟨l, q⟩ d ∧ d.rest = rest := by
  obtain ⟨b, rest, rfl, hb⟩ := hrest.starts
  obtain ⟨hpiece, hopens⟩ := hl.piece_eq_zero rest hb
  obtain ⟨b, _, hb, hn⟩ := Cursor.next_of_lexeme hc (hsep.gap _) hpiece hopens (hl.front rest hb)
  refine ⟨_, _, hn, ?_⟩
  rw [Cursor.rest_skip, hb, List.drop_left]

theorem Separator.next_eof {sep : List Char} {c : Cursor} (hsep : Separator sep) (hc : c.rest = sep) :
    ∃ q d, Cursor.next c = .ok ⟨.eof, q⟩ d := by
  rw [← List.append_nil sep] at hc
  obtain ⟨b, _, _, hn⟩ := Cursor.next_of_lexeme hc (hsep.gap []) rfl rfl rfl
  exact ⟨_, _, hn⟩

theorem Lexeme.Spelled.kind_ne_eof {l : Lexeme} {cs : List Char} {p : Position} (h : l.Spelled cs) :
    Token.kind ⟨l, p⟩ ≠ .eof := by
  cases h <;> exact nofun

theorem Spells.tokens {ls : List Lexeme} {c : Cursor} (h : Spells ls c.rest) :
    ∃ ts, c.tokens = .ok ts ∧ ts.map Token.lexeme = ls ++ [.eof] := by
  generalize hc : c.rest = cs at h
  induction h generalizing c with
  | done hsep =>
      obtain ⟨q, d, hn⟩ := hsep.next_eof hc
      exact ⟨[⟨.eof, q⟩], Cursor.tokens_of_next hn, rfl⟩
  | @next sep cs rest l ls hsep hl hrest ih =>
      obtain ⟨q, d, hn, hd⟩ := hsep.next hl hrest hc
      obtain ⟨ts, hts, hls⟩ := ih hd
      refine ⟨⟨l, q⟩ :: ts, ?_, by simp [hls]⟩
      rw [Cursor.tokens_of_next hn, if_neg hl.kind_ne_eof, hts]
      rfl

/-- A text that spells lexemes, with a separator before each of them and one at the end, falls into tokens
of exactly these lexemes and the end. -/
theorem tokenize_spelled {ls : List Lexeme} {cs : List Char} (h : Spells ls cs) :
    ∃ ts, tokenize (String.ofList cs) = .ok ts ∧ ts.map Token.lexeme = ls ++ [.eof] := by
  refine Spells.tokens ?_
  rwa [Cursor.rest_ofText, String.toList_ofList]

end

open scoped Unicode16

/-- A slash before a line comment with a comment opener in it, a name that starts as a keyword does, an
integer with zeros before it, and a string of a comment opener, a quote and a backslash. -/
theorem tokenize_spelled_slash :
    Spells [.symbol .slash, .name "iffy", .constant (.int 7), .constant (.str "/*\x22\\")]
      " / ///*\n iffy\t007 \x22/*\\\x22\\\\\x22\n/* \x22 **/".toList ∧
    ∃ ts, tokenize (String.ofList " / ///*\n iffy\t007 \x22/*\\\x22\\\\\x22\n/* \x22 **/".toList) = .ok ts ∧
      ts.map Token.lexeme =
        [.symbol .slash, .name "iffy", .constant (.int 7), .constant (.str "/*\x22\\"), .eof] := by
  have hspace : Separator [' '] := .mk (.inl rfl) .nil
  have hline : Separator [' ', '/', '/', '/', '*', '\n', ' '] :=
    .mk (.inl rfl) (@Filler.line ['/', '*'] [' '] (by decide) (.blank (.inl rfl) .nil))
  have htab : Separator ['\t'] := .mk (.inr (.inl rfl)) .nil
  have hblock : Separator ['\n', '/', '*', ' ', '\x22', ' ', '*', '*', '/'] :=
    .mk (.inr (.inr rfl)) (@Filler.block [' ', '\x22', ' ', '*'] [] (by decide) .nil)
  have hname : Lexeme.Spelled (.name "iffy") ['i', 'f', 'f', 'y'] :=
    .name rfl (fun d hd => .inl (List.all_eq_true.mp rfl d hd)) (by decide) (by decide)
  have hint : Lexeme.Spelled (.constant (.int 7)) ['0', '0', '7'] := .int 2 (by decide)
  have hstr := Lexeme.Spelled.str "/*\x22\\"
  have h := Spells.next hspace (.symbol .slash)
    (.next hline hname (.next htab hint (.next hspace hstr (.done hblock))))
  exact ⟨h, tokenize_spelled h⟩

end ScriptEngine
