import ScriptEngine.Error

/-!
# Reading one lexeme

The lexeme at the front of a text is decided by its first character: a letter starts a word, a digit
a number, a quote a string, and anything else has to be punctuation. Reading looks at the text alone
and says how many characters it took; positions come in with the cursor.
-/

namespace ScriptEngine

/-!
## Trivia

Between tokens stand pieces that mean nothing: a space, tab or newline, a comment from `//` to the end
of its line, and a comment from `/*` to the first `*/` after it. All pieces at the front of a text are
skipped; a `/*` that is left over has no end.
-/

namespace Trivia

/-- The blanks of the language. -/
def isSpace (c : Char) : Bool := c == ' ' || c == '\t' || c == '\n'

/-- How many characters there are up to and with the first `*/`. -/
def commentEnd? : List Char → Option Nat
  | [] => none
  | '*' :: '/' :: _ => some 2
  | _ :: cs => (commentEnd? cs).map (· + 1)

/-- The length of the piece of trivia at the front of a text, zero if there is none. -/
def piece : List Char → Nat
  | '/' :: '/' :: cs => 2 + (cs.takeWhile (· != '\n')).length
  | '/' :: '*' :: cs =>
    match commentEnd? cs with
    | some n => 2 + n
    | none => 0
  | c :: _ => if isSpace c then 1 else 0
  | [] => 0

/-- The length of all the trivia at the front of a text. -/
def length (cs : List Char) : Nat :=
  if piece cs = 0 then 0 else piece cs + length (cs.drop (piece cs))
termination_by cs.length
decreasing_by
  rename_i h
  have : cs ≠ [] := fun e => h (by rw [e, piece])
  have := List.length_pos_iff.mpr this
  simp only [List.length_drop]
  omega

/-- Whether a text starts with a comment opener. -/
def opensComment : List Char → Bool
  | '/' :: '*' :: _ => true
  | _ => false

end Trivia

/-!
## String literals

The body of a string literal is read item by item: a plain character, an escape of one letter, or a
backslash and a run of octal digits, as long as it goes, that spells a code point. The first quote
that is no part of an item ends the literal.
-/

namespace StringLiteral

/-- The character that a one-letter escape stands for. -/
def escaped? (c : Char) : Option Char :=
  if c = 'r' then some '\r'
  else if c = 't' then some '\t'
  else if c = 'a' then some '\x07'
  else if c = 'f' then some '\x0c'
  else if c = 'v' then some '\x0b'
  else if c = 'b' then some '\x08'
  else if c = 'n' then some '\n'
  else if c = '\x22' then some '\x22'
  else if c = '\'' then some '\''
  else if c = '\\' then some '\\'
  else none

def isOctal (c : Char) : Bool := '0' ≤ c && c ≤ '7'

/-- The number that octal digits spell, if it fits into 32 bits at each of them. -/
def ofOctal? (digits : List Char) : Option Nat :=
  digits.foldlM (fun n c => Number.unsigned? 32 (8 * n + (c.toNat - '0'.toNat))) 0

/-- The character with a code point. Surrogates and numbers beyond the last code point have none. -/
def scalar? (n : Nat) : Option Char :=
  if n.isValidChar then some (Char.ofNat n) else none

/-- What follows a backslash. -/
inductive Escape where
  /-- `length` characters that stand for `c`. -/
  | char (c : Char) (length : Nat)
  /-- Characters that stand for nothing; `reached` of them have been read. -/
  | unknown (spelling : List Char) (reached : Nat)
  /-- Nothing at all. -/
  | missing
deriving DecidableEq, Repr

/-- The escape at the front of a text. -/
def escape : List Char → Escape
  | [] => .missing
  | c :: cs =>
    match escaped? c with
    | some d => .char d 1
    | none =>
      if isOctal c then
        let digits := c :: cs.takeWhile isOctal
        match (ofOctal? digits).bind scalar? with
        | some d => .char d digits.length
        | none => .unknown digits digits.length
      else .unknown [c] 0

/-- How the body of a literal ends. -/
inductive Body where
  /-- With its quote: the decoded text and the length read, quote included. -/
  | closed (text : List Char) (length : Nat)
  /-- At an escape that stands for nothing, which starts at `offset`; the reading stopped at
  `reached`. -/
  | unknown (spelling : List Char) (offset reached : Nat)
  /-- With the text. -/
  | unterminated
deriving DecidableEq, Repr

/-- A body after an item of `length` characters that stands for `c`. -/
def Body.after (c : Char) (length : Nat) : Body → Body
  | .closed text n => .closed (c :: text) (length + n)
  | .unknown spelling offset reached => .unknown spelling (length + offset) (length + reached)
  | .unterminated => .unterminated

/-- The body at the front of a text that follows an opening quote. -/
def body : List Char → Body
  | [] => .unterminated
  | c :: cs =>
    if c = '\x22' then .closed [] 1
    else if c = '\\' then
      match escape cs with
      | .char d n => (body (cs.drop n)).after d (1 + n)
      | .unknown spelling reached => .unknown spelling 1 (1 + reached)
      | .missing => .unterminated
    else (body cs).after c 1
termination_by cs => cs.length
decreasing_by
  · simp only [List.length_drop, List.length_cons]
    omega
  · simp

/-! ### Lengths -/

/-- An escape is no longer than the text it stands in. -/
theorem length_le_of_escape {cs : List Char} {c : Char} {n : Nat} (h : escape cs = .char c n) :
    n ≤ cs.length := by
  unfold escape at h
  split at h
  · cases h
  · rename_i d ds
    split at h
    · cases h
      simp
    · split at h
      · dsimp only at h
        split at h
        · cases h
          have := (List.takeWhile_prefix isOctal (l := ds)).length_le
          simp only [List.length_cons]
          omega
        · cases h
      · cases h

/-- A closed body after an item comes from a closed body. -/
theorem Body.of_after_closed {c : Char} {k n : Nat} {text : List Char} {b : Body}
    (h : b.after c k = .closed text n) : ∃ t m, b = .closed t m ∧ text = c :: t ∧ n = k + m := by
  cases b <;> cases h
  exact ⟨_, _, rfl, rfl, rfl⟩

/-- The part of a text that a closed body takes is not empty and lies in the text. -/
theorem length_of_body_closed {cs text : List Char} {n : Nat} (h : body cs = .closed text n) :
    0 < n ∧ n ≤ cs.length := by
  fun_induction body cs generalizing text n with
  | case1 => cases h
  | case2 => cases h; simp
  | case3 cs d k he _ ih =>
    obtain ⟨t, m, hb, -, rfl⟩ := Body.of_after_closed h
    have := ih hb
    have := length_le_of_escape he
    simp only [List.length_drop, List.length_cons] at *
    omega
  | case4 => cases h
  | case5 => cases h
  | case6 c cs _ _ ih =>
    obtain ⟨t, m, hb, -, rfl⟩ := Body.of_after_closed h
    have := ih hb
    simp only [List.length_cons]
    omega

end StringLiteral

/-! ## Lexemes -/

/-- What stands at the front of a text. -/
inductive Scan where
  /-- A lexeme of the given length. -/
  | lexeme (l : Lexeme) (length : Nat)
  /-- Something that is refused at the character `offset`, when the first `reached` are read. -/
  | refused (cause : Cause) (offset reached : Nat)

namespace Scan

/-- The characters that continue a word. -/
def isWordChar [Alphabet] (c : Char) : Bool := Alphabet.isAlphabetic c || Alphabet.isNumeric c || c == '_'

theorem isWordChar_of_lt [Alphabet] {c : Char} (h : c.toNat < 128) :
    isWordChar c = (c.isAlpha || c.isDigit || c == '_') := by
  rw [isWordChar, Alphabet.isAlphabetic_of_lt h, Alphabet.isNumeric_of_lt h]

def isNumberChar (c : Char) : Bool := c.isDigit || c == '.'

/-- The constants that are spelled as words. -/
def wordConstant? (word : List Char) : Option Literal :=
  if word = ['T', 'r', 'u', 'e'] then some (.bool true)
  else if word = ['F', 'a', 'l', 's', 'e'] then some (.bool false)
  else if word = ['N', 'o', 'n', 'e'] then some .null
  else none

/-- A whole word is a keyword, a constant or a name. -/
def word (cs : List Char) : Lexeme :=
  match Symbol.keyword? cs with
  | some s => .symbol s
  | none =>
    match wordConstant? cs with
    | some l => .constant l
    | none => .name (String.ofList cs)

/-- Digits without a point are an integer, which has to fit into 64 bits; digits with one point are a
float; two points are one too many. -/
def number? (cs : List Char) : Option Literal :=
  match cs.dropWhile Char.isDigit with
  | [] =>
    (Number.word? (Number.ofDigits cs)).map .int
  | _ :: fraction =>
    if fraction.all Char.isDigit then
      some (.float (Number.ofPoint (cs.takeWhile Char.isDigit) fraction))
    else none

def number (cs : List Char) : Scan :=
  let digits := cs.takeWhile isNumberChar
  match number? digits with
  | some l => .lexeme (.constant l) digits.length
  | none => .refused (.badNumber (String.ofList digits)) 0 digits.length

/-- The string at the front of a text, whose first character is its opening quote. -/
def string (cs : List Char) : Scan :=
  match StringLiteral.body (cs.drop 1) with
  | .closed text n => .lexeme (.constant (.str (String.ofList text))) (1 + n)
  | .unknown spelling offset reached =>
    .refused (.unknownEscape (String.ofList spelling)) (1 + offset) (1 + reached)
  | .unterminated => .refused .unterminatedString 0 cs.length

/-- What stands at the front of a text that does not start with trivia. -/
def front [Alphabet] (cs : List Char) : Scan :=
  match cs with
  | [] => .lexeme .eof 0
  | c :: _ =>
    if Alphabet.isAlphabetic c then
      let chars := cs.takeWhile isWordChar
      .lexeme (word chars) chars.length
    else if c.isDigit then number cs
    else if c = '\x22' then string cs
    else
      match Symbol.leading? cs with
      | some s => .lexeme (.symbol s) s.chars.length
      | none => .refused (.unrecognisedToken (String.ofList [c])) 0 0

theorem front_quote [Alphabet] (cs : List Char) : front ('\x22' :: cs) =
    match StringLiteral.body cs with
    | .closed text n => .lexeme (.constant (.str (String.ofList text))) (1 + n)
    | .unknown spelling offset reached =>
      .refused (.unknownEscape (String.ofList spelling)) (1 + offset) (1 + reached)
    | .unterminated => .refused .unterminatedString 0 ('\x22' :: cs).length := by
  rw [front, Alphabet.isAlphabetic_eq_false (by decide) rfl]
  rfl

theorem front_punctuation [Alphabet] {c : Char} {cs : List Char} {s : Symbol} (h : c.toNat < 128)
    (hc : c.isAlpha = false ∧ c.isDigit = false ∧ c ≠ '\x22') (hs : Symbol.leading? (c :: cs) = some s) :
    front (c :: cs) = .lexeme (.symbol s) s.chars.length := by
  simp [front, Alphabet.isAlphabetic_eq_false h hc.1, hc.2.1, hc.2.2, hs]

/-! ### Lengths -/

theorem weight_word (cs : List Char) : (word cs).weight ≤ 1 := by
  unfold word
  split
  · rename_i s h
    have := List.mem_of_find?_eq_some h
    simp only [Symbol.keywords, List.mem_cons, List.not_mem_nil, or_false] at this
    rcases this with h | h | h | h | h | h | h | h <;> subst h <;> decide
  · split <;> simp [Lexeme.weight]

/-- A run that starts with a character of its class is not empty and lies in the text. -/
theorem length_takeWhile_pos {p : Char → Bool} {c : Char} (cs : List Char) (h : p c = true) :
    0 < ((c :: cs).takeWhile p).length ∧ ((c :: cs).takeWhile p).length ≤ (c :: cs).length := by
  refine ⟨?_, (List.takeWhile_prefix p).length_le⟩
  simp [h]

/-- A lexeme weighs no more than its length, and lies in the text. -/
theorem weight_le_of_front [Alphabet] {cs : List Char} {l : Lexeme} {n : Nat} (h : front cs = .lexeme l n) :
    l.weight ≤ n ∧ n ≤ cs.length := by
  unfold front at h
  split at h
  · cases h
    simp [Lexeme.weight]
  · rename_i c cs
    split at h
    · rename_i ha
      cases h
      have hw : isWordChar c = true := by simp [isWordChar, ha]
      have := length_takeWhile_pos cs hw
      have := weight_word ((c :: cs).takeWhile isWordChar)
      omega
    · split at h
      · rename_i hd
        have hn : isNumberChar c = true := by simp [isNumberChar, hd]
        have hp := length_takeWhile_pos cs hn
        unfold number at h
        dsimp only at h
        split at h
        · cases h
          exact ⟨hp.1, hp.2⟩
        · cases h
      · split at h
        · unfold string at h
          split at h
          · rename_i hb
            cases h
            have := StringLiteral.length_of_body_closed hb
            simp only [List.drop_succ_cons, List.drop_zero] at this
            simp only [Lexeme.weight, List.length_cons]
            omega
          · cases h
          · cases h
        · split at h
          · rename_i hs
            cases h
            exact ⟨Lexeme.weight_symbol_le _, Symbol.chars_length_le_of_leading? hs⟩
          · cases h

end Scan

end ScriptEngine
