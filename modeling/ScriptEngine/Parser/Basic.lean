import ScriptEngine.Token.Cursor

/-!
# Parsers

A parser is a cursor and one token read ahead. Its size bounds the steps that are left: the characters
not yet read, and the weight of the token ahead. Taking a token other than the end makes a parser
smaller, and nothing makes it larger.
-/

namespace ScriptEngine

/-- A cursor and the token before it. -/
structure Parser where
  cursor : Cursor
  current : Token

namespace Parser

/-- The parser at the start of a text. -/
def ofText [Alphabet] (source : String) : Except Error Parser :=
  match (Cursor.ofText source).next with
  | .ok t c => .ok ⟨c, t⟩
  | .error e _ => .error e

/-- The characters left, and the weight of the token ahead. -/
def size (p : Parser) : Nat := p.cursor.rest.length + p.current.lexeme.weight

/-- Whether the token ahead is not the end. -/
def hasTokens (p : Parser) : Bool := p.current.kind != .eof

def sees (p : Parser) (s : Symbol) : Bool := p.current.kind == .symbol s

/-- The error for a token that can neither start nor continue what is being read. -/
def unexpected (p : Parser) : Error :=
  .located p.current.position (.unexpectedToken p.current.text none)

/-- The error for a token that stands where something else has to. -/
def expected (p : Parser) (what : String) : Error :=
  .located p.current.position (.unexpectedToken p.current.text (some what))

/-- Takes the token ahead and reads the next one. If that fails, the token stays. -/
def advance [Alphabet] : EStateM Error Parser Token := fun p =>
  match p.cursor.next with
  | .ok t c => .ok p.current ⟨c, t⟩
  | .error e c => .error e ⟨c, p.current⟩

/-- Takes the token ahead if it is of the given kind. -/
def expect [Alphabet] (kind : TokenKind) : EStateM Error Parser Token := fun p =>
  if p.current.kind = kind then advance p else .error (p.expected kind.text) p

/-- Takes the first half of a `>>` and leaves the second ahead. Any other token stays. -/
def splitShift (p : Parser) : Parser :=
  if p.sees .shiftRight then
    { p with
      current :=
        ⟨.symbol .greater, ⟨p.current.position.line, p.current.position.column + 1⟩⟩ }
  else p

/-! ### Sizes -/

/-- A token ahead other than the end counts. -/
theorem length_lt_size {p : Parser} (h : p.current.kind ≠ .eof) :
    p.cursor.rest.length < p.size := by
  have := Lexeme.weight_pos h
  unfold size
  omega

theorem size_le_of_advance [Alphabet] {p q : Parser} {t : Token} (h : advance p = .ok t q) :
    q.size ≤ p.cursor.rest.length := by
  unfold advance at h
  split at h
  · rename_i hn
    cases h
    exact Cursor.weight_le_of_next hn
  · cases h

theorem size_le_of_advance_error [Alphabet] {p q : Parser} {e : Error} (h : advance p = .error e q) :
    q.size ≤ p.size := by
  unfold advance at h
  split at h
  · cases h
  · rename_i hn
    cases h
    have := Cursor.length_le_of_next_error hn
    simp only [size]
    omega

/-- Half of a `>>` is less than all of it. -/
theorem size_splitShift_lt {p : Parser} (h : p.sees .shiftRight = true) :
    p.splitShift.size < p.size := by
  have hk : p.current.lexeme = .symbol .shiftRight := by
    unfold sees Token.kind at h
    generalize p.current.lexeme = l at h ⊢
    cases l <;> simp_all [Lexeme.kind]
  simp [splitShift, h, size, hk, Lexeme.weight]

end Parser

/-!
## Outcomes of parsing

An outcome is a value with the parser after it, or an error with the parser where it arose. Its type
says whether something has been read for the value: then the parser after it is smaller, and otherwise
it is at least not larger. An error never leaves a larger parser. So a rule that reads something before
it calls itself again calls itself on a smaller parser, and parsing ends.
-/

/-- The parser `q` is what remains of `p` after something has been read, or perhaps nothing. -/
abbrev Remains (reads : Bool) (q p : Parser) : Prop :=
  match reads with
  | true => q.size < p.size
  | false => q.size ≤ p.size

namespace Remains

theorem relax {q p : Parser} : {reads : Bool} → Remains reads q p → Remains false q p
  | true, h => Nat.le_of_lt h
  | false, h => h

/-- What remains of what remains. Something has been read if it was on either way. -/
theorem trans {r q p : Parser} :
    {first second : Bool} → Remains first q p → Remains second r q → Remains (first || second) r p
  | true, true, h, k => Nat.lt_trans k h
  | true, false, h, k => Nat.lt_of_le_of_lt k h
  | false, true, h, k => Nat.lt_of_lt_of_le k h
  | false, false, h, k => Nat.le_trans k h

end Remains

/-- A value or an error, with what remains of `p`. -/
inductive Outcome (α : Type) (p : Parser) (reads : Bool) where
  | ok (value : α) (next : Parser) (remains : Remains reads next p)
  | error (e : Error) (stop : Parser) (remains : Remains false stop p)

namespace Outcome

variable {α β : Type} {p : Parser} {reads first second : Bool}

/-- A value for which nothing is read. -/
def done (a : α) (p : Parser) : Outcome α p false := .ok a p (Nat.le_refl _)

def fail (e : Error) (p : Parser) : Outcome α p reads := .error e p (Nat.le_refl _)

def map (f : α → β) : Outcome α p reads → Outcome β p reads
  | .ok a q h => .ok (f a) q h
  | .error e q h => .error e q h

def relax : Outcome α p reads → Outcome α p false
  | .ok a q h => .ok a q (Remains.relax h)
  | .error e q h => .error e q h

/-- Goes on with what remains after a value; an error stays. -/
def andThen (o : Outcome α p first)
    (k : (a : α) → (q : Parser) → Remains first q p → Outcome β q second) :
    Outcome β p (first || second) :=
  match o with
  | .ok a q h =>
    match k a q h with
    | .ok b r h' => .ok b r (Remains.trans h h')
    | .error e r h' => .error e r (Remains.trans (Remains.relax h) h')
  | .error e q h => .error e q h

/-- The outcome alone. -/
def result : Outcome α p reads → EStateM.Result Error Parser α
  | .ok a q _ => .ok a q
  | .error e q _ => .error e q

/-! ### Results -/

@[simp] theorem result_done (a : α) (p : Parser) : (done a p).result = .ok a p := rfl

@[simp] theorem result_fail (e : Error) (p : Parser) :
    (fail e p : Outcome α p reads).result = .error e p := rfl

@[simp] theorem result_relax (o : Outcome α p reads) : o.relax.result = o.result := by
  cases o <;> rfl

theorem result_map_eq_ok_iff {f : α → β} {o : Outcome α p reads} {b : β} {q : Parser} :
    (o.map f).result = .ok b q ↔ ∃ a, o.result = .ok a q ∧ f a = b := by
  cases o with
  | ok a q' h =>
    constructor
    · intro hr
      cases hr
      exact ⟨a, rfl, rfl⟩
    · rintro ⟨_, ha, rfl⟩
      cases ha
      rfl
  | error => exact ⟨fun hr => (nomatch hr), fun ⟨_, ha, _⟩ => (nomatch ha)⟩

theorem result_map_eq_error_iff {f : α → β} {o : Outcome α p reads} {e : Error} {q : Parser} :
    (o.map f).result = .error e q ↔ o.result = .error e q := by
  cases o <;> simp [map, result]

/-- What goes on yields a value exactly when both parts do. -/
theorem result_andThen_eq_ok_iff {o : Outcome α p first}
    {k : (a : α) → (q : Parser) → Remains first q p → Outcome β q second} {b : β} {r : Parser} :
    (o.andThen k).result = .ok b r ↔
      ∃ a q h, o.result = .ok a q ∧ (k a q h).result = .ok b r := by
  constructor
  · intro hr
    cases o with
    | ok a q h =>
      refine ⟨a, q, h, rfl, ?_⟩
      simp only [andThen] at hr
      split at hr
      · rename_i hk
        rw [hk]
        exact hr
      · cases hr
    | error => cases hr
  · rintro ⟨a, q, h, ho, hk⟩
    cases o with
    | ok =>
      cases ho
      simp only [andThen]
      split
      · rename_i hk'
        rw [hk'] at hk
        exact hk
      · rename_i hk'
        rw [hk'] at hk
        cases hk
    | error => cases ho

theorem result_andThen_eq_error_iff {o : Outcome α p first}
    {k : (a : α) → (q : Parser) → Remains first q p → Outcome β q second} {e : Error} {r : Parser} :
    (o.andThen k).result = .error e r ↔
      o.result = .error e r ∨
        ∃ a q h, o.result = .ok a q ∧ (k a q h).result = .error e r := by
  constructor
  · intro hr
    cases o with
    | ok a q h =>
      refine .inr ⟨a, q, h, rfl, ?_⟩
      simp only [andThen] at hr
      split at hr
      · cases hr
      · rename_i hk
        rw [hk]
        exact hr
    | error =>
      cases hr
      exact .inl rfl
  · rintro (ho | ⟨a, q, h, ho, hk⟩)
    · cases o with
      | ok => cases ho
      | error =>
        cases ho
        rfl
    · cases o with
      | ok =>
        cases ho
        simp only [andThen]
        split
        · rename_i hk'
          rw [hk'] at hk
          cases hk
        · rename_i hk'
          rw [hk'] at hk
          exact hk
      | error => cases ho

end Outcome

namespace Parser

open Outcome

/-- Takes the token ahead. The end is not taken. -/
def take [Alphabet] (p : Parser) : Outcome Token p true :=
  if h : p.current.kind = .eof then fail p.unexpected p
  else
    match ha : advance p with
    | .ok t q => .ok t q (Nat.lt_of_le_of_lt (size_le_of_advance ha) (length_lt_size h))
    | .error e q => .error e q (size_le_of_advance_error ha)

/-- Takes the token ahead if it is the symbol `s`. -/
def require [Alphabet] (s : Symbol) (p : Parser) : Outcome Token p true :=
  if p.sees s then p.take else fail (p.expected s.text) p

/-- Takes the token ahead if it is a name; `e` is the error if it is not. -/
def takeName [Alphabet] (e : Error) (p : Parser) : Outcome String p true :=
  match p.current.lexeme with
  | .name n => p.take.map fun _ => n
  | _ => fail e p

theorem result_take [Alphabet] {p : Parser} (h : p.current.kind ≠ .eof) : p.take.result = advance p := by
  unfold take
  rw [dif_neg h]
  split <;> simp_all [result]

end Parser

end ScriptEngine
