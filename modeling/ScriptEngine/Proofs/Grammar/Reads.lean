import ScriptEngine.Parser.Rules

/-!
# Reading lexemes

What a parser does to its text, without the trees: it takes one lexeme after the other. In a type it may
also take a `>>` in two halves. Every step of every rule is one of these two.
-/

namespace ScriptEngine

namespace Outcome

variable {α β : Type} {p q : Parser} {reads first second : Bool} {a : α}

theorem remains_of_result {o : Outcome α p reads} (h : o.result = .ok a q) : Remains reads q p := by
  cases o with
  | ok _ _ hr =>
      cases h
      exact hr
  | error => cases h

theorem size_le_of_result {o : Outcome α p reads} (h : o.result = .ok a q) : q.size ≤ p.size :=
  Remains.relax (remains_of_result h)

theorem size_le_of_error {o : Outcome α p reads} {e : Error} (h : o.result = .error e q) :
    q.size ≤ p.size := by
  cases o <;> cases h
  assumption

theorem result_andThen {o : Outcome α p first}
    {k : (a : α) → (q : Parser) → Remains first q p → Outcome β q second}
    (h : o.result = .ok a q) : (o.andThen k).result = (k a q (remains_of_result h)).result := by
  cases o with
  | ok =>
      cases h
      simp only [andThen]
      split <;> simp_all [result]
  | error => cases h

theorem result_map {o : Outcome α p reads} (f : α → β) (h : o.result = .ok a q) :
    (o.map f).result = .ok (f a) q :=
  result_map_eq_ok_iff.mpr ⟨a, h, rfl⟩

end Outcome

namespace Parser

open Outcome

variable {p q r : Parser} {s : Symbol} {l : Lexeme} {ls ms : List Lexeme}

theorem sees_iff : p.sees s = true ↔ p.current.lexeme = .symbol s := by
  unfold sees Token.kind
  cases p.current.lexeme <;> simp [Lexeme.kind]

theorem sees_of_lexeme_ne {s' : Symbol} (h : p.current.lexeme = .symbol s') (hs : s' ≠ s) :
    p.sees s = false := by
  simp [sees, Token.kind, h, Lexeme.kind, hs]

/-- The parser `p` can read the lexeme `l`, and then is `q`. -/
structure Takes [Alphabet] (p : Parser) (l : Lexeme) (q : Parser) : Prop where
  lexeme : p.current.lexeme = l
  step : ∃ t, p.take.result = .ok t q

/-- The same, where the lexeme may be half of a `>>`. -/
inductive TakesPart [Alphabet] : (p : Parser) → (l : Lexeme) → (q : Parser) → Prop where
  | whole {p q : Parser} {l : Lexeme} : Takes p l q → TakesPart p l q
  | half {p : Parser} : p.sees .shiftRight = true → TakesPart p (.symbol .greater) p.splitShift

/-- Lexemes that are read one after the other. -/
inductive Path (step : Parser → Lexeme → Parser → Prop) : Parser → List Lexeme → Parser → Prop where
  | nil {p : Parser} : Path step p [] p
  | cons {p q r : Parser} {l : Lexeme} {ls : List Lexeme} : step p l q → Path step q ls r →
      Path step p (l :: ls) r

abbrev Reads [Alphabet] := Path Takes

abbrev ReadsParts [Alphabet] := Path TakesPart

section Path

variable {step : Parser → Lexeme → Parser → Prop}

theorem path_nil_iff : Path step p [] q ↔ p = q := by
  constructor
  · intro h
    cases h
    rfl
  · rintro rfl
    exact .nil

theorem path_cons_iff : Path step p (l :: ls) r ↔ ∃ q, step p l q ∧ Path step q ls r := by
  constructor
  · intro h
    cases h with
    | cons ht hr => exact ⟨_, ht, hr⟩
  · rintro ⟨q, ht, hr⟩
    exact .cons ht hr

theorem path_append_iff :
    Path step p (ls ++ ms) r ↔ ∃ q, Path step p ls q ∧ Path step q ms r := by
  induction ls generalizing p with
  | nil => simp [path_nil_iff]
  | cons l ls ih =>
      simp only [List.cons_append, path_cons_iff, ih]
      constructor
      · rintro ⟨m, ht, q, hl, hr⟩
        exact ⟨q, ⟨m, ht, hl⟩, hr⟩
      · rintro ⟨q, ⟨m, ht, hl⟩, hr⟩
        exact ⟨m, ht, q, hl, hr⟩

theorem Path.append (hl : Path step p ls q) (hr : Path step q ms r) : Path step p (ls ++ ms) r :=
  path_append_iff.mpr ⟨q, hl, hr⟩

theorem Path.single (h : step p l q) : Path step p [l] q := .cons h .nil

end Path

/-! ## Steps of the rules are readings -/

variable [Alphabet]

theorem takes_of_take {t : Token} (hl : p.current.lexeme = l) (h : p.take.result = .ok t q) :
    Takes p l q := ⟨hl, t, h⟩

theorem takes_of_require {t : Token} (h : (p.require s).result = .ok t q) : Takes p (.symbol s) q := by
  unfold require at h
  split at h
  · rename_i hs
    exact takes_of_take (sees_iff.mp hs) h
  · cases h

theorem takes_of_takeName {e : Error} {n : String} (h : (p.takeName e).result = .ok n q) :
    Takes p (.name n) q := by
  unfold takeName at h
  split at h
  · rename_i m hm
    obtain ⟨t, ht, rfl⟩ := result_map_eq_ok_iff.mp h
    exact takes_of_take hm ht
  · cases h

theorem takesPart_of_closeArguments {u : Unit} (h : p.closeArguments.result = .ok u q) :
    TakesPart p (.symbol .greater) q := by
  unfold closeArguments at h
  split at h
  · rename_i hs
    cases h
    exact .half hs
  · obtain ⟨t, ht, _⟩ := result_map_eq_ok_iff.mp h
    exact .whole (takes_of_require ht)

/-! ## Readings are steps of the rules -/

theorem Takes.sees (h : Takes p (.symbol s) q) : p.sees s = true := sees_iff.mpr h.lexeme

theorem Takes.not_sees (h : Takes p l q) (hl : l ≠ .symbol s) : p.sees s = false := by
  rw [Bool.eq_false_iff, ne_eq, sees_iff, h.lexeme]
  exact hl

theorem Takes.require (h : Takes p (.symbol s) q) : ∃ t, (p.require s).result = .ok t q := by
  unfold Parser.require
  rw [if_pos h.sees]
  exact h.step

theorem Takes.takeName {n : String} (h : Takes p (.name n) q) (e : Error) :
    (p.takeName e).result = .ok n q := by
  obtain ⟨hl, t, ht⟩ := h
  unfold Parser.takeName
  rw [hl]
  exact result_map _ ht

theorem take_eq_ok_iff {t : Token} :
    p.take.result = .ok t q ↔
      p.current.kind ≠ .eof ∧ t = p.current ∧ p.cursor.next = .ok q.current q.cursor := by
  by_cases hp : p.current.kind = .eof
  · simp [take, hp]
  · rw [result_take hp]
    unfold advance
    cases hn : p.cursor.next with
    | ok u d =>
        simp only [EStateM.Result.ok.injEq, hp, ne_eq, not_false_eq_true, true_and]
        constructor
        · rintro ⟨rfl, rfl⟩
          exact ⟨rfl, rfl, rfl⟩
        · rintro ⟨rfl, rfl, rfl⟩
          exact ⟨rfl, rfl⟩
    | error e d => simp

theorem takes_iff : Takes p l q ↔
    p.current.lexeme = l ∧ l ≠ .eof ∧ p.cursor.next = .ok q.current q.cursor := by
  constructor
  · rintro ⟨rfl, t, ht⟩
    obtain ⟨hp, _, hn⟩ := take_eq_ok_iff.mp ht
    exact ⟨rfl, fun h => hp (by rw [Token.kind, h]; rfl), hn⟩
  · rintro ⟨rfl, hp, hn⟩
    refine ⟨rfl, _, take_eq_ok_iff.mpr ⟨fun h => hp ?_, rfl, hn⟩⟩
    exact Lexeme.eq_eof_of_kind h

/-! ## Halves -/

theorem TakesPart.takes (h : TakesPart p l q) (hl : l ≠ .symbol .greater) : Takes p l q := by
  cases h with
  | whole ht => exact ht
  | half => exact absurd rfl hl

/-- The lexeme that is read tells what is ahead. Only of a `>>` it does not, as that is read as `>`. -/
theorem TakesPart.not_sees (h : TakesPart p l q) (hl : l ≠ .symbol s) (hs : s ≠ .shiftRight) :
    p.sees s = false := by
  cases h with
  | whole ht => exact ht.not_sees hl
  | half hshift => exact sees_of_lexeme_ne (sees_iff.mp hshift) hs.symm

theorem TakesPart.closeArguments (h : TakesPart p (.symbol .greater) q) :
    p.closesArguments = true ∧ p.closeArguments.result = .ok () q := by
  generalize hg : Lexeme.symbol .greater = g at h
  cases h with
  | half hs => simp [Parser.closesArguments, Parser.closeArguments, hs, result]
  | whole ht =>
      cases hg
      obtain ⟨_, hr⟩ := ht.require
      have hn := ht.not_sees (s := .shiftRight) (by simp)
      simp [Parser.closesArguments, Parser.closeArguments, ht.sees, hn, result_map _ hr]

/-- The half that is left ahead is read in place of the whole. -/
theorem takes_splitShift_iff (hs : p.sees .shiftRight = true) :
    Takes p.splitShift l q ↔ l = .symbol .greater ∧ Takes p (.symbol .shiftRight) q := by
  simp only [takes_iff, splitShift, hs, if_true]
  constructor
  · rintro ⟨rfl, _, hn⟩
    exact ⟨rfl, sees_iff.mp hs, by simp, hn⟩
  · rintro ⟨rfl, _, _, hn⟩
    exact ⟨rfl, by simp, hn⟩

end Parser

end ScriptEngine
