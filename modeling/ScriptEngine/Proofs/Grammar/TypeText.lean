import Mathlib.Logic.Function.Iterate
import ScriptEngine.Proofs.Grammar.Program
import ScriptEngine.Proofs.Token.Spelling
import ScriptEngine.Text.Unicode

/-!
# Types are read from their texts

The text of a type has no blanks but those after commas, so its lexemes stand next to each other, and of
the `>` that close nested argument lists two and two are read as one `>>`. Halves are taken apart again
where the type is read, so the text is read as the type that it was made from.
-/

namespace ScriptEngine

open Trivia ScriptEngine.Parser Grammar

/-! ## Names -/

mutual

/-- The names in a type, at any depth. -/
def Ty.names : Ty → List String
  | .basic n => [n]
  | .template n arguments => n :: Ty.namesList arguments

def Ty.namesList : List Ty → List String
  | [] => []
  | t :: rest => t.names ++ Ty.namesList rest

end

theorem Ty.mem_namesList {n : String} {ts : List Ty} : n ∈ Ty.namesList ts ↔ ∃ t ∈ ts, n ∈ t.names := by
  induction ts with
  | nil => simp [Ty.namesList]
  | cons t ts ih => simp [Ty.namesList, ih]

/-- Each pair of brackets after a type makes a list of it. -/
theorem isType_brackets {ks : List Lexeme} {t : Ty} (h : IsType ks t) (k : Nat) :
    IsType (ks ++ (List.replicate k [.symbol .openBracket, .symbol .closeBracket]).flatten) (Ty.list^[k] t) := by
  induction k with
  | zero => simpa using h
  | succ k ih =>
      rw [List.replicate_succ', List.flatten_concat, ← List.append_assoc, Function.iterate_succ_apply']
      exact .list ih

section

variable [Alphabet]

/-- All names in a type are spelled as names are: they are words, but no keywords and no constants. -/
def Ty.Named (t : Ty) : Prop := ∀ n ∈ t.names, Lexeme.Spelled (.name n) n.toList

/-- A type may end before `rest`. -/
def EndsType (rest : List Char) : Prop := ∀ c, rest.head? = some c → c ∈ [',', '>', '[']

theorem EndsType.next {rest : List Char} (h : EndsType rest) :
    ∀ c, rest.head? = some c → Scan.isWordChar c = false ∧ c ≠ '=' := by
  intro c hc
  have hmem := h c hc
  fin_cases hmem <;> exact ⟨Scan.isWordChar_of_lt (by decide), by decide⟩

/-! ## Lexemes at the front -/

/-- A name ends before a character that cannot go on with it. -/
theorem Lexeme.Spelled.front_name {n : String} {cs rest : List Char} (h : Lexeme.Spelled (.name n) cs)
    (hrest : ∀ c, rest.head? = some c → Scan.isWordChar c = false) :
    Bare (cs ++ rest) ∧ Scan.front (cs ++ rest) = .lexeme (.name n) cs.length := by
  cases h with
  | @name c cs hc hcs hkeyword hconstant =>
      have hword : ∀ d ∈ c :: cs, Scan.isWordChar d = true := by
        simpa [Scan.isWordChar, hc, or_assoc] using hcs
      have hspace := (head_of_isWordChar (s := cs) (hword c List.mem_cons_self)).1
      have hslash : c ≠ '/' := Alphabet.ne_of_isAlphabetic hc (by decide) rfl
      refine ⟨bare_cons_iff.mpr ⟨hspace, fun d _ => fun h => hslash h.1⟩, ?_⟩
      -- before a blank it is read as it is spelled, and only the word counts
      have hblank := (Spelled.name hc hcs hkeyword hconstant).front [] (b := ' ') rfl
      rw [Scan.front_word [] hc (fun d hd => hword d (List.mem_cons_of_mem c hd)) rfl] at hblank
      have hrun : (c :: cs ++ rest).takeWhile Scan.isWordChar = c :: cs := by
        cases rest with
        | nil => rw [List.append_nil, List.takeWhile_eq_self_iff]; exact hword
        | cons d rest => exact takeWhile_append_stop rest hword (hrest d rfl)
      rw [← hblank]
      simp only [List.cons_append] at hrun ⊢
      simp only [Scan.front, hc, if_true, hrun]

theorem Lexeme.Spelled.head_name {n : String} {cs : List Char} (h : Lexeme.Spelled (.name n) cs) :
    ∃ c, cs.head? = some c ∧ Alphabet.isAlphabetic c = true := by
  cases h with
  | @name c _ hc => exact ⟨c, rfl, hc⟩

/-- A `<` or `>` is read by itself if the next character makes no longer symbol with it. -/
theorem front_angle {s : Symbol} {d : Char} (hs : s = .less ∧ d = '<' ∨ s = .greater ∧ d = '>')
    {rest : List Char} (hrest : ∀ c, rest.head? = some c → c ≠ '=' ∧ c ≠ d) :
    Bare (d :: rest) ∧ Scan.front (d :: rest) = .lexeme (.symbol s) 1 := by
  cases rest with
  | nil =>
      rcases hs with ⟨rfl, rfl⟩ | ⟨rfl, rfl⟩ <;>
        exact ⟨⟨rfl, rfl⟩, Scan.front_punctuation (by decide) (by decide) rfl⟩
  | cons c rest =>
      obtain ⟨hassign, hsame⟩ := hrest c rfl
      have hleading : Symbol.leading? (d :: c :: rest) = some s := by
        rcases hs with ⟨rfl, rfl⟩ | ⟨rfl, rfl⟩ <;>
          simp [Symbol.leading?, Symbol.punctuation, Symbol.chars, hassign.symm, hsame.symm]
      rcases hs with ⟨rfl, rfl⟩ | ⟨rfl, rfl⟩
      · exact ⟨⟨rfl, rfl⟩, Scan.front_punctuation (by decide) (by decide) hleading⟩
      · exact ⟨⟨rfl, rfl⟩, Scan.front_punctuation (by decide) (by decide) hleading⟩

/-! ## Lexemes without separators -/

/-- A text that consists of the given lexemes, where a `>` counts by itself also if another one follows. -/
inductive Prints : List Lexeme → List Char → Prop where
  | nil : Prints [] []
  | blank {ks : List Lexeme} {cs : List Char} : Prints ks cs → Prints ks (' ' :: cs)
  | greater {ks : List Lexeme} {cs : List Char} : cs.head? ≠ some '=' → Prints ks cs →
      Prints (.symbol .greater :: ks) ('>' :: cs)
  | lexeme {l rest : List Char} {x : Lexeme} {ks : List Lexeme} : Bare (l ++ rest) →
      Scan.front (l ++ rest) = .lexeme x l.length → x ≠ .eof → l.head? ≠ some '>' → Prints ks rest →
      Prints (x :: ks) (l ++ rest)

theorem Lexes.bare {l rest : List Char} {x : Lexeme} {xs : List Lexeme} (hbare : Bare (l ++ rest))
    (hx : Scan.front (l ++ rest) = .lexeme x l.length) (hne : x ≠ .eof) (h : Lexes rest xs) :
    Lexes (l ++ rest) (x :: xs) := .lexeme .nil hbare hx hne h

namespace Prints

variable {ks : List Lexeme} {cs : List Char}

theorem name {n : String} {rest : List Char} (hn : Lexeme.Spelled (.name n) cs)
    (hrest : ∀ c, rest.head? = some c → Scan.isWordChar c = false) (h : Prints ks rest) :
    Prints (.name n :: ks) (cs ++ rest) := by
  obtain ⟨hbare, hfront⟩ := hn.front_name hrest
  obtain ⟨c, hc, halpha⟩ := hn.head_name
  refine .lexeme hbare hfront nofun ?_ h
  rw [hc]
  exact fun h => Alphabet.ne_of_isAlphabetic halpha (by decide) rfl (Option.some.inj h)

/-- A name and the `<` before its arguments. -/
theorem opening {n : String} (hn : Lexeme.Spelled (.name n) n.toList)
    (hcs : ∀ c, cs.head? = some c → c ≠ '=' ∧ c ≠ '<') (h : Prints ks cs) :
    Prints (.name n :: .symbol .less :: ks) (n.toList ++ '<' :: cs) := by
  obtain ⟨hbare, hfront⟩ := front_angle (.inl ⟨rfl, rfl⟩) hcs
  refine .name hn ?_ (.lexeme (l := ['<']) hbare hfront nofun (by decide) h)
  rintro c ⟨⟩
  exact Scan.isWordChar_of_lt (by decide)

theorem comma (h : Prints ks cs) : Prints (.symbol .comma :: ks) (',' :: ' ' :: cs) :=
  .lexeme (l := [',']) ⟨rfl, rfl⟩ (Scan.front_punctuation (by decide) (by decide) rfl) nofun (by decide) h.blank

theorem brackets (h : Prints ks cs) :
    Prints (.symbol .openBracket :: .symbol .closeBracket :: ks) ('[' :: ']' :: cs) :=
  .lexeme (l := ['[']) ⟨rfl, rfl⟩ (Scan.front_punctuation (by decide) (by decide) rfl) nofun (by decide)
    (.lexeme (l := [']']) ⟨rfl, rfl⟩ (Scan.front_punctuation (by decide) (by decide) rfl) nofun (by decide) h)

/-- The text falls into lexemes that can be taken for the given ones. What starts with a `>` does so also
without it, since that may be the second half of a `>>`. -/
theorem lexes_and_half (h : Prints ks cs) :
    (∃ xs, Lexes cs xs ∧ Reading xs ks) ∧
    ∀ {rest}, cs = '>' :: rest → ∃ ms xs, ks = .symbol .greater :: ms ∧ Lexes rest xs ∧ Reading xs ms := by
  induction h with
  | nil => exact ⟨⟨[], .eof .nil, .nil⟩, nofun⟩
  | blank _ ih =>
      obtain ⟨⟨xs, hxs, hreading⟩, _⟩ := ih
      exact ⟨⟨xs, .gap (.cons (.space (.inl rfl)) .nil) hxs, hreading⟩, nofun⟩
  | @greater ks cs hcs _ ih =>
      obtain ⟨⟨xs, hxs, hreading⟩, hhalf⟩ := ih
      constructor
      · by_cases hnext : cs.head? = some '>'
        · obtain ⟨rest, rfl⟩ := List.head?_eq_some_iff.mp hnext
          obtain ⟨ms, xs, rfl, hxs, hreading⟩ := hhalf rfl
          refine ⟨.symbol .shiftRight :: xs, ?_, .halves hreading⟩
          exact .bare (l := ['>', '>']) ⟨rfl, rfl⟩ (Scan.front_punctuation (by decide) (by decide) rfl) nofun hxs
        · refine ⟨.symbol .greater :: xs, ?_, .same _ hreading⟩
          have hcs' : ∀ c, cs.head? = some c → c ≠ '=' ∧ c ≠ '>' := fun c hc =>
            ⟨fun h => hcs (h ▸ hc), fun h => hnext (h ▸ hc)⟩
          obtain ⟨hbare, hfront⟩ := front_angle (.inr ⟨rfl, rfl⟩) hcs'
          exact .bare (l := ['>']) hbare hfront nofun hxs
      · rintro _ ⟨⟩
        exact ⟨ks, xs, rfl, hxs, hreading⟩
  | @lexeme l rest x ks hbare hx hne hl _ ih =>
      obtain ⟨⟨xs, hxs, hreading⟩, _⟩ := ih
      refine ⟨⟨x :: xs, .bare hbare hx hne hxs, .same x hreading⟩, fun {r} hr => ?_⟩
      obtain ⟨c, l, rfl⟩ := List.exists_cons_of_ne_nil (Scan.ne_nil_of_front hx hne)
      cases hr
      exact absurd rfl hl

end Prints

/-! ## The text of a type -/

namespace Ty

theorem Named.head_text {t : Ty} (ht : t.Named) (rest : List Char) :
    ∃ c, (t.text.toList ++ rest).head? = some c ∧ Alphabet.isAlphabetic c = true := by
  cases t with
  | basic n =>
      obtain ⟨c, hc, halpha⟩ := (ht n (by simp [names])).head_name
      exact ⟨c, by simp [text, hc], halpha⟩
  | template n ts =>
      obtain ⟨c, hc, halpha⟩ := (ht n (by simp [names])).head_name
      exact ⟨c, by simp [text, hc], halpha⟩

theorem Named.template {n : String} {ts : List Ty} (h : (template n ts).Named) :
    Lexeme.Spelled (.name n) n.toList ∧ ∀ t ∈ ts, t.Named := by
  refine ⟨h n (by simp [names]), fun t ht m hm => h m ?_⟩
  rw [names]
  exact List.mem_cons_of_mem n (mem_namesList.mpr ⟨t, ht, hm⟩)

theorem head_textList {t : Ty} (ht : t.Named) (ts : List Ty) (rest : List Char) :
    ∃ c, ((textList (t :: ts)).toList ++ rest).head? = some c ∧ Alphabet.isAlphabetic c = true := by
  cases ts with
  | nil => exact ht.head_text rest
  | cons u us => simpa [textList] using ht.head_text (", ".toList ++ ((textList (u :: us)).toList ++ rest))

mutual

/-- A type has lexemes of which its text consists, whatever follows it there. -/
theorem prints : (t : Ty) → t.Named → ∃ ks, IsType ks t ∧
    ∀ {ms rest}, EndsType rest → Prints ms rest → Prints (ks ++ ms) (t.text.toList ++ rest)
  | .basic n, ht => by
      refine ⟨[.name n], .plain n, fun hrest hms => ?_⟩
      exact .name (ht n (by simp [names])) (fun c hc => (hrest.next c hc).1) hms
  | .template n [], ht => by
      refine ⟨[.name n, .symbol .less, .symbol .greater], .empty n, fun {ms rest} hrest hms => ?_⟩
      have htext : (text (.template n [])).toList ++ rest = n.toList ++ '<' :: '>' :: rest := by
        simp [text, textList]
      rw [htext]
      exact .opening ht.template.1 (by simp) (.greater (fun h => (hrest.next _ h).2 rfl) hms)
  | .template n (t :: ts), ht => by
      obtain ⟨hn, hts⟩ := ht.template
      obtain ⟨ks, hks, hprints⟩ := printsList (t :: ts) nofun hts
      refine ⟨.name n :: .symbol .less :: (ks ++ [.symbol .greater]), .applied n hks,
        fun {ms rest} hrest hms => ?_⟩
      have htext : (text (.template n (t :: ts))).toList ++ rest =
          n.toList ++ '<' :: ((textList (t :: ts)).toList ++ '>' :: rest) := by
        simp [text]
      rw [htext, List.cons_append, List.cons_append, List.append_assoc]
      refine .opening hn (fun c hc => ?_)
        (hprints (by simp [EndsType]) (.greater (fun h => (hrest.next _ h).2 rfl) hms))
      obtain ⟨d, hd, halpha⟩ := head_textList (hts t List.mem_cons_self) ts ('>' :: rest)
      cases hd.symm.trans hc
      exact ⟨Alphabet.ne_of_isAlphabetic halpha (by decide) rfl, Alphabet.ne_of_isAlphabetic halpha (by decide) rfl⟩

theorem printsList : (ts : List Ty) → ts ≠ [] → (∀ t ∈ ts, t.Named) → ∃ ks, IsTypes ks ts ∧
    ∀ {ms rest}, EndsType rest → Prints ms rest → Prints (ks ++ ms) ((textList ts).toList ++ rest)
  | [], hne, _ => absurd rfl hne
  | [t], _, hts => by
      obtain ⟨ks, hks, hprints⟩ := prints t (hts t List.mem_cons_self)
      exact ⟨ks, .last hks, hprints⟩
  | t :: u :: us, _, hts => by
      obtain ⟨ks, hks, hprints⟩ := prints t (hts t List.mem_cons_self)
      obtain ⟨ks', hks', hprints'⟩ := printsList (u :: us) nofun fun v hv => hts v (List.mem_cons_of_mem t hv)
      refine ⟨ks ++ .symbol .comma :: ks', .more hks hks', fun {ms rest} hrest hms => ?_⟩
      have htext : (textList (t :: u :: us)).toList ++ rest =
          t.text.toList ++ (',' :: ' ' :: ((textList (u :: us)).toList ++ rest)) := by
        simp [textList]
      rw [htext, List.append_assoc, List.cons_append]
      exact hprints (by simp [EndsType]) (.comma (hprints' hrest hms))

end

end Ty

/-! ## Reading it back -/

theorem prints_brackets (k : Nat) :
    Prints (List.replicate k [.symbol .openBracket, .symbol .closeBracket]).flatten
      (String.join (List.replicate k "[]")).toList ∧
    EndsType (String.join (List.replicate k "[]")).toList := by
  induction k with
  | zero => exact ⟨.nil, nofun⟩
  | succ k ih =>
      rw [String.toList_join] at ih ⊢
      exact ⟨.brackets ih.1, by simp [EndsType, List.replicate_succ]⟩

theorem readType_text {t : Ty} (ht : t.Named) (k : Nat) :
    ∃ p q : Parser, ofText (t.text ++ String.join (List.replicate k "[]")) = .ok p ∧
      readType .default p = .ok (Ty.list^[k] t) q ∧ q.current.lexeme = .eof := by
  obtain ⟨ks, hks, hprints⟩ := t.prints ht
  obtain ⟨hbrackets, hends⟩ := prints_brackets k
  obtain ⟨⟨xs, hxs, hreading⟩, _⟩ := (hprints hends hbrackets).lexes_and_half
  rw [← String.toList_append] at hxs
  obtain ⟨p, q, hnext, hreads, heof⟩ := exists_reads hxs
  have hsees : ∀ s, q.sees s = false := fun s => by simp [sees, Token.kind, heof, Lexeme.kind]
  refine ⟨p, q, ?_, ?_, heof⟩
  · rw [ofText, hnext]
  · rw [readType, type_of_isType (isType_brackets hks k) (readsParts_of_reads hreads hreading) (hsees _),
      listSuffixes, if_neg (by simp [hsees])]
    rfl

/-- A type whose names are names is read back from its text, also if pairs of brackets follow, which make lists
of it, and nothing is left. So types of the same text are the same. -/
theorem types_read_from_text :
    (∀ (t : Ty) (k : Nat), t.Named →
      ∃ p q : Parser, ofText (t.text ++ String.join (List.replicate k "[]")) = .ok p ∧
        readType .default p = .ok (Ty.list^[k] t) q ∧ q.current.lexeme = .eof) ∧
    ∀ t u : Ty, t.Named → u.Named → t.text = u.text → t = u := by
  refine ⟨fun t k ht => readType_text ht k, fun t u ht hu htext => ?_⟩
  obtain ⟨p, q, hp, ht, _⟩ := readType_text ht 0
  obtain ⟨p', q', hp', hu, _⟩ := readType_text hu 0
  rw [htext] at hp
  cases hp.symm.trans hp'
  cases ht.symm.trans hu
  rfl

end

open scoped Unicode16

/-- In `pair<box<box<>>, box<box<x>>>[]` a `>>` closes two lists, and of three `>` the first two do. -/
theorem nested_boxes_read :
    (∃ p q : Parser, ofText "pair<box<box<>>, box<box<x>>>[]" = .ok p ∧
      readType .default p = .ok (.list (.template "pair" [.template "box" [.template "box" []],
        .template "box" [.template "box" [.basic "x"]]])) q ∧ q.current.lexeme = .eof) ∧
    (Ty.template "box" []).text ≠ (Ty.basic "box").text := by
  have hpair : Lexeme.Spelled (.name "pair") ['p', 'a', 'i', 'r'] :=
    .name rfl (fun d hd => .inl (List.all_eq_true.mp rfl d hd)) (by decide) (by decide)
  have hbox : Lexeme.Spelled (.name "box") ['b', 'o', 'x'] :=
    .name rfl (fun d hd => .inl (List.all_eq_true.mp rfl d hd)) (by decide) (by decide)
  have hx : Lexeme.Spelled (.name "x") ['x'] := .name rfl nofun (by decide) (by decide)
  obtain ⟨hread, hinj⟩ := types_read_from_text
  constructor
  · refine hread (.template "pair" [.template "box" [.template "box" []],
      .template "box" [.template "box" [.basic "x"]]]) 1 ?_
    simpa [Ty.Named, Ty.names, Ty.namesList] using ⟨hpair, hbox, hx⟩
  · intro htext
    cases hinj _ _ (by simpa [Ty.Named, Ty.names, Ty.namesList] using hbox)
      (by simpa [Ty.Named, Ty.names] using hbox) htext

end ScriptEngine
