import ScriptEngine.Proofs.Grammar.Reads
import ScriptEngine.Proofs.Grammar.Rules

/-!
# Types are read by the grammar

What is read as a type derives it, and a derivation of a type is read as the type unless what comes after
could go on with it.
-/

namespace ScriptEngine.Grammar

open ScriptEngine.Parser ScriptEngine.Outcome

theorem IsType.head {ls : List Lexeme} {t : Ty} (h : IsType ls t) : ∃ n ms, ls = .name n :: ms :=
  match h with
  | .plain n => ⟨n, _, rfl⟩
  | .empty n => ⟨n, _, rfl⟩
  | .applied n _ => ⟨n, _, rfl⟩
  | .list ht => by
      obtain ⟨n, ms, rfl⟩ := ht.head
      exact ⟨n, _, rfl⟩

theorem IsTypes.head {ls : List Lexeme} {ts : List Ty} (h : IsTypes ls ts) :
    ∃ n ms, ls = .name n :: ms := by
  cases h with
  | last ht => exact ht.head
  | more ht _ =>
      obtain ⟨n, ms, rfl⟩ := ht.head
      exact ⟨n, _, rfl⟩

variable [Alphabet]

/-! ## What is read -/

/-- Brackets that are read after a type make one type with it. -/
theorem isType_of_listSuffixes {p q : Parser} {ls : List Lexeme} {t u : Ty} (ht : IsType ls t)
    (h : (listSuffixes t p).result = .ok u q) : ∃ ms, ReadsParts p ms q ∧ IsType (ls ++ ms) u := by
  rw [listSuffixes] at h
  split at h
  · rw [result_relax] at h
    obtain ⟨_, p₁, hp₁, hopen, h⟩ := result_andThen_eq_ok_iff.mp h
    obtain ⟨_, p₂, hp₂, hclose, h⟩ := result_andThen_eq_ok_iff.mp h
    obtain ⟨ms, hms, hu⟩ := isType_of_listSuffixes ht.list h
    have ho := takes_of_require hopen
    have hc := takes_of_require hclose
    refine ⟨_, .cons (.whole ho) (.cons (.whole hc) hms), ?_⟩
    simpa using hu
  · cases h
    exact ⟨[], .nil, by simpa using ht⟩
termination_by p.size

mutual

theorem isType_of_type {p q : Parser} {t : Ty} (h : (p.type .default).result = .ok t q) :
    ∃ ls, ReadsParts p ls q ∧ IsType ls t := by
  rw [Parser.type] at h
  obtain ⟨u, m, _, hname, h⟩ := result_andThen_eq_ok_iff.mp h
  rw [if_pos (by decide)] at h
  obtain ⟨ls, hls, hu⟩ := isType_of_typeName hname
  obtain ⟨ms, hms, ht⟩ := isType_of_listSuffixes hu h
  exact ⟨_, hls.append hms, ht⟩
termination_by 2 * p.size + 1

theorem isType_of_typeName {p q : Parser} {t : Ty} (h : p.typeName.result = .ok t q) :
    ∃ ls, ReadsParts p ls q ∧ IsType ls t := by
  rw [typeName] at h
  obtain ⟨n, p₁, hp₁, hname, h⟩ := result_andThen_eq_ok_iff.mp h
  have hn := TakesPart.whole (takes_of_takeName hname)
  split at h
  · rw [result_relax] at h
    obtain ⟨_, p₂, hp₂, hless, h⟩ := result_andThen_eq_ok_iff.mp h
    have hl := TakesPart.whole (takes_of_require hless)
    split at h
    · obtain ⟨_, hclose, rfl⟩ := result_map_eq_ok_iff.mp h
      exact ⟨_, .cons hn (.cons hl (.single (takesPart_of_closeArguments hclose))), .empty n⟩
    · obtain ⟨ts, p₃, _, harguments, h⟩ := result_andThen_eq_ok_iff.mp h
      obtain ⟨_, hclose, rfl⟩ := result_map_eq_ok_iff.mp h
      obtain ⟨ls, hls, hts⟩ := isTypes_of_typeArguments harguments
      have hg := takesPart_of_closeArguments hclose
      exact ⟨_, .cons hn (.cons hl (hls.append (.single hg))), .applied n hts⟩
  · cases h
    exact ⟨_, Path.single hn, .plain n⟩
termination_by 2 * p.size

theorem isTypes_of_typeArguments {p q : Parser} {ts : List Ty} (h : p.typeArguments.result = .ok ts q) :
    ∃ ls, ReadsParts p ls q ∧ IsTypes ls ts := by
  rw [typeArguments] at h
  obtain ⟨t, p₁, hp₁, hfirst, h⟩ := result_andThen_eq_ok_iff.mp h
  obtain ⟨ls, hls, ht⟩ := isType_of_type hfirst
  split at h
  · rw [result_relax] at h
    obtain ⟨_, p₂, hp₂, hcomma, h⟩ := result_andThen_eq_ok_iff.mp h
    obtain ⟨us, hrest, rfl⟩ := result_map_eq_ok_iff.mp h
    obtain ⟨ms, hms, hus⟩ := isTypes_of_typeArguments hrest
    exact ⟨_, hls.append (.cons (.whole (takes_of_require hcomma)) hms), .more ht hus⟩
  · cases h
    exact ⟨_, hls, .last ht⟩
termination_by 2 * p.size + 2

end

/-- A type that is read to its end is read in whole lexemes: no half of one is left ahead. -/
theorem reads_of_readsParts {p q : Parser} {ks : List Lexeme} (h : ReadsParts p ks q)
    (hq : q.sees .greater = false) : ∃ ls, Reads p ls q ∧ Reading ls ks := by
  induction h with
  | nil => exact ⟨[], .nil, .nil⟩
  | @cons p m q l ks ht _ ih =>
      obtain ⟨ls, hls, hreading⟩ := ih hq
      cases ht with
      | whole ht => exact ⟨l :: ls, .cons ht hls, .same l hreading⟩
      | half hs =>
          cases hls with
          | nil =>
              have hahead : p.splitShift.sees .greater = true := sees_iff.mpr (by simp [splitShift, hs])
              rw [hahead] at hq
              cases hq
          | cons hsecond hls =>
              obtain ⟨rfl, hshift⟩ := (takes_splitShift_iff hs).mp hsecond
              cases hreading with
              | same _ hreading => exact ⟨_, .cons hshift hls, .halves hreading⟩

theorem readsParts_of_reads {p q : Parser} {ls ks : List Lexeme} (h : Reads p ls q)
    (hreading : Reading ls ks) : ReadsParts p ks q := by
  induction hreading generalizing p with
  | nil =>
      cases path_nil_iff.mp h
      exact .nil
  | same l _ ih =>
      obtain ⟨m, ht, hls⟩ := path_cons_iff.mp h
      exact .cons (.whole ht) (ih hls)
  | halves _ ih =>
      obtain ⟨m, ht, hls⟩ := path_cons_iff.mp h
      have hsecond := (takes_splitShift_iff ht.sees).mpr ⟨rfl, ht⟩
      exact .cons (.half ht.sees) (.cons (.whole hsecond) (ih hls))

/-! ## What is derived -/

theorem type_of_typeName {p q : Parser} {t : Ty} (h : p.typeName.result = .ok t q) :
    (p.type .default).result = (listSuffixes t q).result := by
  rw [Parser.type, result_andThen h, if_pos (by decide)]

mutual

/-- The lexemes of a type are read as the type, to which brackets that follow are added. -/
theorem type_of_isType {p m : Parser} {ls : List Lexeme} {t : Ty} (ht : IsType ls t)
    (h : ReadsParts p ls m) (hless : m.sees .less = false) :
    (p.type .default).result = (listSuffixes t m).result :=
  match ht with
  | .plain n => by
      obtain ⟨m', hn, hm⟩ := path_cons_iff.mp h
      cases path_nil_iff.mp hm
      apply type_of_typeName
      rw [typeName, result_andThen ((hn.takes (by simp)).takeName _)]
      simp [hless]
  | .empty n => by
      simp only [path_cons_iff, path_nil_iff] at h
      obtain ⟨p₁, hn, p₂, hl, p₃, hg, rfl⟩ := h
      have hname := (hn.takes (by simp)).takeName p.unexpected
      have hless := hl.takes (by simp)
      obtain ⟨_, hr⟩ := hless.require
      obtain ⟨hcloses, hclose⟩ := hg.closeArguments
      apply type_of_typeName
      rw [typeName, result_andThen hname, if_pos hless.sees, result_relax, result_andThen hr, if_pos hcloses]
      exact result_map _ hclose
  | .applied n hts => by
      simp only [path_cons_iff, path_append_iff, path_nil_iff] at h
      obtain ⟨p₁, hn, p₂, hl, p₃, harguments, p₄, hg, rfl⟩ := h
      have hname := (hn.takes (by simp)).takeName p.unexpected
      have hless := hl.takes (by simp)
      obtain ⟨_, hr⟩ := hless.require
      obtain ⟨_, hclose⟩ := hg.closeArguments
      have hread := typeArguments_of_isTypes hts harguments (hg.not_sees (by simp) (by simp))
        (hg.not_sees (by simp) (by simp)) (hg.not_sees (by simp) (by simp))
      have hcloses : p₂.closesArguments = false := by
        obtain ⟨k, ms, rfl⟩ := hts.head
        obtain ⟨_, hk, _⟩ := path_cons_iff.mp harguments
        simp [closesArguments, Parser.sees, Token.kind, (hk.takes (by simp)).lexeme, Lexeme.kind]
      apply type_of_typeName
      rw [typeName, result_andThen hname, if_pos hless.sees, result_relax, result_andThen hr,
        if_neg (by simp [hcloses]), result_andThen hread]
      exact result_map _ hclose
  | .list ht => by
      simp only [path_append_iff, path_cons_iff, path_nil_iff] at h
      obtain ⟨p₁, hls, p₂, ho, p₃, hc, rfl⟩ := h
      have hbracket := ho.takes (by simp)
      obtain ⟨_, hopen⟩ := hbracket.require
      obtain ⟨_, hclose⟩ := (hc.takes (by simp)).require
      rw [type_of_isType ht hls (hbracket.not_sees (by simp)), listSuffixes, if_pos hbracket.sees,
        result_relax, result_andThen hopen, result_andThen hclose]

theorem typeArguments_of_isTypes {p m : Parser} {ls : List Lexeme} {ts : List Ty} (hts : IsTypes ls ts)
    (h : ReadsParts p ls m) (hless : m.sees .less = false) (hopen : m.sees .openBracket = false)
    (hcomma : m.sees .comma = false) : p.typeArguments.result = .ok ts m :=
  match hts with
  | .last ht => by
      have hfirst := type_of_isType ht h hless
      rw [listSuffixes, if_neg (by simp [hopen])] at hfirst
      rw [typeArguments, result_andThen hfirst, if_neg (by simp [hcomma])]
      rfl
  | .more ht hts => by
      simp only [path_append_iff, path_cons_iff] at h
      obtain ⟨p₁, hls, p₂, hc, hms⟩ := h
      have hsep := hc.takes (by simp)
      obtain ⟨_, hr⟩ := hsep.require
      have hfirst := type_of_isType ht hls (hsep.not_sees (by simp))
      rw [listSuffixes, if_neg (by simp [hsep.not_sees])] at hfirst
      rw [typeArguments, result_andThen hfirst, if_pos hsep.sees, result_relax, result_andThen hr]
      exact result_map _ (typeArguments_of_isTypes hts hms hless hopen hcomma)

end

end ScriptEngine.Grammar
