import ScriptEngine.Proofs.Evaluation.Effect

/-!
# Indexing

An index into a list or a string of `n` elements is an integer from `-n` up to `n`, this one excluded: those below
zero count from the end. Any other index is a fault, so each position has two indices, and nothing else has one.
-/

namespace ScriptEngine

variable {s : Store} {i : ScopeId} {base w v : Value} {xs : List Value} {j : Int64} {n p : Nat}

/-- What a value has under its indices: a list its elements, a string its characters as strings. -/
def Store.elements? (s : Store) : Value → Option (List Value)
  | .list l => some (s.items l).toList
  | .str t => some (t.toList.map fun c => .str (.singleton c))
  | _ => none

/-! ## Positions -/

theorem place_eq_ok_iff : Sequence.place j n = .ok p ↔ p < n ∧ (j.toInt = p ∨ j.toInt = p - n) := by
  unfold Sequence.place
  simp only [Int.ofNat_eq_natCast]
  -- counted from the end, or from the start
  split
  · split
    · rw [Except.ok.injEq]
      omega
    · simp only [reduceCtorEq, false_iff]
      omega
  · split
    · rw [Except.ok.injEq]
      omega
    · simp only [reduceCtorEq, false_iff]
      omega

theorem place_eq_error (h : ¬(-(n : Int) ≤ j.toInt ∧ j.toInt < n)) : Sequence.place j n = .error (.outOfRange j) := by
  unfold Sequence.place
  simp only [Int.ofNat_eq_natCast]
  rw [if_neg]
  split <;> omega

theorem resolve_eq_ok_iff :
    Sequence.resolve w n = .ok p ↔ p < n ∧ ∃ j : Int64, w = .int j ∧ (j.toInt = p ∨ j.toInt = p - n) := by
  cases w with
  | int j => simp [Sequence.resolve, place_eq_ok_iff]
  | _ => simp [Sequence.resolve]

theorem resolve_eq_badIndex (h : ∀ j, w ≠ .int j) : Sequence.resolve w n = .error (.badIndex w.kind) := by
  cases w with
  | int j => exact absurd rfl (h j)
  | _ => rfl

/-! ## Elements -/

/-- An element is read where the index resolves, and a fault of the index is the fault of the read. -/
theorem evalIndex_eq (h : s.elements? base = some xs) : evalIndex base w s =
    match Sequence.resolve w xs.length with
    | .ok p => .ok (xs[p]?.getD .null) s
    | .error f => .error (.ofFault f) s := by
  cases base with
  | list l =>
      cases h
      simp only [evalIndex, bind_apply, Array.length_toList, Array.getElem?_toList]
      show (orFault (Sequence.resolve w (s.items l).size) >>= _) s = _
      cases hr : Sequence.resolve w (s.items l).size <;> rfl
  | str t =>
      cases h
      simp only [evalIndex, Sequence.charAt, List.length_map]
      cases hr : Sequence.resolve w t.toList.length with
      | error f => rfl
      | ok p =>
          have hp : p < t.toList.length := (resolve_eq_ok_iff.mp hr).1
          have hchar : (t.toList.drop p).take 1 = [t.toList[p]] := by
            rw [List.drop_eq_getElem_cons hp, List.take_succ_cons, List.take_zero]
          simp only [hchar, List.getElem?_map, List.getElem?_eq_getElem hp]
          rfl
  | _ => cases h

theorem join_singletons (t : String) : String.join (t.toList.map String.singleton) = t := by
  rw [← String.toList_inj, String.toList_join, List.flatMap_map]
  simp only [String.toList_singleton, List.flatMap_singleton']

/-! ## Reads -/

section

variable {b k : Expr} {σ σ₁ σ₂ : Store}

theorem eval_index_eq (hb : eval i b σ = .ok base σ₁) (hk : eval i k σ₁ = .ok w σ₂) :
    eval i (.index b k) σ = evalIndex base w σ₂ := by
  rw [eval, bind_apply, hb]
  show (eval i k >>= _) σ₁ = _
  rw [bind_apply, hk]

/-- Both indices of a position read the element there. -/
theorem eval_index_ok (hb : eval i b σ = .ok base σ₁) (hk : eval i k σ₁ = .ok (.int j) σ₂)
    (hxs : σ₂.elements? base = some xs) (hv : xs[p]? = some v) (hj : j.toInt = p ∨ j.toInt = p - xs.length) :
    eval i (.index b k) σ = .ok v σ₂ := by
  have hp : p < xs.length := (List.getElem?_eq_some_iff.mp hv).1
  have hr : Sequence.resolve (.int j) xs.length = .ok p := resolve_eq_ok_iff.mpr ⟨hp, j, rfl, hj⟩
  rw [eval_index_eq hb hk, evalIndex_eq hxs, hr]
  simp only [hv, Option.getD_some]

theorem eval_index_outOfRange (hb : eval i b σ = .ok base σ₁) (hk : eval i k σ₁ = .ok (.int j) σ₂)
    (hxs : σ₂.elements? base = some xs) (hj : ¬(-(xs.length : Int) ≤ j.toInt ∧ j.toInt < xs.length)) :
    eval i (.index b k) σ = .error (.ofFault (.outOfRange j)) σ₂ := by
  rw [eval_index_eq hb hk, evalIndex_eq hxs, show Sequence.resolve (.int j) xs.length = _ from place_eq_error hj]

theorem eval_index_badIndex (hb : eval i b σ = .ok base σ₁) (hk : eval i k σ₁ = .ok w σ₂)
    (hxs : σ₂.elements? base = some xs) (hw : ∀ j, w ≠ .int j) :
    eval i (.index b k) σ = .error (.ofFault (.badIndex w.kind)) σ₂ := by
  rw [eval_index_eq hb hk, evalIndex_eq hxs, resolve_eq_badIndex hw]

/-- The characters of a string, read one after the other, make up the string again. -/
theorem string_read_back {t : String} (hb : eval i b σ = .ok (.str t) σ₁) :
    ∃ cs : List String, cs.length = t.length ∧ String.join cs = t ∧ ∀ (p : Nat) c, cs[p]? = some c →
      c.length = 1 ∧ ∀ j : Int64, j.toInt = p → eval i (.index b (.constant (.int j))) σ = .ok (.str c) σ₁ := by
  have hlength : (t.toList.map String.singleton).length = t.length := (List.length_map _).trans String.length_toList
  refine ⟨t.toList.map String.singleton, hlength, join_singletons t, fun p c hc => ⟨?_, fun j hj => ?_⟩⟩
  · obtain ⟨d, _, rfl⟩ := List.mem_map.mp (List.mem_of_getElem? hc)
    exact String.length_singleton
  · refine eval_index_ok hb rfl rfl ?_ (.inl hj)
    rw [List.getElem?_map] at hc ⊢
    obtain ⟨d, hd, rfl⟩ := Option.map_eq_some_iff.mp hc
    rw [hd]
    rfl

end

end ScriptEngine
