import Mathlib.Data.Rat.Floor
import ScriptEngine.Proofs.Ends
import ScriptEngine.Proofs.Number.Word

/-!
# Operators on integers

What the operators mean on the integers, with no regard to words: the exact result, or the fault. A word is
reached from there in one way only, so the operators on words are the exact ones.
-/

namespace ScriptEngine

/-- The integer that a value stands for. Truth values count as one and zero. -/
inductive Value.Means : Value → Int → Prop where
  | int (n : Int64) : Means (.int n) n.toInt
  | true : Means (.bool true) 1
  | false : Means (.bool false) 0

/-- An integer in the range of a word; any other is an overflow. -/
def inRange (n : Int) : Except Fault Int :=
  if -2 ^ 63 ≤ n ∧ n ≤ 2 ^ 63 - 1 then .ok n else .error .overflow

/-- What the operators between two operands give on integers. The bits of an integer are those of its two's
complement, which go on without end. -/
inductive Computes : BinaryOp → Int → Int → Except Fault Int → Prop where
  | add {a b : Int} : Computes .add a b (inRange (a + b))
  | sub {a b : Int} : Computes .sub a b (inRange (a - b))
  | mul {a b : Int} : Computes .mul a b (inRange (a * b))
  | modZero {a b : Int} : b = 0 → Computes .mod a b (.error .divisionByZero)
  | modOverflow {a b : Int} : a = -2 ^ 63 → b = -1 → Computes .mod a b (.error .overflow)
  | mod {a b r : Int} : b ≠ 0 → ¬(a = -2 ^ 63 ∧ b = -1) → r.natAbs < b.natAbs → r = 0 ∨ r.sign = a.sign →
      b ∣ a - r → Computes .mod a b (.ok r)
  | shlNegative {a b : Int} : b < 0 → Computes .shl a b (.error .negativeShift)
  | shl {a b : Int} : 0 ≤ b → Computes .shl a b (inRange (a * 2 ^ b.toNat))
  | shrNegative {a b : Int} : b < 0 → Computes .shr a b (.error .negativeShift)
  | shr {a b : Int} : 0 ≤ b → Computes .shr a b (.ok ⌊(a : ℚ) / 2 ^ b.toNat⌋)
  | bitAnd {a b c : Int} : (∀ i, c.testBit i = (a.testBit i && b.testBit i)) → Computes .bitAnd a b (.ok c)
  | bitOr {a b c : Int} : (∀ i, c.testBit i = (a.testBit i || b.testBit i)) → Computes .bitOr a b (.ok c)
  | bitXor {a b c : Int} : (∀ i, c.testBit i = (a.testBit i ^^ b.testBit i)) → Computes .bitXor a b (.ok c)

/-- What the operators before one operand give on integers. -/
inductive ComputesUnary : UnaryOp → Int → Except Fault Int → Prop where
  | plus {a : Int} : ComputesUnary .plus a (.ok a)
  | minus {a : Int} : ComputesUnary .minus a (inRange (-a))
  | invert {a c : Int} : (∀ i, c.testBit i = !a.testBit i) → ComputesUnary .invert a (.ok c)

variable {op : BinaryOp} {v w : Value} {a b : Int} {c c' : Except Fault Int}

/-! ## The rules have one answer -/

/-- Two remainders of one division are on the same side of zero, so they differ by less than the divisor. -/
theorem eq_of_remainders {r r' : Int} (hr : r.natAbs < b.natAbs) (hr' : r'.natAbs < b.natAbs)
    (hsign : r = 0 ∨ r.sign = a.sign) (hsign' : r' = 0 ∨ r'.sign = a.sign) (hdvd : b ∣ a - r)
    (hdvd' : b ∣ a - r') : r = r' := by
  have hdiff : b ∣ r - r' := by simpa using Int.dvd_sub hdvd' hdvd
  have hlt : (r - r').natAbs < b.natAbs := by
    rcases hsign with rfl | hsign
    · omega
    · rcases hsign' with rfl | hsign'
      · omega
      · have hside : 0 < r ↔ 0 < r' := by
          rw [← Int.sign_pos_iff, hsign, ← hsign', Int.sign_pos_iff]
        omega
  exact Int.sub_eq_zero.1 (Int.eq_zero_of_dvd_of_natAbs_lt_natAbs hdiff hlt)

theorem Computes.unique (h : Computes op a b c) (h' : Computes op a b c') : c = c' := by
  cases h with
  | add => cases h'; rfl
  | sub => cases h'; rfl
  | mul => cases h'; rfl
  | modZero hb =>
      cases h' with
      | modZero => rfl
      | modOverflow _ hb' => omega
      | mod hb' => exact absurd hb hb'
  | modOverflow ha hb =>
      cases h' with
      | modZero hb' => omega
      | modOverflow => rfl
      | mod _ hmin => exact absurd ⟨ha, hb⟩ hmin
  | mod hb hmin hr hsign hdvd =>
      cases h' with
      | modZero hb' => exact absurd hb' hb
      | modOverflow ha hb' => exact absurd ⟨ha, hb'⟩ hmin
      | mod _ _ hr' hsign' hdvd' => rw [eq_of_remainders hr hr' hsign hsign' hdvd hdvd']
  | shlNegative hb =>
      cases h' with
      | shlNegative => rfl
      | shl hb' => omega
  | shl hb =>
      cases h' with
      | shlNegative hb' => omega
      | shl => rfl
  | shrNegative hb =>
      cases h' with
      | shrNegative => rfl
      | shr hb' => omega
  | shr hb =>
      cases h' with
      | shrNegative hb' => omega
      | shr => rfl
  | bitAnd hc => cases h' with | bitAnd hc' => rw [Number.eq_of_testBit_eq fun i => (hc i).trans (hc' i).symm]
  | bitOr hc => cases h' with | bitOr hc' => rw [Number.eq_of_testBit_eq fun i => (hc i).trans (hc' i).symm]
  | bitXor hc => cases h' with | bitXor hc' => rw [Number.eq_of_testBit_eq fun i => (hc i).trans (hc' i).symm]

theorem ComputesUnary.unique {op : UnaryOp} (h : ComputesUnary op a c) (h' : ComputesUnary op a c') :
    c = c' := by
  cases h with
  | plus => cases h'; rfl
  | minus => cases h'; rfl
  | invert hc => cases h' with | invert hc' => rw [Number.eq_of_testBit_eq fun i => (hc i).trans (hc' i).symm]

/-! ## Words follow the rules -/

section Words

variable (a b : Int64)

theorem map_exactly (n : Int) : (exactly n).map Int64.toInt = inRange n := by
  unfold exactly Number.word? inRange
  by_cases hn : Number.fits n = true
  · rw [if_pos hn, if_pos (Number.fits_iff.1 hn)]
    exact congrArg Except.ok (Number.toInt_ofInt hn)
  · rw [if_neg hn, if_neg fun h => hn (Number.fits_iff.2 h)]
    rfl

theorem intRem_computes : Computes .mod a.toInt b.toInt ((Arithmetic.intRem a b).map Int64.toInt) := by
  have hzero : b = 0 ↔ b.toInt = 0 := Int64.toInt_inj.symm
  unfold Arithmetic.intRem
  split
  · rename_i hb
    exact .modZero (hzero.1 hb)
  · rename_i hb
    simp only [Number.fits_tdiv_iff a hb]
    split
    · rename_i hmin
      have hne : b.toInt ≠ 0 := fun h => hb (hzero.2 h)
      have hsmall : (a.toInt.tmod b.toInt).natAbs < b.toInt.natAbs := by
        rw [Int.natAbs_tmod]
        exact Nat.mod_lt _ (Int.natAbs_pos.2 hne)
      have hrange : inRange (a.toInt.tmod b.toInt) = .ok (a.toInt.tmod b.toInt) := by
        have := b.le_toInt
        have := b.toInt_lt
        exact if_pos (by omega)
      have hsign : a.toInt.tmod b.toInt = 0 ∨ (a.toInt.tmod b.toInt).sign = a.toInt.sign := by
        rw [Int.sign_tmod, ← Int.dvd_iff_tmod_eq_zero]
        split
        · exact .inl ‹_›
        · exact .inr rfl
      rw [map_exactly, hrange]
      exact .mod hne hmin hsmall hsign Int.dvd_self_sub_tmod
    · rename_i hmin
      obtain ⟨ha, hone⟩ := Classical.not_not.1 hmin
      exact .modOverflow ha hone

theorem shiftLeft_computes :
    Computes .shl a.toInt b.toInt ((Arithmetic.shiftLeft a b).map Int64.toInt) := by
  unfold Arithmetic.shiftLeft
  split
  · rename_i hb
    exact .shlNegative (Int64.lt_iff_toInt_lt.1 hb)
  · rename_i hb
    rw [Number.shiftLeft?_eq]
    change Computes _ _ _ ((exactly _).map _)
    rw [map_exactly]
    exact .shl (Int.not_lt.1 fun h => hb (Int64.lt_iff_toInt_lt.2 h))

theorem shiftRight_computes :
    Computes .shr a.toInt b.toInt ((Arithmetic.shiftRight a b).map Int64.toInt) := by
  unfold Arithmetic.shiftRight
  split
  · rename_i hb
    exact .shrNegative (Int64.lt_iff_toInt_lt.1 hb)
  · rename_i hb
    have hfloor : (Number.shiftRight a b.toInt.toNat).toInt = ⌊(a.toInt : ℚ) / 2 ^ b.toInt.toNat⌋ := by
      rw [Number.toInt_shiftRight]
      exact_mod_cast (Rat.floor_intCast_div_natCast a.toInt (2 ^ b.toInt.toNat)).symm
    change Computes _ _ _ (.ok _)
    rw [hfloor]
    exact .shr (Int.not_lt.1 fun h => hb (Int64.lt_iff_toInt_lt.2 h))

end Words

/-! ## Evaluation -/

theorem Value.Means.asInt? (h : v.Means a) : ∃ n : Int64, v.asInt? = some n ∧ n.toInt = a := by
  cases h with
  | int n => exact ⟨n, rfl, rfl⟩
  | true => exact ⟨1, rfl, rfl⟩
  | false => exact ⟨0, rfl, rfl⟩

section Operands

variable {m n : Int64} (hv : v.asInt? = some m) (hw : w.asInt? = some n)
include hv

theorem pos_eq : Arithmetic.pos v = .ok (.int m) := by
  cases v <;> cases hv <;> rfl

theorem neg_eq : Arithmetic.neg v = (exactly (-m.toInt)).map Value.int := by
  cases v <;> cases hv <;> rfl

theorem invert_eq : Arithmetic.invert v = .ok (.int (~~~m)) := by
  simp only [Arithmetic.invert, hv]

theorem evalAdd_eq : evalAdd v w = orFault (Arithmetic.add v w) := by
  cases v <;> cases hv <;> rfl

theorem repeat?_eq_none (count : Option Int64) : repeat? v count = none := by
  cases v <;> cases hv <;> rfl

include hw

theorem evalMul_eq : evalMul v w = orFault (Arithmetic.mul v w) := by
  simp only [evalMul, repeat?_eq_none hv, repeat?_eq_none hw]

theorem onInts_eq (f : Int64 → Int64 → Except Fault Int64) :
    Arithmetic.onInts op f v w = (f m n).map Value.int := by
  simp only [Arithmetic.onInts, hv, hw]

theorem onNumbers_eq (f : Int64 → Int64 → Except Fault Int64) (g : Float → Float → Except Fault Float) :
    Arithmetic.onNumbers op f g v w = (f m n).map Value.int := by
  simp only [Arithmetic.onNumbers, hv, hw]

end Operands

/-- An operator whose operands stand for integers follows the rules, and leaves the store to its operands. -/
theorem evalBinary_computes {right : EStateM Error Store Value} {σ σ' : Store}
    (hop : op ∈ [.add, .sub, .mul, .mod, .shl, .shr, .bitAnd, .bitOr, .bitXor])
    (hw : right σ = .ok w σ') (ha : v.Means a) (hb : w.Means b) :
    ∃ r : Except Fault Int64, evalBinary op v right σ = orFault (r.map Value.int) σ' ∧
      Computes op a b (r.map Int64.toInt) := by
  obtain ⟨m, hm, rfl⟩ := ha.asInt?
  obtain ⟨n, hn, rfl⟩ := hb.asInt?
  have hright : ∀ f : Value → EStateM Error Store Value, (right >>= f) σ = f w σ' := fun f => by
    rw [bind_apply, hw]
  simp only [List.mem_cons, List.not_mem_nil, or_false] at hop
  rcases hop with rfl | rfl | rfl | rfl | rfl | rfl | rfl | rfl | rfl
  · refine ⟨exactly (m.toInt + n.toInt), ?_, ?_⟩
    · rw [evalBinary, hright, evalAdd_eq hm, Arithmetic.add, onNumbers_eq hm hn]
    · rw [map_exactly]
      exact .add
  · refine ⟨exactly (m.toInt - n.toInt), ?_, ?_⟩
    · rw [evalBinary, hright, Arithmetic.sub, onNumbers_eq hm hn]
    · rw [map_exactly]
      exact .sub
  · refine ⟨exactly (m.toInt * n.toInt), ?_, ?_⟩
    · rw [evalBinary, hright, evalMul_eq hm hn, Arithmetic.mul, onNumbers_eq hm hn]
    · rw [map_exactly]
      exact .mul
  · refine ⟨Arithmetic.intRem m n, ?_, intRem_computes m n⟩
    rw [evalBinary, hright, Arithmetic.rem, onNumbers_eq hm hn]
  · refine ⟨Arithmetic.shiftLeft m n, ?_, shiftLeft_computes m n⟩
    rw [evalBinary, hright, onInts_eq hm hn]
  · refine ⟨Arithmetic.shiftRight m n, ?_, shiftRight_computes m n⟩
    rw [evalBinary, hright, onInts_eq hm hn]
  · refine ⟨.ok (m &&& n), ?_, .bitAnd (Number.testBit_bitwise (· && ·) fun i _ => ?_)⟩
    · rw [evalBinary, hright, onInts_eq hm hn]
    · rw [Int64.toBitVec_and, BitVec.getLsbD_and]
  · refine ⟨.ok (m ||| n), ?_, .bitOr (Number.testBit_bitwise (· || ·) fun i _ => ?_)⟩
    · rw [evalBinary, hright, onInts_eq hm hn]
    · rw [Int64.toBitVec_or, BitVec.getLsbD_or]
  · refine ⟨.ok (m ^^^ n), ?_, .bitXor (Number.testBit_bitwise (· ^^ ·) fun i _ => ?_)⟩
    · rw [evalBinary, hright, onInts_eq hm hn]
    · rw [Int64.toBitVec_xor, BitVec.getLsbD_xor]

theorem evalUnary_computes {op : UnaryOp} (hop : op ≠ .not) (ha : v.Means a) (σ : Store) :
    ∃ r : Except Fault Int64, evalUnary op v σ = orFault (r.map Value.int) σ ∧
      ComputesUnary op a (r.map Int64.toInt) := by
  obtain ⟨m, hm, rfl⟩ := ha.asInt?
  cases op with
  | not => exact absurd rfl hop
  | plus =>
      refine ⟨.ok m, ?_, .plus⟩
      rw [evalUnary, pos_eq hm]
      rfl
  | minus =>
      refine ⟨exactly (-m.toInt), ?_, ?_⟩
      · rw [evalUnary, neg_eq hm]
      · rw [map_exactly]
        exact .minus
  | invert =>
      refine ⟨.ok (~~~m), ?_, .invert (Number.testBit_bitwise (fun x _ => !x) (b := m) fun i hi => ?_)⟩
      · rw [evalUnary, invert_eq hm]
        rfl
      · simp [hi]

/-- Where the operands stand for integers, an operator on integers gives the one answer of the rules: the exact
result as a word, or the fault that the rules name. The store is left as the operands leave it. -/
theorem integer_operators_exact (i : ScopeId) :
    (∀ op l r σ σ₁ σ₂ v w a b, op ∈ [.add, .sub, .mul, .mod, .shl, .shr, .bitAnd, .bitOr, .bitXor] →
      eval i l σ = .ok v σ₁ → eval i r σ₁ = .ok w σ₂ → v.Means a → w.Means b →
      ∃ result : Except Fault Int64, eval i (.binary op l r) σ = orFault (result.map Value.int) σ₂ ∧
        ∀ c, Computes op a b c ↔ c = result.map Int64.toInt) ∧
    ∀ op e σ σ₁ v a, op ≠ .not → eval i e σ = .ok v σ₁ → v.Means a →
      ∃ result : Except Fault Int64, eval i (.unary op e) σ = orFault (result.map Value.int) σ₁ ∧
        ∀ c, ComputesUnary op a c ↔ c = result.map Int64.toInt := by
  constructor
  · intro op l r σ σ₁ σ₂ v w a b hop hl hr ha hb
    obtain ⟨result, heval, hrules⟩ := evalBinary_computes hop hr ha hb
    refine ⟨result, ?_, fun c => ⟨fun hc => hc.unique hrules, fun hc => hc ▸ hrules⟩⟩
    rw [eval, bind_apply, hl]
    exact heval
  · intro op e σ σ₁ v a hop he ha
    obtain ⟨result, heval, hrules⟩ := evalUnary_computes hop ha σ₁
    refine ⟨result, ?_, fun c => ⟨fun hc => hc.unique hrules, fun hc => hc ▸ hrules⟩⟩
    rw [eval, bind_apply, he]
    exact heval

/-- In `-(-1 << 63)` the shift gives the least word, whose negation is no word. -/
theorem least_word_not_negated :
    eval ⟨0⟩ (.unary .minus (.binary .shl (.constant (.int (-1))) (.constant (.int 63)))) .empty =
      .error (.ofFault .overflow) .empty := by
  obtain ⟨hbinary, hunary⟩ := integer_operators_exact ⟨0⟩
  obtain ⟨shifted, hshift, hrules⟩ := hbinary .shl (.constant (.int (-1))) (.constant (.int 63)) .empty
    _ _ _ _ _ _ (by decide) rfl rfl (.int (-1)) (.int 63)
  have hleast : .ok (-2 ^ 63) = shifted.map Int64.toInt := (hrules _).1 (.shl (by decide))
  cases shifted with
  | error => cases hleast
  | ok n =>
      have hn : n.toInt = -2 ^ 63 := (Except.ok.inj hleast).symm
      obtain ⟨negated, hneg, hrules⟩ := hunary .minus _ _ _ _ _ (by decide) hshift (.int n)
      have hover : .error .overflow = negated.map Int64.toInt := (hrules _).1 (hn ▸ .minus)
      cases negated with
      | error f =>
          cases hover
          exact hneg
      | ok => cases hover

end ScriptEngine
