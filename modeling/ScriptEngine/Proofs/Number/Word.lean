import Mathlib.Data.Int.Bitwise
import Mathlib.Tactic.Linarith
import ScriptEngine.Number

/-!
# Words as integers

What the operations on 64-bit integers mean for the integers they stand for. A shift to the left is tried by
wrapping around and shifted back: the test accepts exactly the products that fit. The bits of an integer go on
without end, and those beyond a word repeat its sign.
-/

namespace ScriptEngine.Number

variable {a b : Int64} {n : Int} {w : Nat}

/-! ## The range of a word -/

theorem fits_iff : fits n = true ↔ -2 ^ 63 ≤ n ∧ n ≤ 2 ^ 63 - 1 := by
  simp only [fits, Bool.and_eq_true, decide_eq_true_eq]
  omega

theorem toInt_ofInt (h : fits n = true) : (Int64.ofInt n).toInt = n :=
  toInt_of_word? (by rw [word?, if_pos h])

/-- A quotient that rounds toward zero is no larger than the dividend, so it leaves the range only where the
dividend is the least word and its sign is turned. -/
theorem fits_tdiv_iff (a : Int64) (hb : b ≠ 0) :
    fits (a.toInt.tdiv b.toInt) = true ↔ ¬(a.toInt = -2 ^ 63 ∧ b.toInt = -1) := by
  have ha := a.le_toInt
  have ha' := a.toInt_lt
  have hb' : b.toInt ≠ 0 := fun h => hb (Int64.toInt_inj.1 h)
  rw [fits_iff]
  constructor
  · rintro ⟨-, hlt⟩ ⟨hmin, hone⟩
    rw [hmin, hone] at hlt
    exact absurd hlt (by decide)
  · intro hn
    have hq : (a.toInt.tdiv b.toInt).natAbs * b.toInt.natAbs ≤ a.toInt.natAbs := by
      rw [Int.natAbs_tdiv]
      exact Nat.div_mul_le_self _ _
    rcases (show b.toInt = 1 ∨ b.toInt = -1 ∨ 2 ≤ b.toInt.natAbs by omega) with h | h | h
    · rw [h, Int.tdiv_one]
      omega
    · rw [h, Int.tdiv_neg, Int.tdiv_one]
      omega
    · have htwice := Nat.mul_le_mul_left (a.toInt.tdiv b.toInt).natAbs h
      omega

/-! ## Shifts -/

theorem smod_of_lt {k : Nat} (hk : k < 64) : ((BitVec.ofNat 64 k).smod 64).toNat = k := by
  have hall : ∀ k : Fin 64, ((BitVec.ofNat 64 k.val).smod 64).toNat = k.val := by decide
  exact hall ⟨k, hk⟩

theorem toInt_shiftRight_of_lt {k : Nat} (hk : k < 64) :
    (a >>> Int64.ofNat k).toInt = a.toInt / 2 ^ k := by
  rw [← Int64.toInt_toBitVec, Int64.toBitVec_shiftRight, BitVec.sshiftRight', Int64.toBitVec_ofNat',
    smod_of_lt hk, BitVec.toInt_sshiftRight, Int64.toInt_toBitVec, Int.shiftRight_eq_div_pow]
  norm_cast

theorem toInt_shiftLeft_of_lt {k : Nat} (hk : k < 64) :
    (a <<< Int64.ofNat k).toInt = (a.toInt * 2 ^ k).bmod (2 ^ 64) := by
  rw [← Int64.toInt_toBitVec, Int64.toBitVec_shiftLeft, Int64.toBitVec_ofNat', BitVec.shiftLeft_eq',
    smod_of_lt hk, BitVec.toInt_shiftLeft, Nat.shiftLeft_eq, ← Int64.toInt_toBitVec a,
    BitVec.toInt_eq_toNat_bmod, Int.bmod_mul_bmod]
  norm_cast

/-- Shifted and wrapped around, an integer comes back when it is shifted back if and only if nothing was lost:
the wrapped product still is a multiple of `2 ^ k`, so the quotient determines it. -/
theorem shifted_back_iff {k : Nat} (hk : k < 64) :
    (a <<< Int64.ofNat k) >>> Int64.ofNat k = a ↔ fits (a.toInt * 2 ^ k) = true := by
  rw [← Int64.toInt_inj, toInt_shiftRight_of_lt hk, toInt_shiftLeft_of_lt hk, fits_iff]
  constructor
  · intro h
    have hdvd : (2 : Int) ^ k ∣ (a.toInt * 2 ^ k).bmod (2 ^ 64) := by
      have hwrap : (2 : Int) ^ k ∣ (a.toInt * 2 ^ k).bmod (2 ^ 64) - a.toInt * 2 ^ k :=
        (pow_dvd_pow 2 hk.le).trans Int.dvd_bmod_sub_self
      simpa using Int.dvd_add hwrap (Dvd.intro_left a.toInt rfl)
    have heq : (a.toInt * 2 ^ k).bmod (2 ^ 64) = a.toInt * 2 ^ k := by
      rw [← Int.ediv_mul_cancel hdvd, h]
    rw [← heq]
    exact ⟨Int.le_bmod (by decide), Int.le_sub_one_of_lt (Int.bmod_lt (by decide))⟩
  · rintro ⟨hlow, hhigh⟩
    rw [Int.bmod_eq_of_le (by omega) (by omega), Int.mul_ediv_cancel _ (by positivity)]

/-- Beyond the width of a word, only zero times a power of two fits. -/
theorem not_fits_mul_two_pow {k : Nat} (hn : n ≠ 0) (hk : 64 ≤ k) : ¬fits (n * 2 ^ k) = true := by
  have hpow : (2 : Int) ^ 64 ≤ 2 ^ k := pow_le_pow_right₀ (by decide) hk
  rw [fits_iff]
  rintro ⟨hlow, hhigh⟩
  rcases (show 1 ≤ n ∨ n ≤ -1 by omega) with h | h
  · have := mul_le_mul_of_nonneg_right h (by positivity : (0 : Int) ≤ 2 ^ k)
    omega
  · have := mul_le_mul_of_nonneg_right h (by positivity : (0 : Int) ≤ 2 ^ k)
    omega

/-- The product that a shift to the left stands for, if it fits. -/
theorem shiftLeft?_eq (a : Int64) (k : Nat) : shiftLeft? a k = word? (a.toInt * 2 ^ k) := by
  unfold shiftLeft?
  split
  · rename_i h
    subst h
    simp [word?, fits]
  · rename_i hne
    have ha : a.toInt ≠ 0 := fun h => hne (Int64.toInt_inj.1 h)
    split
    · rename_i hk
      rw [word?, if_neg (not_fits_mul_two_pow ha hk)]
    · rename_i hk
      simp only [shifted_back_iff (Nat.lt_of_not_le hk), word?]
      split
      · rename_i hfits
        congr 1
        rw [← Int64.toInt_inj, toInt_ofInt hfits, toInt_shiftLeft_of_lt (Nat.lt_of_not_le hk)]
        obtain ⟨hlow, hhigh⟩ := fits_iff.1 hfits
        exact Int.bmod_eq_of_le (by omega) (by omega)
      · rfl

theorem toInt_shiftRight (a : Int64) (k : Nat) : (shiftRight a k).toInt = a.toInt / 2 ^ k := by
  unfold shiftRight
  split
  · rename_i hk
    have hpow : (2 : Int) ^ 64 ≤ 2 ^ k := pow_le_pow_right₀ (by decide) hk
    have hlow := a.le_toInt
    have hhigh := a.toInt_lt
    split
    · rename_i hneg
      rw [Int64.lt_iff_toInt_lt] at hneg
      exact (Int.ediv_eq_neg_one_of_neg_of_le hneg (by omega)).symm
    · rename_i hnonneg
      rw [Int64.lt_iff_toInt_lt, not_lt] at hnonneg
      exact (Int.ediv_eq_zero_of_lt hnonneg (by omega)).symm
  · rename_i hk
    exact toInt_shiftRight_of_lt (Nat.lt_of_not_le hk)

/-! ## Bits -/

theorem testBit_toInt (x : BitVec w) (i : Nat) :
    x.toInt.testBit i = if i < w then x.getLsbD i else x.msb := by
  rw [BitVec.toInt_eq_msb_cond]
  have hlt := x.isLt
  split
  · rename_i hneg
    have hcompl : (x.toNat : Int) - (2 ^ w : Nat) = Int.negSucc (2 ^ w - (x.toNat + 1)) := by omega
    rw [hcompl, Int.testBit, Nat.testBit_two_pow_sub_succ hlt, hneg]
    split <;> simp_all [BitVec.getLsbD]
  · rename_i hnonneg
    change x.toNat.testBit i = _
    split
    · rfl
    · rename_i hi
      rw [Bool.not_eq_true] at hnonneg
      rw [hnonneg]
      exact BitVec.getLsbD_of_ge x i (Nat.le_of_not_lt hi)

/-- What is done to words bit by bit is done to all bits of the integers, as the sign is one of them. -/
theorem testBit_bitwise (f : Bool → Bool → Bool) {c : Int64}
    (h : ∀ i < 64, c.toBitVec.getLsbD i = f (a.toBitVec.getLsbD i) (b.toBitVec.getLsbD i)) (i : Nat) :
    c.toInt.testBit i = f (a.toInt.testBit i) (b.toInt.testBit i) := by
  simp only [← Int64.toInt_toBitVec, testBit_toInt]
  split
  · rename_i hi
    exact h i hi
  · simp only [BitVec.msb_eq_getLsbD_last]
    exact h 63 (by decide)

/-- An integer is determined by its bits: far enough up, they are those of its sign. -/
theorem eq_of_testBit_eq {m n : Int} (h : ∀ i, m.testBit i = n.testBit i) : m = n := by
  have hhigh : ∀ k l : Nat, k.testBit (k + l) = false := fun k l =>
    Nat.testBit_eq_false_of_lt ((Nat.le_add_right k l).trans_lt Nat.lt_two_pow_self)
  have hmixed : ∀ k l : Nat, k.testBit (k + l) ≠ !l.testBit (k + l) := fun k l => by
    rw [hhigh, Nat.add_comm, hhigh]
    decide
  cases m with
  | ofNat m =>
      cases n with
      | ofNat n => exact congrArg Int.ofNat (Nat.eq_of_testBit_eq h)
      | negSucc n => exact absurd (h (m + n)) (hmixed m n)
  | negSucc m =>
      cases n with
      | ofNat n => exact absurd (h (n + m)).symm (hmixed n m)
      | negSucc n => exact congrArg Int.negSucc (Nat.eq_of_testBit_eq fun i => Bool.not_inj (h i))

end ScriptEngine.Number
