import ScriptEngine.Evaluation.Expr

/-!
# Faults of the operators

The computations on values have their own faults: some lie in the values alone, others say that an
operand is of the wrong kind. None of them is a fault of an assignment or a call.
-/

namespace ScriptEngine

/-- Faults for which operands of the right types can be to blame. -/
def Fault.Dynamic : Fault → Prop
  | .overflow | .divisionByZero | .negativeShift | .tooLong | .outOfRange _ => True
  | _ => False

/-- Faults of the operators, as opposed to those of assignments and calls. -/
def Fault.OfOperator : Fault → Prop
  | .noItemAssignment _ | .notAssignable | .arity _ _ | .host _ => False
  | _ => True

theorem Fault.Dynamic.ofOperator {f : Fault} (h : f.Dynamic) : f.OfOperator := by
  cases f <;> trivial

/-! ## Computations on values -/

/-- A computation that can only fail for reasons that lie in the values. -/
def FailsByValue {α : Type} (r : Except Fault α) : Prop := ∀ f, r = .error f → f.Dynamic

theorem FailsByValue.ok {α : Type} (a : α) : FailsByValue (.ok a : Except Fault α) := fun _ => (nomatch ·)

theorem FailsByValue.exactly (n : Int) : FailsByValue (exactly n) := by
  intro f h
  unfold ScriptEngine.exactly at h
  split at h <;> cases h
  trivial

theorem FailsByValue.intRem (a b : Int64) : FailsByValue (Arithmetic.intRem a b) := by
  intro f h
  unfold Arithmetic.intRem at h
  split at h
  · cases h; trivial
  · split at h
    · exact FailsByValue.exactly _ f h
    · cases h; trivial

theorem FailsByValue.floatDiv (x y : Float) : FailsByValue (Arithmetic.floatDiv x y) := by
  intro f h
  unfold Arithmetic.floatDiv at h
  split at h <;> cases h
  trivial

theorem FailsByValue.floatRem (x y : Float) : FailsByValue (Arithmetic.floatRem x y) := by
  intro f h
  unfold Arithmetic.floatRem at h
  split at h <;> cases h
  trivial

theorem FailsByValue.shiftLeft (a b : Int64) : FailsByValue (Arithmetic.shiftLeft a b) := by
  intro f h
  unfold Arithmetic.shiftLeft at h
  split at h
  · cases h; trivial
  · split at h <;> cases h
    trivial

theorem FailsByValue.shiftRight (a b : Int64) : FailsByValue (Arithmetic.shiftRight a b) := by
  intro f h
  unfold Arithmetic.shiftRight at h
  split at h <;> cases h
  trivial

/-- A computation that can only fail as operators do. -/
def FailsAsOperator {α : Type} (r : Except Fault α) : Prop := ∀ f, r = .error f → f.OfOperator

namespace FailsAsOperator

variable {α β : Type} {op : BinaryOp} {v w : Value}

theorem of_value {r : Except Fault α} (h : FailsByValue r) : FailsAsOperator r := fun f hf =>
  (h f hf).ofOperator

theorem error {f : Fault} (h : f.OfOperator) : FailsAsOperator (.error f : Except Fault α) := by
  rintro _ ⟨⟩
  exact h

theorem map {r : Except Fault α} {g : α → β} (h : FailsAsOperator r) : FailsAsOperator (r.map g) := by
  cases r with
  | error f => rintro _ ⟨⟩; exact h f rfl
  | ok a => exact fun _ => (nomatch ·)

theorem onInts {f : Int64 → Int64 → Except Fault Int64} (hf : ∀ a b, FailsByValue (f a b)) :
    FailsAsOperator (Arithmetic.onInts op f v w) := by
  unfold Arithmetic.onInts
  split
  · exact (of_value (hf _ _)).map
  · exact error trivial

theorem onFloats {f : Float → Float → Except Fault Float} (hf : ∀ x y, FailsByValue (f x y)) :
    FailsAsOperator (Arithmetic.onFloats op f v w) := by
  unfold Arithmetic.onFloats
  split
  · exact (of_value (hf _ _)).map
  · exact error trivial

theorem onNumbers {f : Int64 → Int64 → Except Fault Int64} {g : Float → Float → Except Fault Float}
    (hf : ∀ a b, FailsByValue (f a b)) (hg : ∀ x y, FailsByValue (g x y)) :
    FailsAsOperator (Arithmetic.onNumbers op f g v w) := by
  unfold Arithmetic.onNumbers
  split
  · exact (of_value (hf _ _)).map
  · exact onFloats hg

theorem neg (v : Value) : FailsAsOperator (Arithmetic.neg v) := by
  unfold Arithmetic.neg
  split
  · exact of_value (.ok _)
  · split
    · exact (of_value (.exactly _)).map
    · exact error trivial

theorem pos (v : Value) : FailsAsOperator (Arithmetic.pos v) := by
  unfold Arithmetic.pos
  split
  · exact of_value (.ok _)
  · split
    · exact of_value (.ok _)
    · exact error trivial

theorem invert (v : Value) : FailsAsOperator (Arithmetic.invert v) := by
  unfold Arithmetic.invert
  split
  · exact of_value (.ok _)
  · exact error trivial

theorem relate {test : Comparison → Bool} : FailsAsOperator (relate op test v w) := by
  unfold ScriptEngine.relate
  split
  · exact of_value (.ok _)
  · exact error trivial

end FailsAsOperator

/-! ## Sequences -/

theorem place_cases (i : Int64) (n : Nat) :
    (∃ p, Sequence.place i n = .ok p ∧ p < n) ∨ Sequence.place i n = .error (.outOfRange i) := by
  unfold Sequence.place
  generalize (if i.toInt < 0 then Int.ofNat n + i.toInt else i.toInt) = p
  by_cases hp : 0 ≤ p ∧ p < Int.ofNat n
  · refine .inl ⟨p.toNat, if_pos hp, ?_⟩
    have h := hp.2
    simp only [Int.ofNat_eq_natCast] at h
    omega
  · exact .inr (if_neg hp)

theorem FailsAsOperator.resolve (v : Value) (n : Nat) : FailsAsOperator (Sequence.resolve v n) := by
  unfold Sequence.resolve
  split
  · rename_i i
    obtain ⟨p, hp, _⟩ | hp := place_cases i n
    · rw [hp]; exact of_value (.ok _)
    · rw [hp]; exact error trivial
  · exact error trivial

theorem FailsAsOperator.charAt (s : String) (v : Value) : FailsAsOperator (Sequence.charAt s v) := by
  intro f hf
  unfold Sequence.charAt at hf
  dsimp only at hf
  split at hf
  · rename_i h
    cases hf
    exact FailsAsOperator.resolve _ _ _ h
  · cases hf

theorem FailsByValue.repeatString (s : String) (n : Int64) : FailsByValue (Sequence.repeatString s n) := by
  intro f hf
  unfold Sequence.repeatString at hf
  split at hf <;> cases hf
  trivial

theorem FailsByValue.repeatItems (items : Array Value) (n : Int64) :
    FailsByValue (Sequence.repeatItems items n) := by
  intro f hf
  unfold Sequence.repeatItems at hf
  split at hf <;> cases hf
  trivial

end ScriptEngine
