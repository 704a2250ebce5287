import ScriptEngine.Proofs.Scope.Agreement
import ScriptEngine.Proofs.Typing.Conformance
import ScriptEngine.Typing

/-!
# Soundness of the types of expressions

The operators have typing rules that are looser than what they compute: `/` always makes a float, the
operators on bits take no floats, and a sum of sequences is typed by its left operand alone. Where these
gaps are not used, the value of an expression conforms to its type, and an evaluation fails only for
reasons that lie in the values and not in their types.
-/

namespace ScriptEngine

open Scopes

namespace Typing

/-- The operators on the bits of integers. -/
def isBitwise : BinaryOp → Bool
  | .shl | .shr | .bitAnd | .bitOr | .bitXor => true
  | _ => false

/-- A binary operator between operands of these types computes what its typing rule says. -/
structure Regular (op : BinaryOp) (t u : Ty) : Prop where
  div : op = .div → t = .float ∨ u = .float
  bits : isBitwise op = true → t ≠ .float ∧ u ≠ .float
  sum : op = .add → t.isSubscriptable = true → u.isSubscriptable = true → t = u

/-- No operator in the expression uses a gap of its typing rule. -/
def Plain (G : TypeScopes) (j : ScopeId) : Expr → Prop
  | .constant _ => True
  | .var _ => True
  | .unary op e => Plain G j e ∧ (op = .invert → typeOf G j e ≠ .ok .float)
  | .binary op l r => Plain G j l ∧ Plain G j r ∧
      ∀ t u, typeOf G j l = .ok t → typeOf G j r = .ok u → Regular op t u
  | .index b k => Plain G j b ∧ Plain G j k

end Typing

variable {E E' : ElementTypes} {v w : Value} {t u : Ty} {σ σ' : Store} {op : BinaryOp}

/-! ## Results -/

/-- A result conforms to a type, or is a fault that lies in the values. -/
def Sound (E : ElementTypes) (t : Ty) (r : Except Fault Value) : Prop :=
  (∀ v, r = .ok v → Conforms E v t) ∧ ∀ f, r = .error f → f.Dynamic

/-- An evaluation ends with a value that conforms to a type, or with a fault that lies in the values. -/
def Lands (E : ElementTypes) (t : Ty) (x : EStateM Error Store Value) (σ : Store) : Prop :=
  Ends x σ (fun v σ' => ∃ E', E <+: E' ∧ σ'.Typed E' ∧ Conforms E' v t)
    (fun e σ' => (∃ f, e = .ofFault f ∧ f.Dynamic) ∧ ∃ E', E <+: E' ∧ σ'.Typed E')

theorem Lands.pure (hσ : σ.Typed E) (h : Conforms E v t) : Lands E t (pure v) σ :=
  ⟨E, List.prefix_rfl, hσ, h⟩

theorem Lands.orFault {r : Except Fault Value} (hσ : σ.Typed E) (h : Sound E t r) :
    Lands E t (orFault r) σ := by
  unfold Lands
  rw [Ends.orFault_iff]
  exact ⟨fun v hv => ⟨E, List.prefix_rfl, hσ, h.1 v hv⟩, fun f hf => ⟨⟨f, rfl, h.2 f hf⟩, E, List.prefix_rfl, hσ⟩⟩

theorem Lands.makeList (hσ : σ.Typed E) {ts : List Ty} {items : Array Value}
    (h : ∀ v ∈ items, Conforms E v (ts.head?.getD .null)) :
    Lands E (.template "list" ts) (makeList items) σ :=
  ⟨_, List.prefix_append E [ts.head?.getD .null], hσ.newList h, hσ.newList_conforms items⟩

/-- What happens after a first evaluation happens in a store with more lists. -/
theorem Lands.bind_of {x : EStateM Error Store Value} {f : Value → EStateM Error Store Value}
    {Q : Store → Prop} (hq : Ends x σ (fun _ σ' => Q σ') (fun _ _ => True)) (hx : Lands E t x σ)
    (hf : ∀ E' v σ', Q σ' → E <+: E' → σ'.Typed E' → Conforms E' v t → Lands E' u (f v) σ') :
    Lands E u (x >>= f) σ := by
  unfold Lands
  rw [Ends.bind_iff]
  refine (hq.and hx).mono ?_ (fun _ _ h => h.2)
  rintro v σ₁ ⟨hq, E₁, hle, hσ₁, hv⟩
  refine (hf E₁ v σ₁ hq hle hσ₁ hv).mono ?_ ?_
  · rintro w σ₂ ⟨E₂, hle₂, hσ₂, hw⟩
    exact ⟨E₂, hle.trans hle₂, hσ₂, hw⟩
  · rintro e σ₂ ⟨hf, E₂, hle₂, hσ₂⟩
    exact ⟨hf, E₂, hle.trans hle₂, hσ₂⟩

theorem Lands.bind {x : EStateM Error Store Value} {f : Value → EStateM Error Store Value}
    (hx : Lands E t x σ)
    (hf : ∀ E' v σ', E <+: E' → σ'.Typed E' → Conforms E' v t → Lands E' u (f v) σ') :
    Lands E u (x >>= f) σ :=
  bind_of (Q := fun _ => True) (Ends.iff_forall.mpr ⟨fun _ _ _ => trivial, fun _ _ _ => trivial⟩) hx
    fun E' v σ' _ => hf E' v σ'

/-- Evaluation leaves the scopes as they are, so they still agree with the type scopes. -/
theorem Lands.bind_eval {G : TypeScopes} {i j : ScopeId} {e : Expr} {f : Value → EStateM Error Store Value}
    (ha : Agree (Conforms E) σ.scopes i G j) (hx : Lands E t (eval i e) σ)
    (hf : ∀ E' v σ', Agree (Conforms E') σ'.scopes i G j → E <+: E' → σ'.Typed E' → Conforms E' v t →
      Lands E' u (f v) σ') : Lands E u (eval i e >>= f) σ := by
  have hs := (eval_harmless i e σ).mono (fun _ _ h => h.scopes) (fun _ _ _ => trivial)
  refine bind_of hs hx fun E' v σ' hs hE hσ' hv => hf E' v σ' ?_ hE hσ' hv
  rw [hs]
  exact ha.mono fun _ _ => Conforms.mono hE

/-! ## Numbers -/

theorem Sound.map_int {r : Except Fault Int64} (h : FailsByValue r) : Sound E .int (r.map Value.int) := by
  cases r with
  | error f => exact ⟨fun _ => (nomatch ·), by rintro _ ⟨⟩; exact h f rfl⟩
  | ok n => exact ⟨by rintro _ ⟨⟩; exact ⟨n, rfl⟩, fun _ => (nomatch ·)⟩

theorem Sound.map_float {r : Except Fault Float} (h : FailsByValue r) :
    Sound E .float (r.map Value.float) := by
  cases r with
  | error f => exact ⟨fun _ => (nomatch ·), by rintro _ ⟨⟩; exact h f rfl⟩
  | ok x => exact ⟨by rintro _ ⟨⟩; exact ⟨x, rfl⟩, fun _ => (nomatch ·)⟩

theorem Sound.onInts {f : Int64 → Int64 → Except Fault Int64} (hf : ∀ a b, FailsByValue (f a b))
    (ht : t = .int ∨ t = .bool) (hu : u = .int ∨ u = .bool) (hv : Conforms E v t) (hw : Conforms E w u) :
    Sound E .int (Arithmetic.onInts op f v w) := by
  obtain ⟨a, ha⟩ := hv.asInt? ht
  obtain ⟨b, hb⟩ := hw.asInt? hu
  simp only [Arithmetic.onInts, ha, hb]
  exact .map_int (hf a b)

theorem Sound.onFloats {f : Float → Float → Except Fault Float} (hf : ∀ x y, FailsByValue (f x y))
    (ht : t.isNumeric = true) (hu : u.isNumeric = true) (hv : Conforms E v t) (hw : Conforms E w u) :
    Sound E .float (Arithmetic.onFloats op f v w) := by
  obtain ⟨x, hx⟩ := hv.asFloat? ht
  obtain ⟨y, hy⟩ := hw.asFloat? hu
  simp only [Arithmetic.onFloats, hx, hy]
  exact .map_float (hf x y)

/-- Arithmetic on whole numbers stays in whole numbers, and one float makes the result a float. -/
theorem Sound.onNumbers {f : Int64 → Int64 → Except Fault Int64} {g : Float → Float → Except Fault Float}
    (hf : ∀ a b, FailsByValue (f a b)) (hg : ∀ x y, FailsByValue (g x y)) (ht : t.isNumeric = true)
    (hu : u.isNumeric = true) (hv : Conforms E v t) (hw : Conforms E w u) :
    Sound E (if t = .float ∨ u = .float then .float else .int) (Arithmetic.onNumbers op f g v w) := by
  by_cases h : t = .float ∨ u = .float
  · have hn : Arithmetic.onNumbers op f g v w = Arithmetic.onFloats op g v w := by
      unfold Arithmetic.onNumbers
      rcases h with rfl | rfl
      · rw [hv.asInt?_float]
      · rw [hw.asInt?_float]
        cases v.asInt? <;> rfl
    rw [if_pos h, hn]
    exact .onFloats hg ht hu hv hw
  · rw [if_neg h]
    obtain ⟨ht', hu'⟩ := not_or.mp h
    obtain ⟨a, ha⟩ := hv.asInt? ((numeric_cases ht).imp_right fun h => h.resolve_left ht')
    obtain ⟨b, hb⟩ := hw.asInt? ((numeric_cases hu).imp_right fun h => h.resolve_left hu')
    simp only [Arithmetic.onNumbers, ha, hb]
    exact .map_int (hf a b)

theorem Sound.relate {test : Comparison → Bool} (ht : t.isNumeric = true) (hu : u.isNumeric = true)
    (hv : Conforms E v t) (hw : Conforms E w u) : Sound E .bool (relate op test v w) := by
  obtain ⟨x, hx⟩ := hv.asFloat? ht
  obtain ⟨y, hy⟩ := hw.asFloat? hu
  have hc : (Comparison.ofValues? v w).isSome = true := by
    unfold Comparison.ofValues?
    split
    · rfl
    · cases v.asInt? <;> cases w.asInt? <;> simp [hx, hy]
  obtain ⟨c, hc⟩ := Option.isSome_iff_exists.mp hc
  simp only [ScriptEngine.relate, hc]
  exact ⟨by rintro _ ⟨⟩; exact ⟨_, rfl⟩, fun _ => (nomatch ·)⟩

/-! ## Prefix operators -/

theorem Sound.neg (ht : t = .int ∨ t = .bool) (hv : Conforms E v t) : Sound E .int (Arithmetic.neg v) := by
  obtain ⟨a, ha⟩ := hv.asInt? ht
  unfold Arithmetic.neg
  split
  · cases ha
  · simp only [ha]
    exact .map_int (.exactly _)

theorem Sound.pos (ht : t = .int ∨ t = .bool) (hv : Conforms E v t) : Sound E .int (Arithmetic.pos v) := by
  obtain ⟨a, ha⟩ := hv.asInt? ht
  unfold Arithmetic.pos
  split
  · cases ha
  · simp only [ha]
    exact Sound.map_int (.ok a)

theorem Sound.invert (ht : t = .int ∨ t = .bool) (hv : Conforms E v t) :
    Sound E .int (Arithmetic.invert v) := by
  obtain ⟨a, ha⟩ := hv.asInt? ht
  simp only [Arithmetic.invert, ha]
  exact Sound.map_int (.ok (~~~a))

theorem evalUnary_lands {op : UnaryOp} (hσ : σ.Typed E) (hv : Conforms E v t)
    (hu : Typing.unary op t = .ok u) (hp : op = .invert → t ≠ .float) : Lands E u (evalUnary op v) σ := by
  by_cases hnot : op = .not
  · subst hnot
    cases hu
    exact Lands.pure hσ ⟨_, rfl⟩
  · unfold Typing.unary at hu
    rw [if_neg hnot] at hu
    split at hu
    · rename_i ht
      cases hu
      cases op with
      | not => exact absurd rfl hnot
      | plus => exact .orFault hσ (.pos ht hv)
      | minus => exact .orFault hσ (.neg ht hv)
      | invert => exact .orFault hσ (.invert ht hv)
    · split at hu
      · rename_i ht
        cases hu
        subst ht
        obtain ⟨x, rfl⟩ := hv
        cases op with
        | not => exact absurd rfl hnot
        | plus => exact .orFault hσ (Sound.map_float (.ok x))
        | minus => exact .orFault hσ (Sound.map_float (.ok (-x)))
        | invert => exact absurd rfl (hp rfl)
      · cases hu

/-! ## Sequences -/

theorem resolve_cases {n : Nat} (hw : Conforms E w .int) :
    (∃ p, Sequence.resolve w n = .ok p ∧ p < n) ∨ ∃ i, Sequence.resolve w n = .error (.outOfRange i) := by
  obtain ⟨i, rfl⟩ := hw
  exact (place_cases i n).imp_right fun h => ⟨i, h⟩

theorem mem_copies {α : Type} {n : Nat} {xs : List α} {a : α} (h : a ∈ Sequence.copies n xs) : a ∈ xs := by
  unfold Sequence.copies at h
  split at h
  · cases h
  · obtain ⟨l, hl, ha⟩ := List.mem_flatten.mp h
    rw [List.eq_of_mem_replicate hl] at ha
    exact ha

theorem evalIndex_lands (hσ : σ.Typed E) (hv : Conforms E v t) (hw : Conforms E w u)
    {r : Ty} (hr : Typing.index t u = .ok r) : Lands E r (evalIndex v w) σ := by
  unfold Typing.index at hr
  split at hr
  · cases hr
  rename_i hu
  rw [Decidable.not_not] at hu
  subst hu
  split at hr
  · rename_i ht
    cases hr
    subst ht
    obtain ⟨s, rfl⟩ := hv
    refine .orFault hσ ?_
    unfold Sequence.charAt
    rcases resolve_cases (n := s.toList.length) hw with ⟨p, hp, _⟩ | ⟨i, hi⟩
    · simp only [hp]
      exact ⟨by rintro _ ⟨⟩; exact ⟨_, rfl⟩, fun _ => (nomatch ·)⟩
    · simp only [hi]
      exact ⟨fun _ => (nomatch ·), by rintro _ ⟨⟩; trivial⟩
  · rename_i ht
    split at hr
    · rename_i hs
      cases hr
      obtain ⟨ts, rfl⟩ := (subscriptable_cases hs).resolve_left ht
      obtain ⟨l, rfl, hl⟩ := hv
      unfold Lands evalIndex
      simp only [Ends.bind_iff, Ends.get_iff, Ends.orFault_iff, Ends.pure_iff]
      constructor
      · intro p hp
        obtain ⟨q, hq, hlt⟩ | ⟨i, hi⟩ := resolve_cases (n := (σ.items l).size) hw
        · rw [hp] at hq
          cases hq
          refine ⟨E, List.prefix_rfl, hσ, ?_⟩
          rw [Array.getElem?_eq_getElem hlt, Option.getD_some]
          exact hσ.items hl _ (Array.getElem_mem hlt)
        · rw [hp] at hi; cases hi
      · intro f hf
        obtain ⟨q, hq, _⟩ | ⟨i, hi⟩ := resolve_cases (n := (σ.items l).size) hw
        · rw [hf] at hq; cases hq
        · rw [hf] at hi
          cases hi
          exact ⟨⟨_, rfl, trivial⟩, E, List.prefix_rfl, hσ⟩
    · cases hr

theorem evalAdd_lands (hσ : σ.Typed E) (ht : t.isSubscriptable = true) (hv : Conforms E v t)
    (hw : Conforms E w t) : Lands E t (evalAdd v w) σ := by
  rcases subscriptable_cases ht with rfl | ⟨ts, rfl⟩
  · obtain ⟨a, rfl⟩ := hv
    obtain ⟨b, rfl⟩ := hw
    exact Lands.pure hσ ⟨_, rfl⟩
  · obtain ⟨l, rfl, hl⟩ := hv
    obtain ⟨m, rfl, hm⟩ := hw
    refine Lands.makeList hσ fun v hv => ?_
    rcases Array.mem_append.mp hv with hv | hv
    · exact hσ.items hl v hv
    · exact hσ.items hm v hv

theorem repeat?_lands {n : Int64} (hσ : σ.Typed E) (ht : t.isSubscriptable = true) (hv : Conforms E v t) :
    ∃ x, repeat? v (some n) = some x ∧ Lands E t x σ := by
  rcases subscriptable_cases ht with rfl | ⟨ts, rfl⟩
  · obtain ⟨s, rfl⟩ := hv
    refine ⟨_, rfl, ?_⟩
    unfold Lands
    simp only [Ends.bind_iff, Ends.orFault_iff, Ends.pure_iff, Sequence.repeatString]
    split
    · refine ⟨by rintro _ ⟨⟩, ?_⟩
      rintro _ ⟨⟩
      exact ⟨⟨_, rfl, trivial⟩, E, List.prefix_rfl, hσ⟩
    · exact ⟨fun s' _ => ⟨E, List.prefix_rfl, hσ, ⟨s', rfl⟩⟩, by rintro _ ⟨⟩⟩
  · obtain ⟨l, rfl, hl⟩ := hv
    refine ⟨_, rfl, ?_⟩
    unfold Lands
    simp only [Ends.bind_iff, Ends.get_iff, Ends.orFault_iff, Sequence.repeatItems]
    split
    · refine ⟨by rintro _ ⟨⟩, ?_⟩
      rintro _ ⟨⟩
      exact ⟨⟨_, rfl, trivial⟩, E, List.prefix_rfl, hσ⟩
    · refine ⟨?_, by rintro _ ⟨⟩⟩
      rintro items ⟨⟩
      refine Lands.makeList hσ fun v hv => hσ.items hl v ?_
      exact Array.mem_toList_iff.mp (mem_copies (List.mem_toArray.mp hv))

theorem repeat?_numeric {n : Option Int64} (ht : t.isNumeric = true) (hv : Conforms E v t) :
    repeat? v n = none := by
  rcases numeric_cases ht with rfl | rfl | rfl <;> obtain ⟨_, rfl⟩ := hv <;> rfl

/-! ## Binary operators -/

theorem evalAdd_numeric (ht : t.isNumeric = true) (hv : Conforms E v t) :
    evalAdd v w = orFault (Arithmetic.add v w) := by
  rcases numeric_cases ht with rfl | rfl | rfl <;> obtain ⟨_, rfl⟩ := hv <;> rfl

theorem evalMul_numeric (ht : t.isNumeric = true) (hu : u.isNumeric = true) (hv : Conforms E v t)
    (hw : Conforms E w u) : evalMul v w = orFault (Arithmetic.mul v w) := by
  simp only [evalMul, repeat?_numeric ht hv, repeat?_numeric hu hw]

theorem isRelational_of_isBitwise (h : Typing.isBitwise op = true) : op.isRelational = false := by
  revert h
  cases op <;> decide

theorem evalBits_lands {f : Int64 → Int64 → Except Fault Int64} {right : EStateM Error Store Value}
    (hb : Typing.isBitwise op = true) (hf : ∀ a b, FailsByValue (f a b)) (ht : t.isNumeric = true)
    (hu : u.isNumeric = true) (hR : Typing.Regular op t u) (hv : Conforms E v t)
    (hr : Lands E u right σ) :
    Lands E (Typing.numeric op t u) (do orFault (Arithmetic.onInts op f v (← right))) σ := by
  have hn : Typing.numeric op t u = .int := by
    simp [Typing.numeric, isRelational_of_isBitwise hb, hR.bits hb]
  rw [hn]
  refine hr.bind fun _ w _ hE hσ' hw => .orFault hσ' ?_
  refine .onInts hf ?_ ?_ (hv.mono hE) hw
  · exact (numeric_cases ht).imp_right fun h => h.resolve_left (hR.bits hb).1
  · exact (numeric_cases hu).imp_right fun h => h.resolve_left (hR.bits hb).2

theorem evalNumeric_lands {right : EStateM Error Store Value} (ha : Typing.takesAny op = false)
    (ht : t.isNumeric = true) (hu : u.isNumeric = true) (hR : Typing.Regular op t u)
    (hv : Conforms E v t) (hr : Lands E u right σ) :
    Lands E (Typing.numeric op t u) (evalBinary op v right) σ := by
  unfold evalBinary
  cases op with
  | eq => cases ha
  | ne => cases ha
  | and => cases ha
  | or => cases ha
  | gt => exact hr.bind fun _ w _ hE hσ' hw => .orFault hσ' (.relate ht hu (hv.mono hE) hw)
  | lt => exact hr.bind fun _ w _ hE hσ' hw => .orFault hσ' (.relate ht hu (hv.mono hE) hw)
  | ge => exact hr.bind fun _ w _ hE hσ' hw => .orFault hσ' (.relate ht hu (hv.mono hE) hw)
  | le => exact hr.bind fun _ w _ hE hσ' hw => .orFault hσ' (.relate ht hu (hv.mono hE) hw)
  | add =>
      refine hr.bind fun _ w _ hE hσ' hw => ?_
      rw [evalAdd_numeric ht (hv.mono hE)]
      exact .orFault hσ' (.onNumbers (fun _ _ => .exactly _) (fun _ _ => .ok _) ht hu (hv.mono hE) hw)
  | mul =>
      refine hr.bind fun _ w _ hE hσ' hw => ?_
      rw [evalMul_numeric ht hu (hv.mono hE) hw]
      exact .orFault hσ' (.onNumbers (fun _ _ => .exactly _) (fun _ _ => .ok _) ht hu (hv.mono hE) hw)
  | sub =>
      refine hr.bind fun _ w _ hE hσ' hw => .orFault hσ' ?_
      exact .onNumbers (fun _ _ => .exactly _) (fun _ _ => .ok _) ht hu (hv.mono hE) hw
  | mod =>
      refine hr.bind fun _ w _ hE hσ' hw => .orFault hσ' ?_
      exact .onNumbers .intRem .floatRem ht hu (hv.mono hE) hw
  | div =>
      refine hr.bind fun _ w _ hE hσ' hw => .orFault hσ' ?_
      have hf : Typing.numeric .div t u = .float := by
        simp [Typing.numeric, BinaryOp.isRelational, hR.div rfl]
      rw [hf]
      exact .onFloats .floatDiv ht hu (hv.mono hE) hw
  | shl => exact evalBits_lands rfl .shiftLeft ht hu hR hv hr
  | shr => exact evalBits_lands rfl .shiftRight ht hu hR hv hr
  | bitAnd => exact evalBits_lands rfl (fun _ _ => .ok _) ht hu hR hv hr
  | bitOr => exact evalBits_lands rfl (fun _ _ => .ok _) ht hu hR hv hr
  | bitXor => exact evalBits_lands rfl (fun _ _ => .ok _) ht hu hR hv hr

theorem evalAny_lands {right : EStateM Error Store Value} (ha : Typing.takesAny op = true)
    (hσ : σ.Typed E) (hr : Lands E u right σ) : Lands E .bool (evalBinary op v right) σ := by
  -- Whatever the right operand is, a question about it is answered in the store it leaves.
  have hask : ∀ q : Store → Value → Bool, Lands E .bool (do
      let w ← right
      return .bool (q (← get) w)) σ :=
    fun q => hr.bind fun _ w _ _ hσ' _ => Lands.pure hσ' ⟨_, rfl⟩
  unfold evalBinary
  cases op with
  | eq => exact hask fun s w => s.equal v w
  | ne => exact hask fun s w => !s.equal v w
  | and =>
      unfold Lands
      rw [Ends.bind_iff, Ends.get_iff]
      split
      · exact hask fun s w => s.isTruthy w
      · exact Lands.pure hσ ⟨_, rfl⟩
  | or =>
      unfold Lands
      rw [Ends.bind_iff, Ends.get_iff]
      split
      · exact Lands.pure hσ ⟨_, rfl⟩
      · exact hask fun s w => s.isTruthy w
  | _ => cases ha

theorem evalBinary_lands {right : EStateM Error Store Value} {r : Ty} (hσ : σ.Typed E)
    (hc : Typing.binary op t u = .ok r) (hR : Typing.Regular op t u) (hv : Conforms E v t)
    (hr : Lands E u right σ) : Lands E r (evalBinary op v right) σ := by
  unfold Typing.binary at hc
  split at hc
  · rename_i ha
    cases hc
    exact evalAny_lands ha hσ hr
  rename_i ha
  split at hc
  · rename_i hn
    cases hc
    rw [Bool.and_eq_true] at hn
    exact evalNumeric_lands (Bool.eq_false_iff.mpr ha) hn.1 hn.2 hR hv hr
  split at hc
  · rename_i h
    cases hc
    obtain ⟨rfl, ht, hu⟩ := h
    have htu := hR.sum rfl ht hu
    subst htu
    exact hr.bind fun _ w _ hE hσ' hw => evalAdd_lands hσ' ht (hv.mono hE) hw
  split at hc
  · rename_i h
    cases hc
    obtain ⟨rfl, rfl, hu⟩ := h
    refine hr.bind fun _ w _ hE hσ' hw => ?_
    obtain ⟨n, rfl⟩ := hv
    obtain ⟨x, hx, hl⟩ := repeat?_lands (n := n) hσ' hu hw
    have hn : repeat? (.int n) w.asInt? = none := rfl
    have he : evalMul (.int n) w = x := by rw [evalMul, hn, Value.asInt?, hx]
    rw [he]
    exact hl
  split at hc
  · rename_i h
    cases hc
    obtain ⟨rfl, ht, rfl⟩ := h
    refine hr.bind fun _ w _ hE hσ' hw => ?_
    obtain ⟨n, rfl⟩ := hw
    obtain ⟨x, hx, hl⟩ := repeat?_lands (n := n) hσ' ht (hv.mono hE)
    have he : evalMul v (.int n) = x := by simp only [evalMul, Value.asInt?, hx]
    rw [he]
    exact hl
  · cases hc

/-! ## Expressions -/

theorem typeOf_unary_eq_ok {G : TypeScopes} {j : ScopeId} {op : UnaryOp} {e : Expr} :
    typeOf G j (.unary op e) = .ok t ↔ ∃ u, typeOf G j e = .ok u ∧ Typing.unary op u = .ok t := by
  simp only [typeOf]
  cases typeOf G j e with
  | error err => simp [bind, Except.bind]
  | ok u => cases h : Typing.unary op u <;> simp [bind, Except.bind, Typing.orError, h]

theorem typeOf_binary_eq_ok {G : TypeScopes} {j : ScopeId} {l r : Expr} :
    typeOf G j (.binary op l r) = .ok t ↔
      ∃ a b, typeOf G j l = .ok a ∧ typeOf G j r = .ok b ∧ Typing.binary op a b = .ok t := by
  simp only [typeOf]
  cases typeOf G j l with
  | error err => simp [bind, Except.bind]
  | ok a =>
      cases typeOf G j r with
      | error err => simp [bind, Except.bind]
      | ok b => cases h : Typing.binary op a b <;> simp [bind, Except.bind, Typing.orError, h]

theorem typeOf_index_eq_ok {G : TypeScopes} {j : ScopeId} {b k : Expr} :
    typeOf G j (.index b k) = .ok t ↔
      ∃ a c, typeOf G j b = .ok a ∧ typeOf G j k = .ok c ∧ Typing.index a c = .ok t := by
  simp only [typeOf]
  cases typeOf G j b with
  | error err => simp [bind, Except.bind]
  | ok a =>
      cases typeOf G j k with
      | error err => simp [bind, Except.bind]
      | ok c => cases h : Typing.index a c <;> simp [bind, Except.bind, Typing.orError, h]

theorem typeOf_var_eq_ok {G : TypeScopes} {j : ScopeId} {x : String} :
    typeOf G j (.var x) = .ok t ↔ G.find? j x = some t := by
  simp only [typeOf, Scopes.find]
  cases G.find? j x <;> simp

theorem readVar_lands {G : TypeScopes} {i j : ScopeId} {x : String}
    (ha : Agree (Conforms E) σ.scopes i G j) (hσ : σ.Typed E) (ht : G.find? j x = some t) :
    Lands E t (readVar i x) σ := by
  have hx := ha.find? x
  rw [ht] at hx
  unfold Lands Ends readVar Scopes.find
  cases hs : σ.scopes.find? i x with
  | none => rw [hs] at hx; cases hx
  | some v =>
      rw [hs] at hx
      cases hx with
      | some hv => exact ⟨E, List.prefix_rfl, hσ, hv⟩

/-- An expression evaluates to a value of its type, or fails for a reason that lies in the values. -/
theorem eval_lands {G : TypeScopes} {i j : ScopeId} : {E : ElementTypes} → {t : Ty} → {σ : Store} →
    (e : Expr) → Agree (Conforms E) σ.scopes i G j → σ.Typed E → Typing.Plain G j e →
    typeOf G j e = .ok t → Lands E t (eval i e) σ
  | E, _, σ, .constant l, _, hσ, _, ht => by
      cases ht
      refine Lands.pure hσ ?_
      cases l with
      | int n => exact ⟨n, rfl⟩
      | float x => exact ⟨x, rfl⟩
      | bool b => exact ⟨b, rfl⟩
      | str s => exact ⟨s, rfl⟩
      | null => rfl
  | E, _, σ, .var x, ha, hσ, _, ht => readVar_lands ha hσ (typeOf_var_eq_ok.mp ht)
  | E, _, σ, .unary op e, ha, hσ, hp, ht => by
      obtain ⟨u, hu, ht⟩ := typeOf_unary_eq_ok.mp ht
      simp only [eval]
      refine (eval_lands e ha hσ hp.1 hu).bind fun E₁ v σ₁ _ hσ₁ hv => ?_
      exact evalUnary_lands hσ₁ hv ht fun ho hf => hp.2 ho (hf ▸ hu)
  | E, _, σ, .binary op l r, ha, hσ, hp, ht => by
      obtain ⟨a, b, hl, hr, ht⟩ := typeOf_binary_eq_ok.mp ht
      simp only [eval]
      refine (eval_lands l ha hσ hp.1 hl).bind_eval ha fun E₁ v σ₁ ha₁ hE hσ₁ hv => ?_
      exact evalBinary_lands hσ₁ ht (hp.2.2 a b hl hr) hv (eval_lands r ha₁ hσ₁ hp.2.1 hr)
  | E, _, σ, .index b k, ha, hσ, hp, ht => by
      obtain ⟨a, c, hb, hk, ht⟩ := typeOf_index_eq_ok.mp ht
      simp only [eval]
      refine (eval_lands b ha hσ hp.1 hb).bind_eval ha fun E₁ v σ₁ ha₁ _ hσ₁ hv => ?_
      refine (eval_lands k ha₁ hσ₁ hp.2 hk).bind fun E₂ w σ₂ hE hσ₂ hw => ?_
      exact evalIndex_lands hσ₂ (hv.mono hE) hw ht

end ScriptEngine
