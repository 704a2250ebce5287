import Mathlib.Data.String.Basic
import Mathlib.Tactic.IntervalCases
import ScriptEngine.Proofs.Value.Contents

/-!
# Equality and order

The relational operators take two strings, or two integers or truth values, and floats. On operands that are no
floats exactly one of `<`, `==` and `>` holds, where strings are ordered by their code points.
-/

namespace ScriptEngine

variable {s : Store} {u v w : Value} {op : BinaryOp}

/-- The code points of a string. -/
def codePoints (t : String) : List Nat := t.toList.map Char.toNat

/-- Two strings, or two integers or truth values. -/
inductive Value.Comparable : Value → Value → Prop where
  | strings (a b : String) : Comparable (.str a) (.str b)
  | integers {v w : Value} {m n : Int} : v.Means m → w.Means n → Comparable v w

/-- Strings stand in the lexicographic order of their code points, integers in their own order. -/
inductive Value.Less : Value → Value → Prop where
  | strings {a b : String} : codePoints a < codePoints b → Less (.str a) (.str b)
  | integers {v w : Value} {m n : Int} : v.Means m → w.Means n → m < n → Less v w

/-- The operator, between the two values, gives the truth value `b`. -/
def Store.Answers (s : Store) (op : BinaryOp) (v w : Value) (b : Bool) : Prop :=
  evalBinary op v (pure w) s = .ok (.bool b) s

/-! ## Comparisons -/

theorem map_toNat_lt_iff : (cs ds : List Char) → (cs.map Char.toNat < ds.map Char.toNat ↔ cs < ds)
  | [], [] => by simp
  | [], _ :: _ => by simp
  | _ :: _, [] => by simp
  | c :: cs, d :: ds => by
      have hlt : c.toNat < d.toNat ↔ c < d := Iff.rfl
      have heq : c.toNat = d.toNat ↔ c = d := Char.toNat_inj
      rw [List.map_cons, List.map_cons, List.cons_lt_cons_iff, List.cons_lt_cons_iff, map_toNat_lt_iff cs ds, hlt, heq]

theorem codePoints_lt_iff {a b : String} : codePoints a < codePoints b ↔ a < b :=
  (map_toNat_lt_iff a.toList b.toList).trans String.lt_iff_toList_lt.symm

theorem Value.Means.unique {m n : Int} (hm : v.Means m) (hn : v.Means n) : m = n := by
  cases hm <;> cases hn <;> rfl

theorem Value.Means.unfolds {n : Int} (h : v.Means n) : s.Unfolds v (.number n) := by
  cases h with
  | int n => exact .int n
  | true => exact .bool _
  | false => exact .bool _

theorem Value.Less.comparable (h : v.Less w) : v.Comparable w := by
  cases h with
  | strings _ => exact .strings _ _
  | integers hv hw _ => exact .integers hv hw

theorem Value.Less.trans (huv : u.Less v) (hvw : v.Less w) : u.Less w := by
  cases huv with
  | strings hab =>
      cases hvw with
      | strings hbc => exact .strings (lt_trans hab hbc)
      | integers hb _ _ => cases hb
  | integers hu hv hlt =>
      cases hvw with
      | strings _ => cases hv
      | integers hv' hw hlt' => exact .integers hu hw (hlt.trans (hv.unique hv' ▸ hlt'))

theorem Value.less_strings_iff {a b : String} : Value.Less (.str a) (.str b) ↔ codePoints a < codePoints b := by
  constructor
  · rintro (h | ⟨ha, _, _⟩)
    · exact h
    · cases ha
  · exact .strings

theorem Value.less_integers_iff {m n : Int} (hv : v.Means m) (hw : w.Means n) : v.Less w ↔ m < n := by
  constructor
  · rintro (_ | ⟨hv', hw', hlt⟩)
    · cases hv
    · rwa [hv.unique hv', hw.unique hw']
  · exact .integers hv hw

theorem Comparison.ofStrings_iff (a b : String) :
    (ofStrings a b = .less ↔ a < b) ∧ (ofStrings a b = .equal ↔ a = b) ∧ ofStrings a b ≠ .unordered := by
  unfold ofStrings
  split
  · rename_i hlt
    simp [hlt, hlt.ne]
  · rename_i hlt
    split <;> simp_all

theorem Comparison.ofInts_iff (a b : Int64) :
    (ofInts a b = .less ↔ a.toInt < b.toInt) ∧ (ofInts a b = .equal ↔ a.toInt = b.toInt) ∧ ofInts a b ≠ .unordered := by
  unfold ofInts
  rw [Int64.toInt_inj]
  split
  · rename_i hlt
    have hne : a ≠ b := fun h => (Int64.lt_iff_toInt_lt.mp hlt).ne (congrArg _ h)
    simp [Int64.lt_iff_toInt_lt.mp hlt, hne]
  · rename_i hlt
    split <;> simp_all [Int64.lt_iff_toInt_lt]

/-- How two values stand to each other is decided by their order and their equality. -/
theorem Value.Comparable.ofValues? (s : Store) (h : v.Comparable w) :
    ∃ c, Comparison.ofValues? v w = some c ∧ (c = .less ↔ v.Less w) ∧ (c = .equal ↔ s.equal v w = true) ∧
      c ≠ .unordered := by
  cases h with
  | strings a b =>
      have heq : s.equal (.str a) (.str b) = true ↔ a = b := by simp [Store.equal, Store.equalWithin]
      rw [less_strings_iff, codePoints_lt_iff, heq]
      exact ⟨_, rfl, Comparison.ofStrings_iff a b⟩
  | @integers v w m n hv hw =>
      have hflat : ∀ k l, v = .list k → w ≠ .list l := by
        rintro _ _ rfl
        cases hv
      have heq : s.equal v w = true ↔ m = n :=
        (hv.unfolds.equalWithin_iff hw.unfolds hflat _).trans (Contents.number.injEq _ _).to_iff
      rw [less_integers_iff hv hw, heq]
      obtain ⟨a, ha, rfl⟩ := hv.asInt?
      obtain ⟨b, hb, rfl⟩ := hw.asInt?
      refine ⟨_, ?_, Comparison.ofInts_iff a b⟩
      unfold Comparison.ofValues?
      split
      · cases hv
      · rw [ha, hb]

theorem Value.means_of_asInt? {a : Int64} (h : v.asInt? = some a) : v.Means a.toInt := by
  cases v with
  | int n =>
      cases h
      exact .int _
  | bool b =>
      cases b
      · cases h
        exact .false
      · cases h
        exact .true
  | _ => cases h

/-- Only floats and what has an integer view can be seen as floats. -/
theorem Value.means_of_asFloat? {x : Float} (hv : ∀ x, v ≠ .float x) (h : v.asFloat? = some x) : ∃ n, v.Means n := by
  have hint : v.asFloat? = v.asInt?.map Int64.toFloat := by
    cases v with
    | float y => exact absurd rfl (hv y)
    | _ => rfl
  obtain ⟨a, ha, _⟩ := Option.map_eq_some_iff.mp (hint ▸ h)
  exact ⟨_, means_of_asInt? ha⟩

theorem comparable_iff (hv : ∀ x, v ≠ .float x) (hw : ∀ x, w ≠ .float x) :
    v.Comparable w ↔ (Comparison.ofValues? v w).isSome = true := by
  constructor
  · intro h
    obtain ⟨c, hc, _⟩ := h.ofValues? .empty
    rw [hc]
    rfl
  · intro h
    unfold Comparison.ofValues? at h
    split at h
    · exact .strings _ _
    · split at h
      · rename_i ha hb
        exact .integers (Value.means_of_asInt? ha) (Value.means_of_asInt? hb)
      · split at h
        · rename_i hx hy
          obtain ⟨m, hm⟩ := Value.means_of_asFloat? hv hx
          obtain ⟨n, hn⟩ := Value.means_of_asFloat? hw hy
          exact .integers hm hn
        · cases h

/-! ## Answers -/

/-- A relational operator accepts the operands that stand to each other in some way. -/
theorem accepts_iff (hop : op.isRelational = true) :
    (∃ u s', evalBinary op v (pure w) s = .ok u s') ↔ (Comparison.ofValues? v w).isSome = true := by
  cases op <;> cases hop <;> cases hc : Comparison.ofValues? v w <;> simp [evalBinary, relate, hc, orFault]

theorem answers_of_compare {c : Comparison} (hc : Comparison.ofValues? v w = some c) :
    s.Answers .lt v w c.isLt ∧ s.Answers .gt v w c.isGt ∧ s.Answers .le v w c.isLe ∧ s.Answers .ge v w c.isGe := by
  simp [Store.Answers, evalBinary, relate, hc, orFault]

theorem Store.Answers.unique {b b' : Bool} (h : s.Answers op v w b) (h' : s.Answers op v w b') : b = b' := by
  unfold Store.Answers at h h'
  rw [h] at h'
  cases h'
  rfl

/-- On operands that are no floats, `<` asks for the order of code points or integers. -/
theorem answers_lt_iff (hv : ∀ x, v ≠ .float x) (hw : ∀ x, w ≠ .float x) :
    s.Answers .lt v w true ↔ v.Less w := by
  constructor
  · intro h
    have hsome := (accepts_iff rfl).mp ⟨_, _, h⟩
    obtain ⟨c, hc, hless, _⟩ := ((comparable_iff hv hw).mpr hsome).ofValues? s
    have hlt : c.isLt = true := (answers_of_compare hc).1.unique h
    exact hless.mp (beq_iff_eq.mp hlt)
  · intro h
    obtain ⟨c, hc, hless, _⟩ := h.comparable.ofValues? s
    obtain rfl := hless.mpr h
    exact (answers_of_compare hc).1

/-- Of two comparable values one is less than the other, or they are equal. The remaining operators are negations. -/
theorem Value.Comparable.answers (s : Store) (h : v.Comparable w) :
    ∃ lt eq gt : Bool, s.Answers .lt v w lt ∧ s.Answers .eq v w eq ∧ s.Answers .gt v w gt ∧
      [lt, eq, gt].count true = 1 ∧ s.Answers .le v w (!gt) ∧ s.Answers .ge v w (!lt) := by
  obtain ⟨c, hc, _, heq, hordered⟩ := h.ofValues? s
  obtain ⟨hlt, hgt, hle, hge⟩ := answers_of_compare (s := s) hc
  have hequal : s.equal v w = (c == .equal) := by
    rw [Bool.eq_iff_iff, beq_iff_eq, heq]
  refine ⟨c.isLt, c == .equal, c.isGt, hlt, congrArg (fun b => EStateM.Result.ok (Value.bool b) s) hequal, hgt, ?_⟩
  cases c with
  | unordered => exact absurd rfl hordered
  | _ => exact ⟨rfl, hle, hge⟩

/-- Where no list is in itself, equality goes by contents. It is symmetric, and among values with no floats in them
it is an equivalence that respects truth and does not see which lists are identical. Of two operands that are no
floats and have an order, exactly one of `<`, `==` and `>` holds, and strings stand in the order of their code
points. -/
theorem equality_and_order_agree (h : s.Acyclic) :
    (∀ v w, s.Answers .eq v w (s.equal v w) ∧ s.equal v w = s.equal w v) ∧
    Equivalence (fun v w : {v // s.Plain v} => s.equal v w = true) ∧
    (∀ v w, s.Plain v → s.Plain w → s.equal v w = true → s.isTruthy v = s.isTruthy w) ∧
    (∀ l m, s.Plain (.list l) → s.Plain (.list m) →
      s.equal (.list l) (.list m) = (s.items l).toList.isEqv (s.items m).toList s.equal) ∧
    (∀ v, s.Plain v → ∃! c, s.Unfolds v c) ∧
    (∀ v w a b, s.Plain v → s.Plain w → s.Unfolds v a → s.Unfolds w b → (s.equal v w = true ↔ a = b)) ∧
    (∀ v w, (∀ x, v ≠ .float x) → (∀ x, w ≠ .float x) →
      (∀ op, op.isRelational = true → ((∃ u s', evalBinary op v (pure w) s = .ok u s') ↔ v.Comparable w)) ∧
      (v.Comparable w → ∃ lt eq gt : Bool, s.Answers .lt v w lt ∧ s.Answers .eq v w eq ∧ s.Answers .gt v w gt ∧
        [lt, eq, gt].count true = 1 ∧ s.Answers .le v w (!gt) ∧ s.Answers .ge v w (!lt)) ∧
      ∀ u, (∀ x, u ≠ .float x) → s.Answers .lt v w true → s.Answers .lt w u true → s.Answers .lt v u true) ∧
    ∀ a b, s.Answers .lt (.str a) (.str b) (decide (codePoints a < codePoints b)) := by
  refine ⟨fun v w => ⟨rfl, s.equal_comm v w⟩, h.equal_equivalence, fun v w hv hw heq => ?_,
    fun l m hl hm => h.equal_lists hl hm, fun v hv => ?_, fun v w a b hv hw ha hb => h.equal_iff hv hw ha hb,
    fun v w hv hw => ⟨fun op hop => ?_, fun hvw => hvw.answers s, fun u hu hvw hwu => ?_⟩, fun a b => ?_⟩
  · obtain ⟨a, ha⟩ := h.exists_unfolds hv
    obtain ⟨b, hb⟩ := h.exists_unfolds hw
    rw [ha.isTruthy, hb.isTruthy, (h.equal_iff hv hw ha hb).mp heq]
  · obtain ⟨c, hc⟩ := h.exists_unfolds hv
    exact ⟨c, hc, fun b hb => hb.unique hc⟩
  · rw [accepts_iff hop, comparable_iff hv hw]
  · rw [answers_lt_iff hv hw] at hvw
    rw [answers_lt_iff hw hu] at hwu
    exact (answers_lt_iff hv hu).mpr (hvw.trans hwu)
  · have hlt : (Comparison.ofStrings a b).isLt = decide (codePoints a < codePoints b) := by
      rw [Bool.eq_iff_iff, Comparison.isLt, beq_iff_eq, (Comparison.ofStrings_iff a b).1, decide_eq_true_iff,
        codePoints_lt_iff]
    exact hlt ▸ (answers_of_compare rfl).1

/-- The lists `p = [1, True]`, `q = [True, 1]`, `[p, p]` and `[p, q]`. -/
def fourLists : Store :=
  ⟨.empty, #[#[.int 1, .bool true], #[.bool true, .int 1], #[.list ⟨0⟩, .list ⟨0⟩], #[.list ⟨0⟩, .list ⟨1⟩]], #[]⟩

/-- The last two lists hold different lists in part, but they have the same contents, so they are equal. -/
theorem fourLists_agree :
    fourLists.Acyclic ∧ fourLists.Plain (.list ⟨2⟩) ∧ fourLists.Plain (.list ⟨3⟩) ∧
    fourLists.Answers .eq (.list ⟨2⟩) (.list ⟨3⟩) true ∧ fourLists.Answers .lt (.bool false) (.int 7) true := by
  have hnests : ∀ m l, fourLists.Nests m l → m.index < l.index := by
    rintro ⟨m⟩ ⟨l⟩ h
    have hl : l < 4 := Store.hasList_of_mem h
    show m < l
    interval_cases l <;> simp [Store.Nests, Store.items, fourLists] at h <;> omega
  have hlists : ∀ m l, fourLists.Nests m l → fourLists.HasList m := fun m l h =>
    (hnests m l h).trans (Store.hasList_of_mem h)
  have hacyclic : fourLists.Acyclic := Store.acyclic_of_descending hnests
  have hp : fourLists.Unfolds (.list ⟨0⟩) (.list [.number 1, .number 1]) :=
    .list (.cons (.int 1) (.cons (.bool true) .nil))
  have hq : fourLists.Unfolds (.list ⟨1⟩) (.list [.number 1, .number 1]) :=
    .list (.cons (.bool true) (.cons (.int 1) .nil))
  have hpp : fourLists.Unfolds (.list ⟨2⟩) (.list [.list [.number 1, .number 1], .list [.number 1, .number 1]]) :=
    .list (.cons hp (.cons hp .nil))
  have hpq : fourLists.Unfolds (.list ⟨3⟩) (.list [.list [.number 1, .number 1], .list [.number 1, .number 1]]) :=
    .list (.cons hp (.cons hq .nil))
  have hexist : ∀ l : ListId, l.index < 4 → fourLists.HasList l := fun _ hl => hl
  have hpp' : fourLists.Plain (.list ⟨2⟩) := hpp.plain hlists fun l hl => hexist l (by cases hl; decide)
  have hpq' : fourLists.Plain (.list ⟨3⟩) := hpq.plain hlists fun l hl => hexist l (by cases hl; decide)
  obtain ⟨heq, _, _, _, _, hcontents, hrelational, _⟩ := equality_and_order_agree hacyclic
  refine ⟨hacyclic, hpp', hpq', ?_, ?_⟩
  · have h := (heq (.list ⟨2⟩) (.list ⟨3⟩)).1
    rwa [(hcontents _ _ _ _ hpp' hpq' hpp hpq).mpr rfl] at h
  · have htrans := (hrelational (.bool false) (.bool true) (fun _ h => by cases h) (fun _ h => by cases h)).2.2
    exact htrans (.int 7) (fun _ h => by cases h) rfl rfl

end ScriptEngine
