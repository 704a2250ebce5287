import ScriptEngine.Proofs.Evaluation.Integers
import ScriptEngine.Proofs.Execution.Assignment

/-!
# Repetition

A sequence times an integer is that many copies of the sequence, in whichever order the two stand. Whether the
copies take too many bytes is found out by products of words, each of which may be none, and the answer is
nevertheless that of the exact product. So copies add up: those for a sum are those for one summand and then those
for the other.
-/

namespace ScriptEngine

variable {s s' : Store} {q v w : Value} {xs ys : List Value} {c d : Int} {k : Int64} {m n : Nat}

/-- In the store `s` the value is a sequence of the elements `xs` and takes `n` bytes. The elements of a string are
its characters, as strings, and those of a list take 24 bytes each. -/
inductive Store.IsSequence (s : Store) : (q : Value) → (xs : List Value) → (n : Nat) → Prop where
  | str (t : String) : IsSequence s (.str t) (t.toList.map fun c => .str (.singleton c)) t.utf8ByteSize
  | list {l : ListId} : s.HasList l → IsSequence s (.list l) (s.items l).toList ((s.items l).size * 24)

theorem Store.IsSequence.grow (h : s.IsSequence q xs n) (hs : s.Grows s') : s'.IsSequence q xs n := by
  cases h with
  | str t => exact .str t
  | list hl =>
      rw [← hs.items hl]
      exact .list (hs.hasList hl)

theorem Store.IsSequence.toList_items {l : ListId} (h : s.IsSequence (.list l) xs n) :
    (s.items l).toList = xs := by
  cases h
  rfl

theorem Store.IsSequence.bytes_of_nil (h : s.IsSequence q [] n) : n = 0 := by
  generalize hxs : ([] : List Value) = xs at h
  cases h with
  | str t =>
      have ht : t = "" := by simpa using hxs.symm
      rw [ht]
      rfl
  | @list l _ =>
      have hsize : (s.items l).size = 0 := by rw [← Array.length_toList, ← hxs, List.length_nil]
      rw [hsize, Nat.zero_mul]

theorem isSequence_newList (s : Store) (items : Array Value) :
    (s.newList items).2.IsSequence (s.newList items).1 items.toList (items.size * 24) := by
  have hitems : (s.newList items).2.items ⟨s.lists.size⟩ = items := by simp [Store.items, Store.newList]
  have hlist : (s.newList items).2.HasList ⟨s.lists.size⟩ := by simp [Store.HasList, Store.newList]
  have h := Store.IsSequence.list hlist
  rwa [hitems] at h

/-! ## Copies -/

section

variable {α : Type}

theorem copies_eq (n : Nat) (xs : List α) : Sequence.copies n xs = (List.replicate n xs).flatten := by
  cases xs with
  | nil => simp [Sequence.copies]
  | cons x xs => simp [Sequence.copies]

/-- Copies go round in the list. -/
theorem getElem?_flatten_replicate {n j : Nat} {xs : List α} (hj : j < n * xs.length) :
    (List.replicate n xs).flatten[j]? = xs[j % xs.length]? := by
  induction n generalizing j with
  | zero => simp at hj
  | succ n ih =>
      rw [List.replicate_succ, List.flatten_cons]
      by_cases hfirst : j < xs.length
      · rw [List.getElem?_append_left hfirst, Nat.mod_eq_of_lt hfirst]
      · have hle : xs.length ≤ j := Nat.le_of_not_lt hfirst
        rw [List.getElem?_append_right hle, Nat.mod_eq_sub_mod hle]
        apply ih
        rw [Nat.succ_mul] at hj
        omega

end

theorem utf8ByteSize_copies (n : Nat) (t : String) :
    (String.ofList (List.replicate n t.toList).flatten).utf8ByteSize = t.utf8ByteSize * n := by
  induction n with
  | zero => rfl
  | succ n ih =>
      rw [List.replicate_succ, List.flatten_cons, String.ofList_append, String.utf8ByteSize_append, ih,
        String.ofList_toList, Nat.mul_succ, Nat.add_comm]

/-! ## The limit -/

/-- The test by words is the exact one: a product that is no word is beyond the limit anyway. -/
theorem exceeds_iff {length n size : Nat} (hsize : 0 < size) :
    Sequence.exceeds length n size = true ↔ 2 ^ 63 - 1 < length * n * size := by
  have hle : length * n ≤ length * n * size := Nat.le_mul_of_pos_right _ hsize
  unfold Sequence.exceeds Number.unsigned?
  by_cases htotal : length * n < 1 <<< 64
  · rw [if_pos htotal]
    dsimp only
    by_cases hbytes : length * n * size < 1 <<< 64
    · rw [if_pos hbytes]
      exact decide_eq_true_iff
    · rw [if_neg hbytes]
      exact iff_of_true rfl (by omega)
  · rw [if_neg htotal]
    exact iff_of_true rfl (by omega)

theorem repeatString_eq (t : String) (k : Int64) : Sequence.repeatString t k =
    if 2 ^ 63 - 1 < t.utf8ByteSize * k.toInt.toNat then .error .tooLong
    else .ok (String.ofList (List.replicate k.toInt.toNat t.toList).flatten) := by
  simp only [Sequence.repeatString, exceeds_iff Nat.one_pos, Nat.mul_one, copies_eq, Sequence.times]

theorem repeatItems_eq (items : Array Value) (k : Int64) : Sequence.repeatItems items k =
    if 2 ^ 63 - 1 < items.size * 24 * k.toInt.toNat then .error .tooLong
    else .ok (List.replicate k.toInt.toNat items.toList).flatten.toArray := by
  have hexceeds : Sequence.exceeds items.size k.toInt.toNat Sequence.itemBytes = true ↔
      2 ^ 63 - 1 < items.size * 24 * k.toInt.toNat := by
    rw [exceeds_iff (by decide), Nat.mul_right_comm]
    rfl
  simp only [Sequence.repeatItems, Sequence.times, hexceeds, copies_eq]

/-! ## Products and sums of sequences -/

/-- Nothing but the integer counts of what stands beside a sequence, and on either side. -/
theorem evalMul_eq_of_isSequence (hq : s.IsSequence q xs n) (hv : v.asInt? = some k) :
    evalMul q v = evalMul q (.int k) ∧ evalMul v q = evalMul q (.int k) := by
  have hleft : evalMul q v = evalMul q (.int k) := by
    rw [evalMul, hv]
    cases hq <;> rfl
  have hright : evalMul v q = evalMul q (.int k) := by
    rw [evalMul, repeat?_eq_none hv, hv]
    cases hq <;> rfl
  exact ⟨hleft, hright⟩

theorem evalMul_tooLong (hq : s.IsSequence q xs n) (hlimit : 2 ^ 63 - 1 < n * k.toInt.toNat) :
    evalMul q (.int k) s = .error (.ofFault .tooLong) s := by
  cases hq with
  | str t =>
      change (do return Value.str (← orFault (Sequence.repeatString t k)) : EStateM Error Store Value) s = _
      rw [repeatString_eq, if_pos hlimit]
      rfl
  | @list l hl =>
      change (orFault (Sequence.repeatItems (s.items l) k) >>= makeList) s = _
      rw [repeatItems_eq, if_pos hlimit]
      rfl

theorem evalMul_copies (hq : s.IsSequence q xs n) (hlimit : ¬2 ^ 63 - 1 < n * k.toInt.toNat) :
    ∃ w s', evalMul q (.int k) s = .ok w s' ∧ s.Grows s' ∧ w.kind = q.kind ∧
      s'.IsSequence w (List.replicate k.toInt.toNat xs).flatten (n * k.toInt.toNat) := by
  cases hq with
  | str t =>
      have h := Store.IsSequence.str (s := s) (String.ofList (List.replicate k.toInt.toNat t.toList).flatten)
      rw [utf8ByteSize_copies, String.toList_ofList, List.map_flatten, List.map_replicate] at h
      refine ⟨_, s, ?_, .refl s, by rfl, h⟩
      change (do return Value.str (← orFault (Sequence.repeatString t k)) : EStateM Error Store Value) s = _
      rw [repeatString_eq, if_neg hlimit]
      rfl
  | @list l hl =>
      have h := isSequence_newList s (List.replicate k.toInt.toNat (s.items l).toList).flatten.toArray
      rw [List.size_toArray, List.length_flatten, List.map_replicate, List.sum_replicate_nat, Array.length_toList,
        Nat.mul_comm k.toInt.toNat, Nat.mul_right_comm] at h
      refine ⟨_, _, ?_, .newList s _, by rfl, h⟩
      change (orFault (Sequence.repeatItems (s.items l) k) >>= makeList) s = _
      rw [repeatItems_eq, if_neg hlimit]
      rfl

theorem evalAdd_joins (hv : s.IsSequence v xs m) (hw : s.IsSequence w ys n) (hkind : v.kind = w.kind) :
    ∃ u s', evalAdd v w s = .ok u s' ∧ s.Grows s' ∧ u.kind = v.kind ∧ s'.IsSequence u (xs ++ ys) (m + n) := by
  cases hv with
  | str a =>
      cases hw with
      | str b =>
          have h := Store.IsSequence.str (s := s) (a ++ b)
          rw [String.toList_append, List.map_append, String.utf8ByteSize_append] at h
          exact ⟨_, _, rfl, .refl s, rfl, h⟩
      | list => cases hkind
  | @list l _ =>
      cases hw with
      | str => cases hkind
      | @list l' _ =>
          have h := isSequence_newList s (s.items l ++ s.items l')
          rw [Array.toList_append, Array.size_append, Nat.add_mul] at h
          exact ⟨_, _, rfl, .newList s _, rfl, h⟩

/-! ## Evaluation -/

section

variable {i : ScopeId} {l r e a b : Expr} {σ σ' τ : Store}

/-- The operands evaluate, one after the other, to the sequence `q` and to the integer `c`, in either order, and
leave the store `σ'`. -/
inductive Factors (i : ScopeId) (l r : Expr) (σ : Store) (q : Value) (c : Int) (σ' : Store) : Prop where
  | left {v : Value} {τ : Store} :
      eval i l σ = .ok q τ → eval i r τ = .ok v σ' → v.Means c → Factors i l r σ q c σ'
  | right {v : Value} {τ : Store} :
      eval i l σ = .ok v τ → eval i r τ = .ok q σ' → v.Means c → Factors i l r σ q c σ'

/-- The expression has the value `v`, now and when there are more lists, and makes no list itself. -/
def Gives (i : ScopeId) (e : Expr) (σ : Store) (v : Value) : Prop :=
  ∀ σ', σ.Grows σ' → eval i e σ' = .ok v σ'

theorem eval_binary {op : BinaryOp} (hl : eval i l σ = .ok v τ) :
    eval i (.binary op l r) σ = evalBinary op v (eval i r) τ := by
  rw [eval, bind_apply, hl]

theorem eval_add (hl : eval i l σ = .ok v τ) (hr : eval i r τ = .ok w σ') :
    eval i (.binary .add l r) σ = evalAdd v w σ' := by
  rw [eval_binary hl, evalBinary, bind_apply, hr]

theorem eval_mul (hl : eval i l σ = .ok v τ) (hr : eval i r τ = .ok w σ') :
    eval i (.binary .mul l r) σ = evalMul v w σ' := by
  rw [eval_binary hl, evalBinary, bind_apply, hr]

theorem Factors.eval_eq (h : Factors i l r σ q c σ') (hq : σ'.IsSequence q xs n) :
    ∃ k : Int64, k.toInt = c ∧ eval i (.binary .mul l r) σ = evalMul q (.int k) σ' := by
  cases h with
  | left hl hr hv =>
      obtain ⟨k, hk, hc⟩ := hv.asInt?
      refine ⟨k, hc, ?_⟩
      rw [eval_mul hl hr, (evalMul_eq_of_isSequence hq hk).1]
  | right hl hr hv =>
      obtain ⟨k, hk, hc⟩ := hv.asInt?
      refine ⟨k, hc, ?_⟩
      rw [eval_mul hl hr, (evalMul_eq_of_isSequence hq hk).2]

theorem eval_mul_tooLong (h : Factors i l r σ q c σ') (hq : σ'.IsSequence q xs n)
    (hlimit : 2 ^ 63 - 1 < n * c.toNat) :
    eval i (.binary .mul l r) σ = .error (.ofFault .tooLong) σ' := by
  obtain ⟨k, rfl, heval⟩ := h.eval_eq hq
  rw [heval, evalMul_tooLong hq hlimit]

theorem eval_mul_copies (h : Factors i l r σ q c σ') (hq : σ'.IsSequence q xs n)
    (hlimit : n * c.toNat ≤ 2 ^ 63 - 1) :
    ∃ w τ, eval i (.binary .mul l r) σ = .ok w τ ∧ σ'.Grows τ ∧ w.kind = q.kind ∧
      τ.IsSequence w (List.replicate c.toNat xs).flatten (n * c.toNat) := by
  obtain ⟨k, rfl, heval⟩ := h.eval_eq hq
  rw [heval]
  exact evalMul_copies hq (Nat.not_lt.2 hlimit)

/-- The copies of a list are in no list that was there, and each element is the very one that is repeated. -/
theorem eval_mul_items {x : ListId} (h : Factors i l r σ (.list x) c σ') (hx : σ'.HasList x)
    (heval : eval i (.binary .mul l r) σ = .ok w τ) :
    ∃ y, w = .list y ∧ ¬σ'.HasList y ∧ (τ.items y).size = c.toNat * (σ'.items x).size ∧
      ∀ j < (τ.items y).size, (τ.items y)[j]? = (σ'.items x)[j % (σ'.items x).size]? := by
  have hq := Store.IsSequence.list hx
  by_cases hlimit : 2 ^ 63 - 1 < (σ'.items x).size * 24 * c.toNat
  · rw [eval_mul_tooLong h hq hlimit] at heval
    cases heval
  · obtain ⟨_, _, hcopies, _, hkind, hseq⟩ := eval_mul_copies h hq (Nat.not_lt.1 hlimit)
    cases heval.symm.trans hcopies
    cases w with
    | list y =>
        have hnew : ¬σ'.HasList y := by
          obtain ⟨k, _, hmul⟩ := h.eval_eq hq
          exact (MakesNew.product _ _ σ' y τ (hmul.symm.trans heval)).1
        have hitems := hseq.toList_items
        have hsize : (τ.items y).size = c.toNat * (σ'.items x).size := by
          rw [← Array.length_toList, hitems, List.length_flatten, List.map_replicate, List.sum_replicate_nat,
            Array.length_toList]
        refine ⟨y, rfl, hnew, hsize, fun j hj => ?_⟩
        rw [hsize, ← Array.length_toList] at hj
        rw [← Array.getElem?_toList, hitems, getElem?_flatten_replicate hj, Array.length_toList,
          Array.getElem?_toList]
    | _ => cases hkind

theorem eval_mul_nothing (h : Factors i l r σ q c σ') (hq : σ'.IsSequence q xs n) (hnone : xs = [] ∨ c ≤ 0) :
    ∃ w τ, eval i (.binary .mul l r) σ = .ok w τ ∧ w.kind = q.kind ∧ τ.IsSequence w [] 0 := by
  have hbytes : n * c.toNat = 0 := by
    rcases hnone with rfl | hc
    · rw [hq.bytes_of_nil, Nat.zero_mul]
    · rw [Int.toNat_of_nonpos hc, Nat.mul_zero]
  have hcopies : (List.replicate c.toNat xs).flatten = [] := by
    rcases hnone with rfl | hc
    · simp
    · rw [Int.toNat_of_nonpos hc]
      rfl
  obtain ⟨w, τ, heval, _, hkind, hseq⟩ := eval_mul_copies h hq (by omega)
  rw [hbytes, hcopies] at hseq
  exact ⟨w, τ, heval, hkind, hseq⟩

/-- A sum of counts that is a word is a count. -/
theorem Gives.add (ha : Gives i a σ v) (hb : Gives i b σ w) (hv : v.Means c) (hw : w.Means d)
    (hlow : -2 ^ 63 ≤ c + d) (hhigh : c + d ≤ 2 ^ 63 - 1) :
    ∃ u, Gives i (.binary .add a b) σ u ∧ u.Means (c + d) := by
  obtain ⟨k, hk, rfl⟩ := hv.asInt?
  obtain ⟨k', hk', rfl⟩ := hw.asInt?
  have hsum : (exactly (k.toInt + k'.toInt)).map Int64.toInt = .ok (k.toInt + k'.toInt) := by
    rw [map_exactly, inRange, if_pos ⟨hlow, hhigh⟩]
  cases hexact : exactly (k.toInt + k'.toInt) with
  | error f =>
      rw [hexact] at hsum
      cases hsum
  | ok u =>
      rw [hexact] at hsum
      refine ⟨.int u, fun σ' hσ' => ?_, Except.ok.inj hsum ▸ .int u⟩
      rw [eval_add (ha σ' hσ') (hb σ' hσ'), evalAdd_eq hk, Arithmetic.add, onNumbers_eq hk hk', hexact]
      rfl

theorem eval_distributes (he : Gives i e σ q) (ha : Gives i a σ v) (hb : Gives i b σ w) (hv : v.Means c)
    (hw : w.Means d) (hq : σ.IsSequence q xs n) (hc : 0 ≤ c) (hd : 0 ≤ d) (hword : c + d ≤ 2 ^ 63 - 1)
    (hlimit : n * (c + d).toNat ≤ 2 ^ 63 - 1) :
    ∃ u τ u' τ', eval i (.binary .mul e (.binary .add a b)) σ = .ok u τ ∧
      eval i (.binary .add (.binary .mul e a) (.binary .mul e b)) σ = .ok u' τ' ∧
      u.kind = q.kind ∧ τ.IsSequence u (List.replicate (c + d).toNat xs).flatten (n * (c + d).toNat) ∧
      u'.kind = q.kind ∧ τ'.IsSequence u' (List.replicate (c + d).toNat xs).flatten (n * (c + d).toNat) := by
  have hsplit : (c + d).toNat = c.toNat + d.toNat := Int.toNat_add hc hd
  have hbytes : n * c.toNat + n * d.toNat ≤ 2 ^ 63 - 1 := by rwa [← Nat.mul_add, ← hsplit]
  obtain ⟨z, hz, hmeans⟩ := ha.add hb hv hw (by omega) hword
  obtain ⟨u, τ, hu, -, hukind, huseq⟩ :=
    eval_mul_copies (.left (he σ (.refl σ)) (hz σ (.refl σ)) hmeans) hq hlimit
  obtain ⟨p, σ₁, hp, hσ₁, hpkind, hpseq⟩ :=
    eval_mul_copies (.left (he σ (.refl σ)) (ha σ (.refl σ)) hv) hq (by omega)
  obtain ⟨p', σ₂, hp', hσ₂, hpkind', hpseq'⟩ :=
    eval_mul_copies (.left (he σ₁ hσ₁) (hb σ₁ hσ₁) hw) (hq.grow hσ₁) (by omega)
  obtain ⟨u', τ', hu', -, hukind', huseq'⟩ :=
    evalAdd_joins (hpseq.grow hσ₂) hpseq' (hpkind.trans hpkind'.symm)
  refine ⟨u, τ, u', τ', hu, ?_, hukind, huseq, hukind'.trans hpkind, ?_⟩
  · rw [eval_add hp hp', hu']
  · rwa [hsplit, List.replicate_add, List.flatten_append, Nat.mul_add]

end

/-- A sequence times an integer is that many copies in order, and none for a negative one, unless they take more
than `2 ^ 63 - 1` bytes. It makes no difference on which side the integer stands, and whether it is one or a truth
value. The copies of a list are a new list of the very elements. Copies for a sum are those for the summands
joined. -/
theorem repetition_obeys_algebra (i : ScopeId) :
    (∀ l r σ q c σ' xs n, Factors i l r σ q c σ' → σ'.IsSequence q xs n → 2 ^ 63 - 1 < n * c.toNat →
      eval i (.binary .mul l r) σ = .error (.ofFault .tooLong) σ' ∧
      Fault.message .tooLong = "repeated sequence is too long") ∧
    (∀ l r σ q c σ' xs n, Factors i l r σ q c σ' → σ'.IsSequence q xs n → n * c.toNat ≤ 2 ^ 63 - 1 →
      ∃ w τ, eval i (.binary .mul l r) σ = .ok w τ ∧ σ'.Grows τ ∧ w.kind = q.kind ∧
        τ.IsSequence w (List.replicate c.toNat xs).flatten (n * c.toNat)) ∧
    (∀ l r σ x c σ' w τ, Factors i l r σ (.list x) c σ' → σ'.HasList x → eval i (.binary .mul l r) σ = .ok w τ →
      ∃ y, w = .list y ∧ ¬σ'.HasList y ∧ (τ.items y).size = c.toNat * (σ'.items x).size ∧
        ∀ j < (τ.items y).size, (τ.items y)[j]? = (σ'.items x)[j % (σ'.items x).size]?) ∧
    (∀ l r l' r' σ τ q c σ' xs n, Factors i l r σ q c σ' → Factors i l' r' τ q c σ' → σ'.IsSequence q xs n →
      eval i (.binary .mul l r) σ = eval i (.binary .mul l' r') τ) ∧
    (∀ l r σ q c σ' xs n, Factors i l r σ q c σ' → σ'.IsSequence q xs n → xs = [] ∨ c ≤ 0 →
      ∃ w τ, eval i (.binary .mul l r) σ = .ok w τ ∧ w.kind = q.kind ∧ τ.IsSequence w [] 0) ∧
    ∀ e a b σ q v w c d xs n, Gives i e σ q → Gives i a σ v → Gives i b σ w → v.Means c → w.Means d →
      σ.IsSequence q xs n → 0 ≤ c → 0 ≤ d → c + d ≤ 2 ^ 63 - 1 → n * (c + d).toNat ≤ 2 ^ 63 - 1 →
      ∃ u τ u' τ', eval i (.binary .mul e (.binary .add a b)) σ = .ok u τ ∧
        eval i (.binary .add (.binary .mul e a) (.binary .mul e b)) σ = .ok u' τ' ∧
        u.kind = q.kind ∧ τ.IsSequence u (List.replicate (c + d).toNat xs).flatten (n * (c + d).toNat) ∧
        u'.kind = q.kind ∧ τ'.IsSequence u' (List.replicate (c + d).toNat xs).flatten (n * (c + d).toNat) := by
  refine ⟨?_, ?_, ?_, ?_, ?_, ?_⟩
  · intro l r σ q c σ' xs n h hq hlimit
    exact ⟨eval_mul_tooLong h hq hlimit, rfl⟩
  · intro l r σ q c σ' xs n h hq hlimit
    exact eval_mul_copies h hq hlimit
  · intro l r σ x c σ' w τ h hx heval
    exact eval_mul_items h hx heval
  · intro l r l' r' σ τ q c σ' xs n h h' hq
    obtain ⟨k, hk, heval⟩ := h.eval_eq hq
    obtain ⟨k', hk', heval'⟩ := h'.eval_eq hq
    rw [heval, heval', Int64.toInt_inj.1 (hk.trans hk'.symm)]
  · intro l r σ q c σ' xs n h hq hnone
    exact eval_mul_nothing h hq hnone
  · intro e a b σ q v w c d xs n he ha hb hv hw hq hc hd hword hlimit
    exact eval_distributes he ha hb hv hw hq hc hd hword hlimit

/-- Two bytes `2 ^ 62` times are one too many, with the count first, and one time less they are not. The elements of
`x * (true + 2)` are those of `x * true + x * 2`. -/
theorem two_bytes_at_limit :
    eval ⟨0⟩ (.binary .mul (.constant (.int 4611686018427387904)) (.constant (.str "ab"))) .empty =
      .error (.ofFault .tooLong) .empty ∧
    (∃ w τ, eval ⟨0⟩ (.binary .mul (.constant (.str "ab")) (.constant (.int 4611686018427387903))) .empty =
      .ok w τ) ∧
    ∃ u τ u' τ' ys m,
      eval ⟨0⟩ (.binary .mul (.var "x") (.binary .add (.constant (.bool true)) (.constant (.int 2)))) oneList =
        .ok u τ ∧
      eval ⟨0⟩ (.binary .add (.binary .mul (.var "x") (.constant (.bool true)))
        (.binary .mul (.var "x") (.constant (.int 2)))) oneList = .ok u' τ' ∧
      τ.IsSequence u ys m ∧ τ'.IsSequence u' ys m := by
  obtain ⟨hlong, hcopies, _, _, _, hsum⟩ := repetition_obeys_algebra ⟨0⟩
  refine ⟨?_, ?_, ?_⟩
  · exact (hlong _ _ _ _ _ _ _ _ (.right rfl rfl (.int _)) (.str "ab") (by decide)).1
  · obtain ⟨w, τ, heval, _⟩ := hcopies (.constant (.str "ab")) (.constant (.int 4611686018427387903)) .empty _ _ _
      _ _ (.left rfl rfl (.int _)) (.str "ab") (by decide)
    exact ⟨w, τ, heval⟩
  · have hx : Gives ⟨0⟩ (.var "x") oneList (.list ⟨0⟩) := by
      intro σ hσ
      rw [eval, readVar, hσ.scopes]
      rfl
    have hlist : oneList.HasList ⟨0⟩ := Nat.one_pos
    obtain ⟨u, τ, u', τ', hu, hu', _, hseq, _, hseq'⟩ :=
      hsum _ (.constant (.bool true)) (.constant (.int 2)) _ _ _ _ _ _ _ _ hx (fun _ _ => rfl) (fun _ _ => rfl)
        .true (.int 2) (.list hlist) (by decide) (by decide) (by decide) (by decide)
    exact ⟨u, τ, u', τ', _, _, hu, hu', hseq, hseq'⟩

end ScriptEngine
