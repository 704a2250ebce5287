import Mathlib.Data.Finset.Card
import Mathlib.Data.Finset.Range
import Mathlib.Logic.Relation
import ScriptEngine.Proofs.Evaluation.Integers
import ScriptEngine.Proofs.Execution.Assignment

/-!
# The contents of values

A list value is the identity of a list, but equality goes by what is in the lists. Where no list is in itself, a
value unfolds to a tree with no identities of lists left. Two values with no floats in them are equal exactly if
they unfold to the same tree; so for them equality is an equivalence relation, and whether two list values are
identical makes no difference.
-/

namespace ScriptEngine

open Relation

variable {s : Store} {l m : ListId} {u v w : Value}

/-! ## What is in a value -/

namespace Store

/-- The value `u` is `v`, or it is in the list `v` at some depth. -/
inductive Contains (s : Store) : Value → Value → Prop where
  | self {v : Value} : Contains s v v
  | item {l : ListId} {u v : Value} : v ∈ (s.items l).toList → Contains s v u → Contains s (.list l) u

/-- The list `m` is an element of the list `l`. -/
def Nests (s : Store) (m l : ListId) : Prop := .list m ∈ (s.items l).toList

/-- No list is in itself, at any depth. -/
def Acyclic (s : Store) : Prop := ∀ l, ¬TransGen s.Nests l l

/-- No float is in the value, at any depth, and the lists in it exist. -/
structure Plain (s : Store) (v : Value) : Prop where
  noFloat : ∀ x, ¬s.Contains v (.float x)
  hasList : ∀ l, s.Contains v (.list l) → s.HasList l

theorem Plain.item (h : s.Plain (.list l)) (hv : v ∈ (s.items l).toList) : s.Plain v :=
  ⟨fun x hx => h.noFloat x (.item hv hx), fun m hm => h.hasList m (.item hv hm)⟩

theorem hasList_of_mem (hv : v ∈ (s.items l).toList) : s.HasList l := by
  apply Classical.byContradiction
  intro hl
  rw [items_of_not_hasList hl] at hv
  cases hv

/-- Lists that hold only lists made before them are not in themselves. -/
theorem acyclic_of_descending (h : ∀ m l, s.Nests m l → m.index < l.index) : s.Acyclic := by
  intro l hl
  have hlt : ∀ m, TransGen s.Nests m l → m.index < l.index := fun m hm => by
    induction hm using TransGen.head_induction_on with
    | single hm => exact h _ _ hm
    | head hm _ ih => exact (h _ _ hm).trans ih
  exact Nat.lt_irrefl _ (hlt l hl)

/-! ## Heights -/

open Classical in
/-- The lists in the list `l` that exist, itself included. -/
noncomputable def listsIn (s : Store) (l : ListId) : Finset Nat :=
  (Finset.range s.lists.size).filter fun n => ReflTransGen s.Nests ⟨n⟩ l

theorem mem_listsIn : m.index ∈ s.listsIn l ↔ s.HasList m ∧ ReflTransGen s.Nests m l := by
  simp [listsIn, HasList]

/-- How many lists there are in a value. -/
noncomputable def height (s : Store) : Value → Nat
  | .list l => (s.listsIn l).card
  | _ => 0

theorem height_le (s : Store) (v : Value) : s.height v ≤ s.lists.size := by
  cases v with
  | list l =>
      refine (Finset.card_le_card fun n hn => ?_).trans (Finset.card_range _).le
      exact Finset.mem_range.mpr (mem_listsIn (m := ⟨n⟩).mp hn).1
  | _ => exact Nat.zero_le _

theorem height_pos (hl : s.HasList l) : 0 < s.height (.list l) :=
  Finset.card_pos.mpr ⟨l.index, mem_listsIn.mpr ⟨hl, .refl⟩⟩

/-- There are more lists in a list than in any of its elements: itself is one of them. -/
theorem Acyclic.height_lt (h : s.Acyclic) (hv : v ∈ (s.items l).toList) : s.height v < s.height (.list l) := by
  have hl : s.HasList l := hasList_of_mem hv
  cases v with
  | list m =>
      have hsub : s.listsIn m ⊆ s.listsIn l := fun n hn =>
        have ⟨hn, hnm⟩ := mem_listsIn (m := ⟨n⟩).mp hn
        mem_listsIn (m := ⟨n⟩).mpr ⟨hn, hnm.tail hv⟩
      have hself : l.index ∉ s.listsIn m := fun hlm => h l (TransGen.tail' (mem_listsIn.mp hlm).2 hv)
      refine Finset.card_lt_card (Finset.ssubset_iff_subset_ne.mpr ⟨hsub, fun heq => hself ?_⟩)
      rw [heq]
      exact mem_listsIn.mpr ⟨hl, .refl⟩
  | _ => exact height_pos hl

end Store

/-! ## Contents -/

/-- What a value unfolds to: truth values are read as numbers, and functions stand for themselves. -/
inductive Contents where
  | null
  | number (n : Int)
  | str (s : String)
  | list (items : List Contents)
  | function (f : FunctionId)

def Contents.isTruthy : Contents → Bool
  | .null => false
  | .number n => n != 0
  | .str t => !t.isEmpty
  | .list items => !items.isEmpty
  | .function _ => true

namespace Store

mutual

/-- The value has the contents. Floats have none. -/
inductive Unfolds (s : Store) : Value → Contents → Prop where
  | null : Unfolds s .null .null
  | int (n : Int64) : Unfolds s (.int n) (.number n.toInt)
  | bool (b : Bool) : Unfolds s (.bool b) (.number (if b then 1 else 0))
  | str (t : String) : Unfolds s (.str t) (.str t)
  | list {l : ListId} {cs : List Contents} : UnfoldAll s (s.items l).toList cs → Unfolds s (.list l) (.list cs)
  | function (f : FunctionId) : Unfolds s (.function f) (.function f)

/-- The values have the contents, one by one. -/
inductive UnfoldAll (s : Store) : List Value → List Contents → Prop where
  | nil : UnfoldAll s [] []
  | cons {v : Value} {c : Contents} {vs : List Value} {cs : List Contents} :
    Unfolds s v c → UnfoldAll s vs cs → UnfoldAll s (v :: vs) (c :: cs)

end

mutual

theorem Unfolds.unique {v : Value} {a b : Contents} : s.Unfolds v a → s.Unfolds v b → a = b
  | .null, .null => rfl
  | .int _, .int _ => rfl
  | .bool _, .bool _ => rfl
  | .str _, .str _ => rfl
  | .list h, .list h' => by rw [h.unique h']
  | .function _, .function _ => rfl

theorem UnfoldAll.unique {vs : List Value} {as bs : List Contents} : s.UnfoldAll vs as → s.UnfoldAll vs bs → as = bs
  | .nil, .nil => rfl
  | .cons h hs, .cons h' hs' => by rw [h.unique h', hs.unique hs']

end

theorem exists_unfoldAll : {vs : List Value} → (∀ v ∈ vs, ∃ c, s.Unfolds v c) → ∃ cs, s.UnfoldAll vs cs
  | [], _ => ⟨[], .nil⟩
  | v :: vs, h => by
      obtain ⟨⟨c, hc⟩, hvs⟩ := List.forall_mem_cons.mp h
      obtain ⟨cs, hcs⟩ := exists_unfoldAll hvs
      exact ⟨c :: cs, .cons hc hcs⟩

/-- A value with no floats in it unfolds where no list is in itself. -/
theorem Acyclic.exists_unfolds (h : s.Acyclic) : {v : Value} → s.Plain v → ∃ c, s.Unfolds v c
  | .null, _ => ⟨_, .null⟩
  | .int n, _ => ⟨_, .int n⟩
  | .float x, hv => absurd .self (hv.noFloat x)
  | .bool b, _ => ⟨_, .bool b⟩
  | .str t, _ => ⟨_, .str t⟩
  | .function f, _ => ⟨_, .function f⟩
  | .list l, hv => by
      have hitems : ∀ v ∈ (s.items l).toList, ∃ c, s.Unfolds v c := fun v hv' => h.exists_unfolds (hv.item hv')
      obtain ⟨cs, hcs⟩ := exists_unfoldAll hitems
      exact ⟨_, .list hcs⟩
termination_by v => s.height v
decreasing_by exact h.height_lt hv'

theorem UnfoldAll.exists_unfolds {vs : List Value} {cs : List Contents} :
    s.UnfoldAll vs cs → ∀ v ∈ vs, ∃ c, s.Unfolds v c
  | .nil, _, hv => nomatch hv
  | .cons h hs, _, hv => (List.mem_cons.mp hv).elim (fun heq => ⟨_, heq ▸ h⟩) (hs.exists_unfolds _)

/-- Whatever unfolds has no floats in it. -/
theorem Unfolds.plain {c : Contents} (hlists : ∀ m l, s.Nests m l → s.HasList m) (h : s.Unfolds v c)
    (hv : ∀ l, v = .list l → s.HasList l) : s.Plain v := by
  have hin : ∀ u, s.Contains v u → (∃ c, s.Unfolds u c) ∧ ∀ l, u = .list l → s.HasList l := by
    intro u hu
    induction hu generalizing c with
    | self => exact ⟨⟨c, h⟩, hv⟩
    | item hu _ ih =>
        cases h with | list hcs =>
        obtain ⟨_, hc⟩ := hcs.exists_unfolds _ hu
        exact ih hc fun m hm => hlists m _ (hm ▸ hu)
  refine ⟨fun x hx => ?_, fun l hl => (hin _ hl).2 l rfl⟩
  obtain ⟨⟨_, hc⟩, _⟩ := hin _ hx
  cases hc

theorem UnfoldAll.length_eq {vs : List Value} {cs : List Contents} : s.UnfoldAll vs cs → vs.length = cs.length
  | .nil => rfl
  | .cons _ hs => congrArg Nat.succ hs.length_eq

/-- Whether a value counts as true depends on its contents only. -/
theorem Unfolds.isTruthy {c : Contents} (h : s.Unfolds v c) : s.isTruthy v = c.isTruthy := by
  cases h with
  | int n => simp [Store.isTruthy, Contents.isTruthy, bne, ← Int64.toInt_inj]
  | bool b => cases b <;> rfl
  | @list l cs hcs =>
      have hempty : (s.items l).isEmpty = cs.isEmpty := by
        rw [Bool.eq_iff_iff, Array.isEmpty_iff_size_eq_zero, List.isEmpty_iff_length_eq_zero, ← Array.length_toList,
          hcs.length_eq]
      exact congrArg (!·) hempty
  | _ => rfl

/-! ## Equality -/

/-- Values of which one is no list are equal exactly if they have the same contents, whatever the depth. -/
theorem Unfolds.equalWithin_iff {a b : Contents} (ha : s.Unfolds v a) (hb : s.Unfolds w b)
    (hflat : ∀ l m, v = .list l → w ≠ .list m) (depth : Nat) : s.equalWithin depth v w = true ↔ a = b := by
  have hbit : ∀ b : Bool, (if b then 1 else 0 : Int64).toInt = if b then 1 else 0 := by
    intro b
    cases b <;> rfl
  cases ha with
  | null => cases hb <;> simp [equalWithin, Value.asInt?]
  | int n => cases hb <;> simp [equalWithin, Value.asInt?, ← Int64.toInt_inj, hbit]
  | bool b => cases hb <;> simp [equalWithin, Value.asInt?, ← Int64.toInt_inj, hbit]
  | str t => cases hb <;> simp [equalWithin, Value.asInt?]
  | function f => cases hb <;> simp [equalWithin, Value.asInt?]
  | @list l cs hcs =>
      cases hb with
      | @list m ds hds => exact absurd rfl (hflat l m rfl)
      | _ => simp [equalWithin, Value.asInt?]

/-- Lists are equal element by element exactly if they have the same contents. -/
theorem UnfoldAll.isEqv_iff {p : Value → Value → Bool} : {vs ws : List Value} → {as bs : List Contents} →
    s.UnfoldAll vs as → s.UnfoldAll ws bs →
    (∀ v ∈ vs, ∀ w ∈ ws, ∀ a b, s.Unfolds v a → s.Unfolds w b → (p v w = true ↔ a = b)) →
    (vs.isEqv ws p = true ↔ as = bs)
  | _, _, _, _, .nil, .nil, _ => by simp [List.isEqv]
  | _, _, _, _, .nil, .cons _ _, _ => by simp [List.isEqv]
  | _, _, _, _, .cons _ _, .nil, _ => by simp [List.isEqv]
  | _, _, _, _, .cons h hs, .cons h' hs', hp => by
      have hhead := hp _ List.mem_cons_self _ List.mem_cons_self _ _ h h'
      have htail := hs.isEqv_iff hs' fun v hv w hw => hp v (List.mem_cons_of_mem _ hv) w (List.mem_cons_of_mem _ hw)
      simp only [List.isEqv, Bool.and_eq_true, hhead, htail, List.cons.injEq]

/-- Where no list is in itself, values of some height are equal up to that depth exactly if they have the same
contents. In particular it makes no difference whether lists are identical. -/
theorem Acyclic.equalWithin_iff (h : s.Acyclic) {depth : Nat} {v w : Value} {a b : Contents} (hv : s.Plain v)
    (hw : s.Plain w) (ha : s.Unfolds v a) (hb : s.Unfolds w b) (hdv : s.height v ≤ depth) (hdw : s.height w ≤ depth) :
    s.equalWithin depth v w = true ↔ a = b := by
  induction depth generalizing v w a b with
  | zero =>
      refine ha.equalWithin_iff hb (fun l m hl _ => ?_) 0
      subst hl
      exact absurd (height_pos (hv.hasList l .self)) (Nat.not_lt.mpr hdv)
  | succ depth ih =>
      by_cases hflat : ∀ l m, v = .list l → w ≠ .list m
      · exact ha.equalWithin_iff hb hflat (depth + 1)
      obtain ⟨l, m, rfl, rfl⟩ : ∃ l m, v = .list l ∧ w = .list m := by simpa using hflat
      cases ha with | @list _ as has =>
      cases hb with | @list _ bs hbs =>
      have hitems : (s.items l).toList.isEqv (s.items m).toList (s.equalWithin depth) = true ↔ as = bs := by
        refine has.isEqv_iff hbs fun v hv' w hw' a b ha hb => ih (hv.item hv') (hw.item hw') ha hb ?_ ?_
        · exact Nat.le_of_lt_succ ((h.height_lt hv').trans_le hdv)
        · exact Nat.le_of_lt_succ ((h.height_lt hw').trans_le hdw)
      simp only [equalWithin, Bool.or_eq_true, Bool.and_eq_true, beq_iff_eq, hitems, Contents.list.injEq]
      constructor
      · rintro (rfl | ⟨_, heq⟩)
        · exact has.unique hbs
        · exact heq
      · rintro rfl
        exact .inr ⟨by rw [← Array.length_toList, has.length_eq, ← hbs.length_eq, Array.length_toList], rfl⟩

theorem Acyclic.equal_iff (h : s.Acyclic) {a b : Contents} (hv : s.Plain v) (hw : s.Plain w) (ha : s.Unfolds v a)
    (hb : s.Unfolds w b) : s.equal v w = true ↔ a = b :=
  have hdepth : ∀ v, s.height v ≤ s.lists.size * s.lists.size := fun v => (s.height_le v).trans (Nat.le_mul_self _)
  h.equalWithin_iff hv hw ha hb (hdepth v) (hdepth w)

/-- Identical or not, lists are equal exactly if they are element by element. -/
theorem Acyclic.equal_lists (h : s.Acyclic) (hl : s.Plain (.list l)) (hm : s.Plain (.list m)) :
    s.equal (.list l) (.list m) = (s.items l).toList.isEqv (s.items m).toList s.equal := by
  obtain ⟨a, ha⟩ := h.exists_unfolds hl
  obtain ⟨b, hb⟩ := h.exists_unfolds hm
  rw [Bool.eq_iff_iff, h.equal_iff hl hm ha hb]
  cases ha with | list has =>
  cases hb with | list hbs =>
  rw [Contents.list.injEq, has.isEqv_iff hbs fun v hv w hw a b => h.equal_iff (hl.item hv) (hm.item hw)]

/-- Among the values with no floats in them equality is an equivalence relation. -/
theorem Acyclic.equal_equivalence (h : s.Acyclic) : Equivalence fun v w : {v // s.Plain v} => s.equal v w = true := by
  have hcontents : ∀ v : {v // s.Plain v}, ∃ c, s.Unfolds v c := fun v => h.exists_unfolds v.2
  choose contents hunfolds using hcontents
  have hiff : ∀ v w : {v // s.Plain v}, s.equal v w = true ↔ contents v = contents w := fun v w =>
    h.equal_iff v.2 w.2 (hunfolds v) (hunfolds w)
  simp only [hiff]
  exact ⟨fun _ => rfl, Eq.symm, Eq.trans⟩

theorem isEqv_comm {α : Type} {p : α → α → Bool} (hp : ∀ a b, p a b = p b a) :
    (xs ys : List α) → xs.isEqv ys p = ys.isEqv xs p
  | [], [] => rfl
  | [], _ :: _ => rfl
  | _ :: _, [] => rfl
  | x :: xs, y :: ys => by simp only [List.isEqv, hp x y, isEqv_comm hp xs ys]

theorem unpacked_compare_swap (a b : Float.Model.UnpackedFloat) :
    a.compare b = (b.compare a).map Ordering.swap := by
  cases a with
  | notANumber => cases b <;> rfl
  | infinity s =>
    cases b with
    | infinity t => cases s <;> cases t <;> rfl
    | _ => cases s <;> rfl
  | zero s =>
    cases b with
    | infinity t | finite t => cases t <;> rfl
    | _ => rfl
  | finite s m e _ =>
    cases b with
    | notANumber => rfl
    | infinity t => cases s <;> cases t <;> rfl
    | zero => cases s <;> rfl
    | finite t n f _ =>
      have hswap : (Ord.compare e f).then (Ord.compare m n) = ((Ord.compare f e).then (Ord.compare n m)).swap := by
        rw [Ordering.swap_then, ← Std.OrientedCmp.eq_swap, ← Std.OrientedCmp.eq_swap]
      cases s with
      | negative =>
        cases t with
        | negative => exact congrArg (fun o => some o.swap) hswap
        | positive => rfl
      | positive =>
        cases t with
        | negative => rfl
        | positive => exact congrArg some hswap

theorem float_beq_comm (x y : Float) : (x == y) = (y == x) := by
  change (x.toModel.unpack.compare y.toModel.unpack == some .eq) =
    (y.toModel.unpack.compare x.toModel.unpack == some .eq)
  rw [unpacked_compare_swap]
  cases y.toModel.unpack.compare x.toModel.unpack with
  | none => rfl
  | some o => cases o <;> rfl

/-- Equality is symmetric on all values, those with floats in them as well. -/
theorem equalWithin_comm (s : Store) (depth : Nat) (v w : Value) :
    s.equalWithin depth v w = s.equalWithin depth w v := by
  induction depth generalizing v w with
  | zero => cases v <;> cases w <;> simp [equalWithin, Value.asInt?, Value.asFloat?, eq_comm, float_beq_comm]
  | succ depth ih =>
    cases v <;> cases w <;> simp [equalWithin, Value.asInt?, Value.asFloat?, eq_comm, float_beq_comm, @BEq.comm Nat,
      @BEq.comm ListId, isEqv_comm ih]

theorem equal_comm (s : Store) (v w : Value) : s.equal v w = s.equal w v := s.equalWithin_comm _ v w

end Store

end ScriptEngine
