import ScriptEngine.Proofs.Error.Stages
import ScriptEngine.Proofs.Typing.Effect

/-!
# The type of the returns

The check collects the types of the returns body by body and merges them on the way up. What comes out has nothing
to do with the nesting: it is the one type that all returns of the program have, each in the scopes where it stands.
A program is accepted exactly if all that the check looks at is accepted where it stands and the returns have one
type.
-/

namespace ScriptEngine

open Scopes

/-! ## Clauses -/

/-- A part of a statement that a check looks at. -/
inductive Clause where
  /-- An expression whose type does not matter: a statement of its own, or a condition. -/
  | expr (e : Expr)
  | assign (target value : Expr)
  | ret (value : Option Expr)

/-- A clause of a program, and the type scope in force where it stands. -/
structure Standing where
  clause : Clause
  types : TypeScopes
  scope : ScopeId

namespace Standing

/-- The clause is in order where it stands. -/
def Accepted (c : Standing) : Prop :=
  match c.clause with
  | .expr e => ∃ t, typeOf c.types c.scope e = .ok t
  | .assign target value =>
    target.isPlace = true ∧ ∃ t, typeOf c.types c.scope target = .ok t ∧ typeOf c.types c.scope value = .ok t
  | .ret (some e) => ∃ t, typeOf c.types c.scope e = .ok t
  | .ret none => True

def IsReturn (c : Standing) : Prop :=
  match c.clause with
  | .ret _ => True
  | _ => False

/-- The clause is a return of type `t`. -/
def Returns (c : Standing) (t : Ty) : Prop :=
  match c.clause with
  | .ret (some e) => typeOf c.types c.scope e = .ok t
  | .ret none => t = .null
  | _ => False

variable {t u : Ty}

theorem Returns.isReturn : {c : Standing} → c.Returns t → c.IsReturn
  | ⟨.ret _, _, _⟩, _ => trivial

theorem Returns.accepted : {c : Standing} → c.Returns t → c.Accepted
  | ⟨.ret (some _), _, _⟩, h => ⟨t, h⟩
  | ⟨.ret none, _, _⟩, _ => trivial

theorem Returns.unique : {c : Standing} → c.Returns t → c.Returns u → t = u
  | ⟨.ret (some _), _, _⟩, h, h' => Except.ok.inj (h.symm.trans h')
  | ⟨.ret none, _, _⟩, h, h' => h.trans h'.symm

theorem Accepted.returns : {c : Standing} → c.Accepted → c.IsReturn → ∃ t, c.Returns t
  | ⟨.ret (some _), _, _⟩, h, _ => h
  | ⟨.ret none, _, _⟩, _, _ => ⟨.null, rfl⟩

end Standing

/-- The type scopes after a statement: only declarations change them. -/
def Stmt.leaves (G : TypeScopes) (j : ScopeId) : Stmt → TypeScopes
  | .declare ds => G.defineAll j (ds.map fun d => (d.name, d.type))
  | _ => G

mutual

/-- The clauses of a statement in the scope `j`, each where it stands. Bodies stand in scopes of their own. -/
def Stmt.clauses (G : TypeScopes) (j : ScopeId) : Stmt → List Standing
  | .block body => blockClauses (G.child j).2 (G.child j).1 body
  | .noop => []
  | .expr e => [⟨.expr e, G, j⟩]
  | .branch branches => branches.clauses G j
  | .loop condition body => ⟨.expr condition, G, j⟩ :: blockClauses (G.child j).2 (G.child j).1 body
  | .declare _ => []
  | .assign target e => [⟨.assign target e, G, j⟩]
  | .ret e => [⟨.ret e, G, j⟩]
  | .break => []
  | .continue => []

def Branches.clauses (G : TypeScopes) (j : ScopeId) : Branches → List Standing
  | .arm condition body rest =>
    ⟨.expr condition, G, j⟩ :: (blockClauses (G.child j).2 (G.child j).1 body ++ rest.clauses G j)
  | .otherwise body => blockClauses (G.child j).2 (G.child j).1 body

/-- The clauses of statements in the scope `j`. Each statement sees the declarations before it. -/
def blockClauses (G : TypeScopes) (j : ScopeId) : List Stmt → List Standing
  | [] => []
  | s :: rest => s.clauses G j ++ blockClauses (s.leaves G j) j rest

end

/-! ## The common type -/

/-- All clauses are accepted, and `r` is the one type of their returns and of those found before. -/
structure Gathers (cs : List Standing) (sofar r : Option Ty) : Prop where
  accepted : ∀ c ∈ cs, c.Accepted
  common : ∀ c ∈ cs, ∀ t, c.Returns t → r = some t
  kept : ∀ t, sofar = some t → r = some t
  found : ∀ t, r = some t → sofar = some t ∨ ∃ c ∈ cs, c.Returns t

namespace Gathers

variable {cs ds : List Standing} {c : Standing} {sofar found m r : Option Ty}

theorem eq_sofar (h : Gathers cs sofar r) (hcs : ∀ c ∈ cs, ∀ t, ¬c.Returns t) : r = sofar :=
  Option.ext fun t => ⟨fun ht => (h.found t ht).resolve_right fun ⟨c, hc, hct⟩ => hcs c hc t hct, h.kept t⟩

theorem of_no_returns (haccepted : ∀ c ∈ cs, c.Accepted) (hcs : ∀ c ∈ cs, ∀ t, ¬c.Returns t) :
    Gathers cs sofar sofar :=
  ⟨haccepted, fun c hc t ht => absurd ht (hcs c hc t), fun _ ht => ht, fun _ ht => .inl ht⟩

theorem nil_iff : Gathers [] sofar r ↔ r = sofar :=
  ⟨fun h => h.eq_sofar nofun, fun h => h ▸ of_no_returns nofun nofun⟩

/-- Where all returns are of type `T`, there is a result. -/
theorem exists_of_common (sofar : Option Ty) {T : Ty} (haccepted : ∀ c ∈ cs, c.Accepted)
    (hcommon : ∀ c ∈ cs, ∀ t, c.Returns t → t = T) (hsofar : ∀ t, sofar = some t → t = T) : ∃ r, Gathers cs sofar r ∧ ∀ t, r = some t → t = T := by
  by_cases h : sofar = some T ∨ ∃ c ∈ cs, c.Returns T
  · refine ⟨some T, ⟨haccepted, ?_, ?_, ?_⟩, fun t ht => (Option.some.inj ht).symm⟩
    · exact fun c hc t ht => congrArg some (hcommon c hc t ht).symm
    · exact fun t ht => congrArg some (hsofar t ht).symm
    · rintro _ ⟨⟩
      exact h
  · refine ⟨none, ⟨haccepted, ?_, ?_, fun _ ht => (nomatch ht)⟩, fun _ ht => (nomatch ht)⟩
    · exact fun c hc t ht => absurd (.inr ⟨c, hc, hcommon c hc t ht ▸ ht⟩) h
    · exact fun t ht => absurd (.inl (hsofar t ht ▸ ht)) h

theorem append_iff : Gathers (cs ++ ds) sofar r ↔ ∃ m, Gathers cs sofar m ∧ Gathers ds m r := by
  constructor
  · intro h
    obtain ⟨hcs, hds⟩ := List.forall_mem_append.mp h.accepted
    obtain ⟨hcs', hds'⟩ := List.forall_mem_append.mp h.common
    have htype : ∀ t, r = some t → t = r.getD .null := by
      rintro t rfl
      rfl
    obtain ⟨m, hm, hmt⟩ := exists_of_common sofar hcs (fun c hc t ht => htype t (hcs' c hc t ht))
      fun t ht => htype t (h.kept t ht)
    refine ⟨m, hm, hds, hds', fun t ht => ?_, fun t ht => ?_⟩
    · rcases hm.found t ht with hs | ⟨c, hc, hct⟩
      · exact h.kept t hs
      · exact hcs' c hc t hct
    · rcases h.found t ht with hs | ⟨c, hc, hct⟩
      · exact .inl (hm.kept t hs)
      · rcases List.mem_append.mp hc with hc | hc
        · exact .inl (hm.common c hc t hct)
        · exact .inr ⟨c, hc, hct⟩
  · rintro ⟨m, hm, hr⟩
    refine ⟨List.forall_mem_append.mpr ⟨hm.accepted, hr.accepted⟩, List.forall_mem_append.mpr ⟨?_, hr.common⟩,
      fun t ht => hr.kept t (hm.kept t ht), fun t ht => ?_⟩
    · exact fun c hc t ht => hr.kept t (hm.common c hc t ht)
    · rcases hr.found t ht with hs | ⟨c, hc, hct⟩
      · rcases hm.found t hs with hs | ⟨c, hc, hct⟩
        · exact .inl hs
        · exact .inr ⟨c, List.mem_append_left _ hc, hct⟩
      · exact .inr ⟨c, List.mem_append_right _ hc, hct⟩

/-- Returns may be collected apart and merged with those found before. -/
theorem merge_iff : Gathers cs sofar m ↔ ∃ found, Gathers cs none found ∧ Check.Merges sofar found m := by
  constructor
  · intro h
    have htype : ∀ t, m = some t → t = m.getD .null := by
      rintro t rfl
      rfl
    obtain ⟨found, hfound, _⟩ := exists_of_common none h.accepted
      (fun c hc t ht => htype t (h.common c hc t ht)) fun _ ht => (nomatch ht)
    refine ⟨found, hfound, ?_⟩
    cases found with
    | none =>
        exact .inl ⟨rfl, h.eq_sofar fun c hc t ht => (nomatch hfound.common c hc t ht)⟩
    | some t =>
        obtain ⟨c, hc, hct⟩ := (hfound.found t rfl).resolve_left nofun
        have hm : m = some t := h.common c hc t hct
        refine .inr ⟨t, rfl, hm, ?_⟩
        cases sofar with
        | none => exact .inl rfl
        | some u => exact .inr ((h.kept u rfl).symm.trans hm)
  · rintro ⟨found, hfound, ⟨rfl, rfl⟩ | ⟨t, rfl, rfl, hsofar⟩⟩
    · exact of_no_returns hfound.accepted fun c hc t ht => (nomatch hfound.common c hc t ht)
    · refine ⟨hfound.accepted, hfound.common, fun u hu => ?_, fun u hu => .inr ?_⟩
      · rcases hsofar with rfl | rfl
        · cases hu
        · exact hu
      · exact (hfound.found u hu).resolve_left nofun

/-- A clause that is no return only has to be accepted. -/
theorem cons_iff (hc : ¬c.IsReturn) : Gathers (c :: cs) sofar r ↔ c.Accepted ∧ Gathers cs sofar r := by
  have hno : ∀ d ∈ [c], ∀ t, ¬d.Returns t := fun d hd t ht => hc (List.mem_singleton.mp hd ▸ ht.isReturn)
  rw [← List.singleton_append, append_iff]
  constructor
  · rintro ⟨m, hm, hr⟩
    exact ⟨hm.accepted c List.mem_cons_self, hm.eq_sofar hno ▸ hr⟩
  · rintro ⟨haccepted, hr⟩
    exact ⟨sofar, of_no_returns (List.forall_mem_singleton.mpr haccepted) hno, hr⟩

theorem eq_none_iff (h : Gathers cs none r) : r = none ↔ ∀ c ∈ cs, ¬c.IsReturn := by
  constructor
  · rintro rfl c hc hret
    obtain ⟨t, ht⟩ := (h.accepted c hc).returns hret
    cases h.common c hc t ht
  · exact fun hcs => h.eq_sofar fun c hc t ht => hcs c hc ht.isReturn

/-- All returns have the common type. -/
theorem returns (h : Gathers cs none r) (hc : c ∈ cs) (hret : c.IsReturn) : ∃ t, r = some t ∧ c.Returns t := by
  obtain ⟨t, ht⟩ := (h.accepted c hc).returns hret
  exact ⟨t, h.common c hc t ht, ht⟩

variable {G : TypeScopes} {j : ScopeId} {e target : Expr}

theorem expr_iff : Gathers (⟨.expr e, G, j⟩ :: cs) sofar r ↔ (∃ t, typeOf G j e = .ok t) ∧ Gathers cs sofar r :=
  cons_iff id

theorem assign_iff : Gathers [⟨.assign target e, G, j⟩] sofar r ↔
    (target.isPlace = true ∧ ∃ t, typeOf G j target = .ok t ∧ typeOf G j e = .ok t) ∧ r = sofar := by
  rw [cons_iff id, nil_iff]
  rfl

theorem return_iff (hc : c.IsReturn) : Gathers [c] none r ↔ ∃ t, c.Returns t ∧ r = some t := by
  constructor
  · intro h
    obtain ⟨t, ht⟩ := (h.accepted c List.mem_cons_self).returns hc
    exact ⟨t, ht, h.common c List.mem_cons_self t ht⟩
  · rintro ⟨t, ht, rfl⟩
    refine ⟨List.forall_mem_singleton.mpr ht.accepted, fun d hd u hu => ?_, nofun, ?_⟩
    · exact congrArg some (ht.unique (List.mem_singleton.mp hd ▸ hu))
    · rintro _ ⟨⟩
      exact .inr ⟨c, List.mem_cons_self, ht⟩

end Gathers

/-! ## Scopes that mean the same -/

/-- In the scope `k` of `H`, names have the types that they have in the scope `j` of `G`. -/
structure Views (H : TypeScopes) (k : ScopeId) (G : TypeScopes) (j : ScopeId) : Prop where
  wellFormed : H.WellFormed
  has : H.Has k
  has' : G.Has j
  find? : ∀ x, H.find? k x = G.find? j x

namespace Views

variable {G H H' : TypeScopes} {j k : ScopeId}

theorem refl (hG : G.WellFormed) (hj : G.Has j) : Views G j G j := ⟨hG, hj, hj, fun _ => rfl⟩

theorem typeOf_eq (h : Views H k G j) : (e : Expr) → typeOf H k e = typeOf G j e
  | .constant _ => rfl
  | .var x => by simp only [typeOf, find, h.find?]
  | .unary op e => by simp only [typeOf, typeOf_eq h e]
  | .binary op l r => by simp only [typeOf, typeOf_eq h l, typeOf_eq h r]
  | .index b i => by simp only [typeOf, typeOf_eq h b, typeOf_eq h i]

theorem child (h : Views H k G j) : Views (H.child k).2 (H.child k).1 (G.child j).2 (G.child j).1 where
  wellFormed := h.wellFormed.child h.has
  has := has_child.mpr (.inr rfl)
  has' := has_child.mpr (.inr rfl)
  find? x := by rw [find?_child, find?_child, h.find?]

theorem defineAll (bs : List (String × Ty)) (h : Views H k G j) : Views (H.defineAll k bs) k (G.defineAll j bs) j := by
  unfold Scopes.defineAll
  induction bs generalizing H G with
  | nil => exact h
  | cons b bs ih =>
      refine ih ⟨h.wellFormed.define, has_define.mpr h.has, has_define.mpr h.has', fun x => ?_⟩
      rw [find?_define h.has, find?_define h.has', h.find?]

theorem of_alters (h : Views H k G j) (hH : AltersAt k [] H H') : Views H' k G j where
  wellFormed := hH.wellFormed h.wellFormed
  has := hH.has h.has
  has' := h.has'
  find? x := by
    rw [← h.find?]
    exact hH.find? h.wellFormed h.has fun _ _ hw => (nomatch hw.2)

end Views

/-! ## Programs that are accepted -/

section

variable {G H H' : TypeScopes} {j k : ScopeId} {sofar r : Option Ty}

theorem Views.after {st : Stmt} (h : Views H k G j) (hst : checkStmt k st H = .ok r H') :
    Views H' k (st.leaves G j) j := by
  have hH := (checkStmt_binds h.has st).of_ok hst
  cases st with
  | declare ds =>
      rw [(checkStmt_declare_eq_ok.mp hst).2]
      exact h.defineAll _
  | _ => exact h.of_alters hH

/-- A body is checked in a new scope, so after it names have the types that they had before it. -/
theorem Views.afterBody {body : List Stmt} (h : Views H k G j)
    (hbody : checkBlock (H.child k).1 sofar body (H.child k).2 = .ok r H') : Views H' k G j :=
  h.of_alters (((checkBlock_binds sofar h.child.has body).of_ok hbody).of_child h.has)

mutual

/-- A statement is accepted exactly if its clauses are, with one type for its returns. -/
theorem checkStmt_ok_iff {G H : TypeScopes} {j k : ScopeId} {r : Option Ty} (h : Views H k G j) :
    (st : Stmt) → ((∃ H', checkStmt k st H = .ok r H') ↔ Gathers (st.clauses G j) none r)
  | .block body => by
      simp only [Stmt.clauses, checkStmt_block_eq_ok]
      exact checkBlock_ok_iff h.child body
  | .noop => by simp [checkStmt, Stmt.clauses, Gathers.nil_iff]
  | .break => by simp [checkStmt, Stmt.clauses, Gathers.nil_iff]
  | .continue => by simp [checkStmt, Stmt.clauses, Gathers.nil_iff]
  | .expr e => by
      rw [Stmt.clauses, Gathers.expr_iff, Gathers.nil_iff]
      simp [checkStmt_expr_eq_ok, h.typeOf_eq]
  | .branch bs => by
      simp only [Stmt.clauses, checkStmt]
      exact checkBranches_ok_iff h bs
  | .loop c body => by
      rw [Stmt.clauses, Gathers.expr_iff, ← checkBlock_ok_iff h.child body]
      simp [checkStmt_loop_eq_ok, h.typeOf_eq]
  | .declare ds => by simp [checkStmt_declare_eq_ok, Stmt.clauses, Gathers.nil_iff]
  | .assign target e => by
      rw [Stmt.clauses, Gathers.assign_iff]
      simp [checkStmt_assign_eq_ok, h.typeOf_eq, and_assoc]
  | .ret (some e) => by
      rw [Stmt.clauses, Gathers.return_iff (c := ⟨.ret (some e), G, j⟩) trivial]
      simp [checkStmt_ret_eq_ok, h.typeOf_eq, Standing.Returns]
  | .ret none => by
      rw [Stmt.clauses, Gathers.return_iff (c := ⟨.ret none, G, j⟩) trivial]
      simp [checkStmt, Standing.Returns]

theorem checkBranches_ok_iff {G H : TypeScopes} {j k : ScopeId} {sofar r : Option Ty} (h : Views H k G j) :
    (bs : Branches) → ((∃ H', checkBranches k sofar bs H = .ok r H') ↔ Gathers (bs.clauses G j) sofar r)
  | .arm c body rest => by
      rw [Branches.clauses, Gathers.expr_iff, Gathers.append_iff]
      simp only [checkBranches_arm_eq_ok, h.typeOf_eq]
      constructor
      · rintro ⟨H', hc, found, H₁, m, hbody, hm, hrest⟩
        refine ⟨hc, m, Gathers.merge_iff.mpr ⟨found, (checkBlock_ok_iff h.child body).mp ⟨H₁, hbody⟩, hm⟩, ?_⟩
        exact (checkBranches_ok_iff (h.afterBody hbody) rest).mp ⟨H', hrest⟩
      · rintro ⟨hc, m, hm, hr⟩
        obtain ⟨found, hfound, hm⟩ := Gathers.merge_iff.mp hm
        obtain ⟨H₁, hbody⟩ := (checkBlock_ok_iff h.child body).mpr hfound
        obtain ⟨H', hrest⟩ := (checkBranches_ok_iff (h.afterBody hbody) rest).mpr hr
        exact ⟨H', hc, found, H₁, m, hbody, hm, hrest⟩
  | .otherwise body => by
      rw [Branches.clauses, Gathers.merge_iff]
      simp only [checkBranches_otherwise_eq_ok, ← checkBlock_ok_iff h.child body]
      rw [exists_comm]
      simp only [exists_and_right]

theorem checkBlock_ok_iff {G H : TypeScopes} {j k : ScopeId} {sofar r : Option Ty} (h : Views H k G j) :
    (b : List Stmt) → ((∃ H', checkBlock k sofar b H = .ok r H') ↔ Gathers (blockClauses G j b) sofar r)
  | [] => by simp [checkBlock, blockClauses, Gathers.nil_iff]
  | st :: rest => by
      rw [blockClauses, Gathers.append_iff]
      simp only [checkBlock_cons_eq_ok]
      constructor
      · rintro ⟨H', found, H₁, m, hst, hm, hrest⟩
        refine ⟨m, Gathers.merge_iff.mpr ⟨found, (checkStmt_ok_iff h st).mp ⟨H₁, hst⟩, hm⟩, ?_⟩
        exact (checkBlock_ok_iff (h.after hst) rest).mp ⟨H', hrest⟩
      · rintro ⟨m, hm, hr⟩
        obtain ⟨found, hfound, hm⟩ := Gathers.merge_iff.mp hm
        obtain ⟨H₁, hst⟩ := (checkStmt_ok_iff h st).mpr hfound
        obtain ⟨H', hrest⟩ := (checkBlock_ok_iff (h.after hst) rest).mpr hr
        exact ⟨H', found, H₁, m, hst, hm, hrest⟩

end

/-! ## Conflicts -/

/-- Among the clauses are returns of two different types, of which the first may have been found before. -/
structure Conflicts (cs : List Standing) (sofar : Option Ty) (t u : Ty) : Prop where
  ne : t ≠ u
  first : sofar = some t ∨ ∃ c ∈ cs, c.Returns t
  second : ∃ c ∈ cs, c.Returns u

namespace Conflicts

variable {cs ds : List Standing} {before m : Option Ty} {t u : Ty}

theorem mono (h : Conflicts cs before t u) (hsub : cs ⊆ ds) (hs : ∀ t, before = some t → sofar = some t) :
    Conflicts ds sofar t u :=
  ⟨h.ne, h.first.imp (hs t) fun ⟨c, hc, hct⟩ => ⟨c, hsub hc, hct⟩, h.second.imp fun _ hc => ⟨hsub hc.1, hc.2⟩⟩

/-- What was found among the clauses `cs` conflicts with a clause after them. -/
theorem after (hm : Gathers cs sofar m) (h : Conflicts ds m t u) : Conflicts (cs ++ ds) sofar t u := by
  obtain ⟨d, hd, hdu⟩ := h.second
  refine ⟨h.ne, ?_, d, List.mem_append_right _ hd, hdu⟩
  rcases h.first with hmt | ⟨c, hc, hct⟩
  · rcases hm.found t hmt with hs | ⟨c, hc, hct⟩
    · exact .inl hs
    · exact .inr ⟨c, List.mem_append_left _ hc, hct⟩
  · exact .inr ⟨c, List.mem_append_right _ hc, hct⟩

variable {err : Error} {found : Option Ty}

theorem of_merge (hc : err.cause = .conflictingReturn t u) (hfound : Gathers cs none found)
    (he : Check.merge sofar found H = .error err H') : Conflicts cs sofar t u := by
  unfold Check.merge at he
  split at he
  · cases he
  · cases he
  · rename_i a b
    split at he
    · cases he
    · rename_i hab
      cases he
      cases hc
      exact ⟨hab, .inl rfl, (hfound.found _ rfl).resolve_left nofun⟩

/-- A conflict in a check that goes on after a part is one in the part, one of the part with what was found before
it, or one that comes later. -/
theorem of_step {x : Check (Option Ty)} {f : Option Ty → Check (Option Ty)} (hc : err.cause = .conflictingReturn t u)
    (he : (do let found ← x; f (← Check.merge sofar found)) H = .error err H')
    (hx : x H = .error err H' → Conflicts cs none t u)
    (hfound : ∀ found H₁, x H = .ok found H₁ → Gathers cs none found)
    (hf : ∀ found H₁ m, x H = .ok found H₁ → f m H₁ = .error err H' → Conflicts ds m t u) :
    Conflicts (cs ++ ds) sofar t u := by
  rcases bind_eq_error.mp he with he | ⟨found, H₁, hx', he⟩
  · exact (hx he).mono (List.subset_append_left _ _) nofun
  · rcases bind_eq_error.mp he with he | ⟨m, H₂, hm, he⟩
    · exact (of_merge hc (hfound found H₁ hx') he).mono (List.subset_append_left _ _) fun _ ht => ht
    · obtain ⟨hH, hm⟩ := merge_eq_ok.mp hm
      exact .after (Gathers.merge_iff.mpr ⟨found, hfound found H₁ hx', hm⟩) (hf found H₁ m hx' (hH ▸ he))

end Conflicts

/-- No expression fails for a conflict of returns. -/
theorem typeOf_error_ne {t u : Ty} : {e : Expr} → {err : Error} → typeOf G j e = .error err →
    err.cause ≠ .conflictingReturn t u
  | .constant _, _, h => by cases h
  | .var x, _, h => by
      simp only [typeOf, Scopes.find] at h
      split at h <;> cases h
      intro hcause
      cases hcause
  | .unary op a, _, h => by
      rcases exceptBind_eq_error h with h | ⟨_, _, h⟩
      · exact typeOf_error_ne h
      · obtain ⟨c, hc, rfl⟩ := Typing.orError_eq_error h
        unfold Typing.unary at hc
        repeat' split at hc
        all_goals cases hc
        intro hcause
        cases hcause
  | .binary op l r, _, h => by
      rcases exceptBind_eq_error h with h | ⟨_, _, h⟩
      · exact typeOf_error_ne h
      · rcases exceptBind_eq_error h with h | ⟨_, _, h⟩
        · exact typeOf_error_ne h
        · obtain ⟨c, hc, rfl⟩ := Typing.orError_eq_error h
          unfold Typing.binary at hc
          repeat' split at hc
          all_goals cases hc
          intro hcause
          cases hcause
  | .index b k, _, h => by
      rcases exceptBind_eq_error h with h | ⟨_, _, h⟩
      · exact typeOf_error_ne h
      · rcases exceptBind_eq_error h with h | ⟨_, _, h⟩
        · exact typeOf_error_ne h
        · obtain ⟨c, hc, rfl⟩ := Typing.orError_eq_error h
          unfold Typing.index at hc
          repeat' split at hc
          all_goals cases hc
          all_goals
            intro hcause
            cases hcause

section

variable {α : Type} {err : Error} {t u : Ty}

/-- A conflict after an expression comes from what follows the expression. -/
theorem conflict_of_expr {e : Expr} {f : Ty → Check α} (h : (Check.expr k e >>= f) H = .error err H')
    (hc : err.cause = .conflictingReturn t u) : ∃ a, f a H = .error err H' := by
  rcases bind_eq_error.mp h with he | ⟨a, H₁, ha, hf⟩
  · unfold Check.expr at he
    split at he
    · cases he
    · rename_i he'
      cases he
      exact absurd hc (typeOf_error_ne he')
  · obtain ⟨_, rfl⟩ := checkExpr_eq_ok.mp ha
    exact ⟨a, hf⟩

theorem no_conflict_of_assign {target e : Expr} (h : Check.assign k target e H = .error err H') :
    err.cause ≠ .conflictingReturn t u := by
  intro hc
  unfold Check.assign at h
  split at h
  · obtain ⟨a, h⟩ := conflict_of_expr h hc
    obtain ⟨b, h⟩ := conflict_of_expr h hc
    split at h <;> cases h
    cases hc
  · cases h
    cases hc

end

mutual

theorem checkStmt_conflict {G H H' : TypeScopes} {j k : ScopeId} {err : Error} {t u : Ty} (h : Views H k G j)
    (hc : err.cause = .conflictingReturn t u) :
    (st : Stmt) → checkStmt k st H = .error err H' → Conflicts (st.clauses G j) none t u
  | .block body, he => by
      rw [Stmt.clauses]
      exact checkBlock_conflict h.child hc body he
  | .noop, he => nomatch he
  | .break, he => nomatch he
  | .continue, he => nomatch he
  | .expr e, he => by
      simp only [checkStmt] at he
      obtain ⟨_, he⟩ := conflict_of_expr he hc
      cases he
  | .branch bs, he => by
      simp only [checkStmt] at he
      rw [Stmt.clauses]
      exact checkBranches_conflict h hc bs he
  | .loop c body, he => by
      simp only [checkStmt] at he
      obtain ⟨_, he⟩ := conflict_of_expr he hc
      rw [Stmt.clauses]
      exact (checkBlock_conflict h.child hc body he).mono (List.subset_cons_self _ _) nofun
  | .declare ds, he => nomatch he
  | .assign target e, he => by
      simp only [checkStmt] at he
      rcases bind_eq_error.mp he with he | ⟨_, _, _, he⟩
      · exact absurd hc (no_conflict_of_assign he)
      · cases he
  | .ret (some e), he => by
      simp only [checkStmt] at he
      obtain ⟨_, he⟩ := conflict_of_expr he hc
      cases he
  | .ret none, he => nomatch he

theorem checkBranches_conflict {G H H' : TypeScopes} {j k : ScopeId} {sofar : Option Ty} {err : Error} {t u : Ty}
    (h : Views H k G j) (hc : err.cause = .conflictingReturn t u) :
    (bs : Branches) → checkBranches k sofar bs H = .error err H' → Conflicts (bs.clauses G j) sofar t u
  | .arm c body rest, he => by
      simp only [checkBranches] at he
      obtain ⟨_, he⟩ := conflict_of_expr he hc
      rw [Branches.clauses]
      have hrest : Conflicts (blockClauses (G.child j).2 (G.child j).1 body ++ rest.clauses G j) sofar t u := by
        refine .of_step hc he (checkBlock_conflict h.child hc body)
          (fun found H₁ hbody => (checkBlock_ok_iff h.child body).mp ⟨H₁, hbody⟩) ?_
        exact fun found H₁ m hbody he => checkBranches_conflict (h.afterBody hbody) hc rest he
      exact hrest.mono (List.subset_cons_self _ _) fun _ ht => ht
  | .otherwise body, he => by
      rw [Branches.clauses]
      change (checkBlock (H.child k).1 none body >>= Check.merge sofar) (H.child k).2 = _ at he
      rcases bind_eq_error.mp he with he | ⟨found, H₁, hbody, he⟩
      · exact (checkBlock_conflict h.child hc body he).mono (fun _ hc => hc) nofun
      · exact .of_merge hc ((checkBlock_ok_iff h.child body).mp ⟨H₁, hbody⟩) he

theorem checkBlock_conflict {G H H' : TypeScopes} {j k : ScopeId} {sofar : Option Ty} {err : Error} {t u : Ty}
    (h : Views H k G j) (hc : err.cause = .conflictingReturn t u) :
    (b : List Stmt) → checkBlock k sofar b H = .error err H' → Conflicts (blockClauses G j b) sofar t u
  | [], he => nomatch he
  | st :: rest, he => by
      simp only [checkBlock] at he
      rw [blockClauses]
      refine .of_step hc he (checkStmt_conflict h hc st)
        (fun found H₁ hst => (checkStmt_ok_iff h st).mp ⟨H₁, hst⟩) ?_
      exact fun found H₁ m hst he => checkBlock_conflict (h.after hst) hc rest he

end

/-! ## Functions -/

theorem checkFunction_eq_ok {f : Function} {u : Unit} : checkFunction j f G = .ok u G' ↔
    ∃ r, checkBlock (G.child j).1 none f.body ((G.child j).2.defineAll (G.child j).1 f.parameters) = .ok r G' ∧
      ∀ t, r = some t → t = f.returns := by
  change (checkBlock (G.child j).1 none f.body >>= _) ((G.child j).2.defineAll (G.child j).1 f.parameters) = _ ↔ _
  rw [bind_eq_ok]
  constructor
  · rintro ⟨r, G₁, hr, h⟩
    cases r with
    | none =>
        cases h
        exact ⟨none, hr, nofun⟩
    | some t =>
        by_cases ht : t = f.returns
        · simp only [ne_eq, ht, not_true_eq_false, if_false] at h
          cases h
          exact ⟨some t, hr, fun u hu => Option.some.inj hu ▸ ht⟩
        · simp only [ne_eq, ht, not_false_eq_true, if_true] at h
          cases h
  · rintro ⟨r, hr, ht⟩
    refine ⟨r, G', hr, ?_⟩
    cases r with
    | none => rfl
    | some t => simp [ht t rfl]

/-- The check of a program finds no type exactly if the program has no return, and otherwise the one type that all
its returns have where they stand. It succeeds if all clauses are accepted and some type is that of all returns, and
it reports a conflict only between two returns of different types. The check of a function also compares that type,
if there is one, with the declared one. -/
theorem check_finds_common_return (hG : G.WellFormed) (hj : G.Has j) (b : List Stmt) :
    (∀ r G', check j b G = .ok r G' →
      (r = none ↔ ∀ c ∈ blockClauses G j b, ¬c.IsReturn) ∧
      ∀ c ∈ blockClauses G j b, c.IsReturn → ∃ T, r = some T ∧ c.Returns T) ∧
    (∀ T, (∀ c ∈ blockClauses G j b, c.Accepted) → (∀ c ∈ blockClauses G j b, c.IsReturn → c.Returns T) →
      ∃ r G', check j b G = .ok r G') ∧
    (∀ e G' T U, check j b G = .error e G' → e.cause = .conflictingReturn T U →
      T ≠ U ∧ (∃ c ∈ blockClauses G j b, c.Returns T) ∧ ∃ c ∈ blockClauses G j b, c.Returns U) ∧
    ∀ f : Function, let cs := blockClauses ((G.child j).2.defineAll (G.child j).1 f.parameters) (G.child j).1 f.body
      (∃ G', checkFunction j f G = .ok () G') ↔
        (∀ c ∈ cs, c.Accepted) ∧ ∀ c ∈ cs, c.IsReturn → c.Returns f.returns := by
  have hview : Views G j G j := .refl hG hj
  refine ⟨fun r G' h => ?_, fun T haccepted hreturns => ?_, fun e G' T U h hc => ?_, fun f => ?_⟩
  · have hr : Gathers (blockClauses G j b) none r := (checkBlock_ok_iff hview b).mp ⟨G', h⟩
    exact ⟨hr.eq_none_iff, fun c hc hret => hr.returns hc hret⟩
  · have hcommon : ∀ c ∈ blockClauses G j b, ∀ t, c.Returns t → t = T :=
      fun c hc t ht => ht.unique (hreturns c hc ht.isReturn)
    obtain ⟨r, hr, _⟩ := Gathers.exists_of_common none haccepted hcommon nofun
    exact ⟨r, (checkBlock_ok_iff hview b).mpr hr⟩
  · have h : Conflicts (blockClauses G j b) none T U := checkBlock_conflict hview hc b h
    exact ⟨h.ne, h.first.resolve_left nofun, h.second⟩
  · have hinner : Views ((G.child j).2.defineAll (G.child j).1 f.parameters) (G.child j).1
        ((G.child j).2.defineAll (G.child j).1 f.parameters) (G.child j).1 := hview.child.defineAll _
    simp only [checkFunction_eq_ok]
    constructor
    · rintro ⟨G', r, hr, hreturns⟩
      have hcs := (checkBlock_ok_iff hinner f.body).mp ⟨G', hr⟩
      refine ⟨hcs.accepted, fun c hc hret => ?_⟩
      obtain ⟨t, ht, hct⟩ := hcs.returns hc hret
      exact hreturns t ht ▸ hct
    · rintro ⟨haccepted, hreturns⟩
      have hcommon := fun c hc t (ht : Standing.Returns c t) => ht.unique (hreturns c hc ht.isReturn)
      obtain ⟨r, hr, hrt⟩ := Gathers.exists_of_common none haccepted hcommon nofun
      obtain ⟨G', hG'⟩ := (checkBlock_ok_iff hinner f.body).mpr hr
      exact ⟨G', r, hG', hrt⟩

end

/-- A return of a name that is declared anew, and one in a loop:
`if n { let n: str; return n; } else { while n { return "none"; } } return "some";`. -/
def answerAsText : List Stmt :=
  [.branch (.arm (.var "n") [.declare [⟨"n", .str, none⟩], .ret (some (.var "n"))]
      (.otherwise [.loop (.var "n") [.ret (some (.constant (.str "none")))]])),
    .ret (some (.constant (.str "some")))]

theorem answerAsText_clauses {G : TypeScopes} {j : ScopeId} (hn : G.find? j "n" = some .int) :
    ∀ c ∈ blockClauses G j answerAsText, c.Accepted ∧ (c.IsReturn → c.Returns .str) := by
  have hint : ∀ H k, H.find? k "n" = some .int → ∃ t, typeOf H k (.var "n") = .ok t := fun H k h =>
    ⟨.int, by simp only [typeOf, find, h]⟩
  have htext : typeOf ((G.child j).2.define (G.child j).1 "n" .str) (G.child j).1 (.var "n") = .ok .str := by
    simp only [typeOf, find, find?_define (has_child.mpr (.inr rfl)), if_true]
  simp only [answerAsText, blockClauses, Stmt.clauses, Branches.clauses]
  simp only [List.append_nil, List.cons_append, List.nil_append, List.forall_mem_cons]
  refine ⟨⟨hint G j hn, False.elim⟩, ⟨⟨.str, htext⟩, fun _ => htext⟩, ⟨hint _ _ ?_, False.elim⟩,
    ⟨⟨.str, rfl⟩, fun _ => rfl⟩, ⟨⟨.str, rfl⟩, fun _ => rfl⟩, List.forall_mem_nil _⟩
  rw [find?_child, hn]

/-- Where `n` is an integer outside, all three returns are texts. So a function with this body has to be declared to
return text. -/
theorem answerAsText_returns_text :
    let G : TypeScopes := Scopes.empty.root.2.define ⟨0⟩ "n" .int
    (∃ G', check ⟨0⟩ answerAsText G = .ok (some .str) G') ∧
    (∃ G', checkFunction ⟨0⟩ ⟨[("n", .int)], .str, answerAsText, ⟨0⟩⟩ G = .ok () G') ∧
    ¬∃ G', checkFunction ⟨0⟩ ⟨[("n", .int)], .int, answerAsText, ⟨0⟩⟩ G = .ok () G' := by
  intro G
  have hG : G.WellFormed := Scopes.WellFormed.empty.root.define
  have hj : G.Has ⟨0⟩ := Nat.zero_lt_one
  obtain ⟨hok, hsucceeds, _, hfunction⟩ := check_finds_common_return hG hj answerAsText
  have hclauses := answerAsText_clauses (G := G) (j := ⟨0⟩) rfl
  have hinner : ∀ c ∈ blockClauses ((G.child ⟨0⟩).2.defineAll (G.child ⟨0⟩).1 [("n", .int)]) (G.child ⟨0⟩).1
      answerAsText, c.Accepted ∧ (c.IsReturn → c.Returns .str) := answerAsText_clauses rfl
  have hlast : ∀ H k, (⟨.ret (some (.constant (.str "some"))), H, k⟩ : Standing) ∈ blockClauses H k answerAsText :=
    fun H k => by simp [answerAsText, blockClauses, Stmt.clauses, Stmt.leaves]
  refine ⟨?_, ?_, ?_⟩
  · obtain ⟨r, G', h⟩ := hsucceeds .str (fun c hc => (hclauses c hc).1) fun c hc => (hclauses c hc).2
    obtain ⟨T, rfl, hT⟩ := (hok r G' h).2 _ (hlast G ⟨0⟩) trivial
    cases hT
    exact ⟨G', h⟩
  · exact (hfunction _).mpr ⟨fun c hc => (hinner c hc).1, fun c hc => (hinner c hc).2⟩
  · intro h
    have hint : typeOf _ _ (.constant (.str "some")) = .ok .int := ((hfunction _).mp h).2 _ (hlast _ _) trivial
    exact absurd (Except.ok.inj hint) (by decide)

end ScriptEngine
