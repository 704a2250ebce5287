import ScriptEngine.Proofs.Execution.Effect
import ScriptEngine.Proofs.Typing.Effect

/-!
# How far a signal goes

A signal starts at a statement that says so and is handed up as it is, with the store as it was then. A loop that it
comes to takes it, unless it is a return, and a call takes that too. So the signal that a body ends with can be told
from the statements in it, and nothing that stands after the statement on the way up has been run.
-/

namespace ScriptEngine

/-! ## Statements in a body -/

mutual

/-- The statement `t` stands in a statement, inside a loop of it if `looped`. -/
inductive StmtHolds (t : Stmt) : (looped : Bool) → Stmt → Prop where
  | self : StmtHolds t false t
  | block {x : Bool} {b : List Stmt} : BlockHolds t x b → StmtHolds t x (.block b)
  | branch {x : Bool} {bs : Branches} : BranchesHold t x bs → StmtHolds t x (.branch bs)
  | loop {x : Bool} {c : Expr} {b : List Stmt} : BlockHolds t x b → StmtHolds t true (.loop c b)

inductive BranchesHold (t : Stmt) : (looped : Bool) → Branches → Prop where
  | body {x : Bool} {c : Expr} {b : List Stmt} {rest : Branches} : BlockHolds t x b →
      BranchesHold t x (.arm c b rest)
  | rest {x : Bool} {c : Expr} {b : List Stmt} {rest : Branches} : BranchesHold t x rest →
      BranchesHold t x (.arm c b rest)
  | otherwise {x : Bool} {b : List Stmt} : BlockHolds t x b → BranchesHold t x (.otherwise b)

inductive BlockHolds (t : Stmt) : (looped : Bool) → List Stmt → Prop where
  | head {x : Bool} {s : Stmt} {rest : List Stmt} : StmtHolds t x s → BlockHolds t x (s :: rest)
  | tail {x : Bool} {s : Stmt} {rest : List Stmt} : BlockHolds t x rest → BlockHolds t x (s :: rest)

end

/-! ## Statements that a run comes to -/

/-- A statement that is run, with the scope and the store at that moment. -/
structure Spot where
  scope : ScopeId
  stmt : Stmt
  store : Store

mutual

/-- A run of a statement comes to the spot, through a loop of it if `looped`. -/
inductive StmtComes (rounds : Nat) (spot : Spot) : (looped : Bool) → ScopeId → Stmt → Store → Prop where
  | self {i : ScopeId} {s : Stmt} {σ : Store} : spot = ⟨i, s, σ⟩ → StmtComes rounds spot false i s σ
  | block {x : Bool} {i : ScopeId} {b : List Stmt} {σ : Store} :
      BlockComes rounds spot x (σ.child i).1 b (σ.child i).2 → StmtComes rounds spot x i (.block b) σ
  | branch {x : Bool} {i : ScopeId} {bs : Branches} {σ : Store} : BranchesCome rounds spot x i bs σ →
      StmtComes rounds spot x i (.branch bs) σ
  | loop {i : ScopeId} {c : Expr} {b : List Stmt} {σ : Store} : LoopComes rounds spot rounds i c b σ →
      StmtComes rounds spot true i (.loop c b) σ

/-- A loop with `n` rounds left comes to the spot. -/
inductive LoopComes (rounds : Nat) (spot : Spot) : (n : Nat) → ScopeId → Expr → List Stmt → Store → Prop where
  | body {x : Bool} {n : Nat} {i : ScopeId} {c : Expr} {b : List Stmt} {σ σ₁ : Store} :
      test i c σ = .ok true σ₁ → BlockComes rounds spot x (σ₁.child i).1 b (σ₁.child i).2 →
      LoopComes rounds spot (n + 1) i c b σ
  | again {n : Nat} {i : ScopeId} {c : Expr} {b : List Stmt} {signal : Option Signal} {σ σ₁ σ₂ : Store} :
      test i c σ = .ok true σ₁ → runBlock rounds (σ₁.child i).1 b (σ₁.child i).2 = .ok signal σ₂ →
      signal = none ∨ signal = some .continue → LoopComes rounds spot n i c b σ₂ →
      LoopComes rounds spot (n + 1) i c b σ

inductive BranchesCome (rounds : Nat) (spot : Spot) : (looped : Bool) → ScopeId → Branches → Store → Prop where
  | body {x : Bool} {i : ScopeId} {c : Expr} {b : List Stmt} {rest : Branches} {σ σ₁ : Store} :
      test i c σ = .ok true σ₁ → BlockComes rounds spot x (σ₁.child i).1 b (σ₁.child i).2 →
      BranchesCome rounds spot x i (.arm c b rest) σ
  | rest {x : Bool} {i : ScopeId} {c : Expr} {b : List Stmt} {rest : Branches} {σ σ₁ : Store} :
      test i c σ = .ok false σ₁ → BranchesCome rounds spot x i rest σ₁ →
      BranchesCome rounds spot x i (.arm c b rest) σ
  | otherwise {x : Bool} {i : ScopeId} {b : List Stmt} {σ : Store} :
      BlockComes rounds spot x (σ.child i).1 b (σ.child i).2 → BranchesCome rounds spot x i (.otherwise b) σ

/-- A run of statements comes to the spot. -/
inductive BlockComes (rounds : Nat) (spot : Spot) : (looped : Bool) → ScopeId → List Stmt → Store → Prop where
  | head {x : Bool} {i : ScopeId} {s : Stmt} {rest : List Stmt} {σ : Store} : StmtComes rounds spot x i s σ →
      BlockComes rounds spot x i (s :: rest) σ
  | tail {x : Bool} {i : ScopeId} {s : Stmt} {rest : List Stmt} {σ σ₁ : Store} :
      runStmt rounds i s σ = .ok none σ₁ → BlockComes rounds spot x i rest σ₁ →
      BlockComes rounds spot x i (s :: rest) σ

end

variable {rounds n : Nat} {spot : Spot} {x : Bool} {i : ScopeId} {c : Expr} {s : Stmt} {b rest : List Stmt}
  {bs : Branches} {σ σ₁ σ' : Store} {sig : Signal} {signal : Option Signal}

mutual

theorem StmtComes.holds {rounds : Nat} {spot : Spot} {x : Bool} {i : ScopeId} {s : Stmt} {σ : Store} :
    StmtComes rounds spot x i s σ → StmtHolds spot.stmt x s
  | .self hspot => hspot ▸ .self
  | .block h => .block h.holds
  | .branch h => .branch h.holds
  | .loop h => h.holds.elim fun _ hb => .loop hb

theorem LoopComes.holds {rounds n : Nat} {spot : Spot} {i : ScopeId} {c : Expr} {b : List Stmt} {σ : Store} :
    LoopComes rounds spot n i c b σ → ∃ x, BlockHolds spot.stmt x b
  | .body _ h => ⟨_, h.holds⟩
  | .again _ _ _ h => h.holds

theorem BranchesCome.holds {rounds : Nat} {spot : Spot} {x : Bool} {i : ScopeId} {bs : Branches} {σ : Store} :
    BranchesCome rounds spot x i bs σ → BranchesHold spot.stmt x bs
  | .body _ h => .body h.holds
  | .rest _ h => .rest h.holds
  | .otherwise h => .otherwise h.holds

/-- What a run comes to stands in the program. -/
theorem BlockComes.holds {rounds : Nat} {spot : Spot} {x : Bool} {i : ScopeId} {b : List Stmt} {σ : Store} :
    BlockComes rounds spot x i b σ → BlockHolds spot.stmt x b
  | .head h => .head h.holds
  | .tail _ h => .tail h.holds

end

/-! ## Results of a run -/

theorem runBranches_arm_of_test {holds : Bool} (htest : test i c σ = .ok holds σ₁) :
    runBranches rounds i (.arm c b bs) σ =
      if holds then runBlock rounds (σ₁.child i).1 b (σ₁.child i).2 else runBranches rounds i bs σ₁ := by
  rw [runBranches, bind_apply, htest]
  cases holds <;> rfl

theorem runBlock_cons_of_signal (hs : runStmt rounds i s σ = .ok (some sig) σ₁) :
    runBlock rounds i (s :: rest) σ = .ok (some sig) σ₁ := by
  rw [runBlock, bind_apply, hs]
  rfl

theorem runBlock_cons_of_none (hs : runStmt rounds i s σ = .ok none σ₁) :
    runBlock rounds i (s :: rest) σ = runBlock rounds i rest σ₁ := by
  rw [runBlock, bind_apply, hs]

/-- At most `n` rounds of the loop with the condition `c` and the body `b`. -/
abbrev loopRounds (rounds : Nat) (i : ScopeId) (c : Expr) (b : List Stmt) (n : Nat) : Exec (Option Signal) :=
  repeatWhile (test i c) (do runBlock rounds (← Exec.enter i) b) n

/-- What a loop does with the signal that a round ends with. -/
theorem loopRounds_of_body : test i c σ = .ok true σ₁ →
    runBlock rounds (σ₁.child i).1 b (σ₁.child i).2 = .ok signal σ' →
    loopRounds rounds i c b (n + 1) σ =
      match signal with
      | some .break => .ok none σ'
      | some (.ret v) => .ok (some (.ret v)) σ'
      | _ => loopRounds rounds i c b n σ' := by
  intro htest hbody
  have henter : (do runBlock rounds (← Exec.enter i) b : Exec (Option Signal)) σ₁ = .ok signal σ' := hbody
  rw [loopRounds, repeatWhile, bind_apply, htest]
  simp only [if_true]
  rw [bind_apply, henter]
  rcases signal with _ | _ | _ | _ <;> rfl

theorem loopRounds_again (htest : test i c σ = .ok true σ₁)
    (hbody : runBlock rounds (σ₁.child i).1 b (σ₁.child i).2 = .ok signal σ')
    (hsignal : signal = none ∨ signal = some .continue) :
    loopRounds rounds i c b (n + 1) σ = loopRounds rounds i c b n σ' := by
  rw [loopRounds_of_body htest hbody]
  rcases hsignal with rfl | rfl <;> rfl

/-- A loop that ends has found its condition not to hold, or a round has ended with a signal to leave it, or the
rounds after the first have ended so. -/
theorem loopRounds_eq_ok (h : loopRounds rounds i c b (n + 1) σ = .ok signal σ') :
    signal = none ∨ ∃ σ₁, test i c σ = .ok true σ₁ ∧
      ((∃ v, signal = some (.ret v) ∧ runBlock rounds (σ₁.child i).1 b (σ₁.child i).2 = .ok signal σ') ∨
        ∃ last σ₂, runBlock rounds (σ₁.child i).1 b (σ₁.child i).2 = .ok last σ₂ ∧
          (last = none ∨ last = some .continue) ∧ loopRounds rounds i c b n σ₂ = .ok signal σ') := by
  rw [loopRounds, repeatWhile] at h
  obtain ⟨holds, σ₁, htest, h⟩ := bind_eq_ok.1 h
  cases holds with
  | false =>
      cases h
      exact .inl rfl
  | true =>
      obtain ⟨last, σ₂, hbody, h⟩ := bind_eq_ok.1 h
      rcases last with _ | v | _ | _
      · exact .inr ⟨σ₁, htest, .inr ⟨_, σ₂, hbody, .inl rfl, h⟩⟩
      · cases h
        exact .inr ⟨σ₁, htest, .inl ⟨v, rfl, hbody⟩⟩
      · cases h
        exact .inl rfl
      · exact .inr ⟨σ₁, htest, .inr ⟨_, σ₂, hbody, .inr rfl, h⟩⟩

/-! ## The way up -/

mutual

theorem StmtComes.handedUp {rounds : Nat} {spot : Spot} {x : Bool} {i : ScopeId} {s : Stmt} {σ σ' : Store}
    {sig : Signal} (hsends : runStmt rounds spot.scope spot.stmt spot.store = .ok (some sig) σ') :
    StmtComes rounds spot x i s σ → (x = true → ∃ v, sig = .ret v) → runStmt rounds i s σ = .ok (some sig) σ'
  | .self hspot, _ => by
      rw [hspot] at hsends
      exact hsends
  | .block h, hx => h.handedUp hsends hx
  | .branch h, hx => h.handedUp hsends hx
  | .loop h, hx => by
      obtain ⟨v, rfl⟩ := hx rfl
      exact h.handedUp hsends

theorem LoopComes.handedUp {rounds n : Nat} {spot : Spot} {i : ScopeId} {c : Expr} {b : List Stmt} {σ σ' : Store}
    {v : Value} (hsends : runStmt rounds spot.scope spot.stmt spot.store = .ok (some (.ret v)) σ') :
    LoopComes rounds spot n i c b σ → loopRounds rounds i c b n σ = .ok (some (.ret v)) σ'
  | .body htest h => loopRounds_of_body htest (h.handedUp hsends fun _ => ⟨v, rfl⟩)
  | .again htest hbody hsignal h => (loopRounds_again htest hbody hsignal).trans (h.handedUp hsends)

theorem BranchesCome.handedUp {rounds : Nat} {spot : Spot} {x : Bool} {i : ScopeId} {bs : Branches} {σ σ' : Store}
    {sig : Signal} (hsends : runStmt rounds spot.scope spot.stmt spot.store = .ok (some sig) σ') :
    BranchesCome rounds spot x i bs σ → (x = true → ∃ v, sig = .ret v) →
      runBranches rounds i bs σ = .ok (some sig) σ'
  | .body htest h, hx => (runBranches_arm_of_test htest).trans (h.handedUp hsends hx)
  | .rest htest h, hx => (runBranches_arm_of_test htest).trans (h.handedUp hsends hx)
  | .otherwise h, hx => h.handedUp hsends hx

/-- A signal that is sent where a run comes to is what the run ends with, with the store left as it is, if no loop
on the way takes it. -/
theorem BlockComes.handedUp {rounds : Nat} {spot : Spot} {x : Bool} {i : ScopeId} {b : List Stmt} {σ σ' : Store}
    {sig : Signal} (hsends : runStmt rounds spot.scope spot.stmt spot.store = .ok (some sig) σ') :
    BlockComes rounds spot x i b σ → (x = true → ∃ v, sig = .ret v) → runBlock rounds i b σ = .ok (some sig) σ'
  | .head h, hx => runBlock_cons_of_signal (h.handedUp hsends hx)
  | .tail hs h, hx => (runBlock_cons_of_none hs).trans (h.handedUp hsends hx)

end

/-! ## Where a signal comes from -/

/-- The statements that send a signal. -/
inductive Sends : Stmt → Signal → Prop where
  | ret {e : Option Expr} {v : Value} : Sends (.ret e) (.ret v)
  | break : Sends .break .break
  | continue : Sends .continue .continue

/-- At one of the spots in `S`, each of which is or is not inside a loop, the signal is sent and leaves the store
`σ'`. Only a return comes out of a loop. -/
def SentAt (rounds : Nat) (S : Bool → Spot → Prop) (sig : Signal) (σ' : Store) : Prop :=
  ∃ x spot, S x spot ∧ Sends spot.stmt sig ∧
    runStmt rounds spot.scope spot.stmt spot.store = .ok (some sig) σ' ∧ (x = true → ∃ v, sig = .ret v)

theorem SentAt.mono {S S' : Bool → Spot → Prop} (hS : ∀ x spot, S x spot → S' x spot)
    (h : SentAt rounds S sig σ') : SentAt rounds S' sig σ' := by
  obtain ⟨x, spot, hspot, hrest⟩ := h
  exact ⟨x, spot, hS x spot hspot, hrest⟩

/-- A loop hands up only returns, and each comes from a round. -/
theorem loopRounds_sentAt {rounds : Nat} {i : ScopeId} {c : Expr} {b : List Stmt} {σ' : Store} {sig : Signal}
    (hb : ∀ j σ, runBlock rounds j b σ = .ok (some sig) σ' →
      SentAt rounds (fun x spot => BlockComes rounds spot x j b σ) sig σ') :
    (n : Nat) → (σ : Store) → loopRounds rounds i c b n σ = .ok (some sig) σ' →
      (∃ v, sig = .ret v) ∧ SentAt rounds (fun _ spot => LoopComes rounds spot n i c b σ) sig σ'
  | 0, _, h => nomatch h
  | n + 1, σ, h => by
      rcases loopRounds_eq_ok h with hnone | ⟨σ₁, htest, ⟨v, hv, hbody⟩ | ⟨last, σ₂, hbody, hlast, hrest⟩⟩
      · cases hnone
      · cases hv
        exact ⟨⟨v, rfl⟩, (hb _ _ hbody).mono fun x spot hspot => .body htest hspot⟩
      · obtain ⟨hret, hsent⟩ := loopRounds_sentAt hb n σ₂ hrest
        exact ⟨hret, hsent.mono fun x spot hspot => .again htest hbody hlast hspot⟩

mutual

theorem runStmt_sentAt {rounds : Nat} {σ' : Store} {sig : Signal} (i : ScopeId) : (s : Stmt) → (σ : Store) →
    runStmt rounds i s σ = .ok (some sig) σ' → SentAt rounds (fun x spot => StmtComes rounds spot x i s σ) sig σ'
  | .block b, σ, h => (runBlock_sentAt _ b _ h).mono fun _ _ => .block
  | .noop, _, h => nomatch h
  | .expr e, σ, h => by
      obtain ⟨_, _, _, h⟩ := bind_eq_ok.1 h
      cases h
  | .branch bs, σ, h => (runBranches_sentAt i bs σ h).mono fun _ _ => .branch
  | .loop c b, σ, h => by
      obtain ⟨hret, x, spot, hspot, hsends, hrun, _⟩ :=
        loopRounds_sentAt (fun j τ => runBlock_sentAt j b τ) rounds σ h
      exact ⟨true, spot, .loop hspot, hsends, hrun, fun _ => hret⟩
  | .declare ds, σ, h => by
      obtain ⟨_, _, _, h⟩ := bind_eq_ok.1 h
      cases h
  | .assign target e, σ, h => by
      obtain ⟨_, _, _, h⟩ := bind_eq_ok.1 h
      obtain ⟨_, _, _, h⟩ := bind_eq_ok.1 h
      cases h
  | .ret e, σ, h => by
      have hsends : Sends (.ret e) sig := by
        obtain ⟨v, _, _, hv⟩ := bind_eq_ok.1 h
        cases hv
        exact .ret
      exact ⟨false, ⟨i, .ret e, σ⟩, .self rfl, hsends, h, nofun⟩
  | .break, σ, h => by
      cases h
      exact ⟨false, ⟨i, .break, σ'⟩, .self rfl, .break, rfl, nofun⟩
  | .continue, σ, h => by
      cases h
      exact ⟨false, ⟨i, .continue, σ'⟩, .self rfl, .continue, rfl, nofun⟩

theorem runBranches_sentAt {rounds : Nat} {σ' : Store} {sig : Signal} (i : ScopeId) : (bs : Branches) →
    (σ : Store) → runBranches rounds i bs σ = .ok (some sig) σ' →
    SentAt rounds (fun x spot => BranchesCome rounds spot x i bs σ) sig σ'
  | .arm c b rest, σ, h => by
      obtain ⟨holds, σ₁, htest, _⟩ := bind_eq_ok.1 h
      rw [runBranches_arm_of_test htest] at h
      cases holds with
      | true => exact (runBlock_sentAt _ b _ h).mono fun _ _ => .body htest
      | false => exact (runBranches_sentAt i rest σ₁ h).mono fun _ _ => .rest htest
  | .otherwise b, σ, h => (runBlock_sentAt _ b _ h).mono fun _ _ => .otherwise

/-- A signal that a run ends with was sent by a statement that the run came to last. -/
theorem runBlock_sentAt {rounds : Nat} {σ' : Store} {sig : Signal} (i : ScopeId) : (b : List Stmt) → (σ : Store) →
    runBlock rounds i b σ = .ok (some sig) σ' → SentAt rounds (fun x spot => BlockComes rounds spot x i b σ) sig σ'
  | [], _, h => nomatch h
  | s :: rest, σ, h => by
      obtain ⟨signal, σ₁, hs, _⟩ := bind_eq_ok.1 h
      cases signal with
      | some sig' =>
          cases (runBlock_cons_of_signal hs).symm.trans h
          exact (runStmt_sentAt i s σ hs).mono fun _ _ => .head
      | none =>
          rw [runBlock_cons_of_none hs] at h
          exact (runBlock_sentAt i rest σ₁ h).mono fun _ _ => .tail hs

end

theorem SentAt.holds (h : SentAt rounds (fun x spot => BlockComes rounds spot x i b σ) sig σ') :
    ∃ x t, BlockHolds t x b ∧ Sends t sig ∧ (x = true → ∃ v, sig = .ret v) := by
  obtain ⟨x, spot, hspot, hsends, _, hx⟩ := h
  exact ⟨x, spot.stmt, hspot.holds, hsends, hx⟩

/-! ## Returns that a check finds -/

mutual

theorem StmtHolds.checked {e : Option Expr} {x : Bool} {s : Stmt} {j : ScopeId} {G G' : TypeScopes} {r : Option Ty} :
    StmtHolds (.ret e) x s → checkStmt j s G = .ok r G' → ∃ t, r = some t
  | .self, hc => by
      cases e with
      | none =>
          cases hc
          exact ⟨.null, rfl⟩
      | some e =>
          obtain ⟨t, _, hr, _⟩ := checkStmt_ret_eq_ok.1 hc
          exact ⟨t, hr⟩
  | .block h, hc => h.checked (checkStmt_block_eq_ok.1 hc)
  | .branch h, hc => h.checked hc
  | .loop h, hc => h.checked (checkStmt_loop_eq_ok.1 hc).2

theorem BranchesHold.checked {e : Option Expr} {x : Bool} {bs : Branches} {j : ScopeId} {G G' : TypeScopes}
    {sofar r : Option Ty} : BranchesHold (.ret e) x bs → checkBranches j sofar bs G = .ok r G' → ∃ t, r = some t
  | .body h, hc => by
      obtain ⟨_, found, G₁, m, hbody, hmerges, hrest⟩ := checkBranches_arm_eq_ok.1 hc
      obtain ⟨t, rfl⟩ := h.checked hbody
      rw [hmerges.found] at hrest
      exact ⟨t, checkBranches_sofar hrest⟩
  | .rest h, hc => by
      obtain ⟨_, _, _, _, _, _, hrest⟩ := checkBranches_arm_eq_ok.1 hc
      exact h.checked hrest
  | .otherwise h, hc => by
      obtain ⟨found, hbody, hmerges⟩ := checkBranches_otherwise_eq_ok.1 hc
      obtain ⟨t, rfl⟩ := h.checked hbody
      exact ⟨t, hmerges.found⟩

/-- A return that stands in a program has a type in the result of its check, reached or not. -/
theorem BlockHolds.checked {e : Option Expr} {x : Bool} {b : List Stmt} {j : ScopeId} {G G' : TypeScopes}
    {sofar r : Option Ty} : BlockHolds (.ret e) x b → checkBlock j sofar b G = .ok r G' → ∃ t, r = some t
  | .head h, hc => by
      obtain ⟨found, G₁, m, hs, hmerges, hrest⟩ := checkBlock_cons_eq_ok.1 hc
      obtain ⟨t, rfl⟩ := h.checked hs
      rw [hmerges.found] at hrest
      exact ⟨t, checkBlock_sofar hrest⟩
  | .tail h, hc => by
      obtain ⟨_, _, _, _, _, hrest⟩ := checkBlock_cons_eq_ok.1 hc
      exact h.checked hrest

end

/-! ## Calls -/

theorem call_eq_ok {f : Function} {arguments : List Value} {v : Value} : f.call rounds arguments σ = .ok v σ' ↔
    arguments.length = f.parameters.length ∧
      ∃ signal, runBlock rounds (σ.child f.scope).1 f.body (f.entered arguments σ) = .ok signal σ' ∧
        (signal = some (.ret v) ∨ (∀ u, signal ≠ some (.ret u)) ∧ v = .null) := by
  unfold Function.call
  split
  · rename_i harity
    refine iff_of_false (fun h => ?_) fun h => harity h.1
    cases h
  · rename_i harity
    have hlength := Decidable.not_not.1 harity
    constructor
    · intro h
      obtain ⟨_, _, henter, h⟩ := bind_eq_ok.1 h
      obtain ⟨_, _, hbind, h⟩ := bind_eq_ok.1 h
      cases henter
      cases hbind
      obtain ⟨signal, σ₁, hrun, h⟩ := bind_eq_ok.1 h
      refine ⟨hlength, signal, ?_⟩
      rcases signal with _ | u | _ | _ <;> cases h
      · exact ⟨hrun, .inr ⟨by simp, rfl⟩⟩
      · exact ⟨hrun, .inl rfl⟩
      · exact ⟨hrun, .inr ⟨by simp, rfl⟩⟩
      · exact ⟨hrun, .inr ⟨by simp, rfl⟩⟩
    · rintro ⟨_, signal, hrun, hsignal⟩
      refine bind_eq_ok.2 ⟨_, _, rfl, bind_eq_ok.2 ⟨_, _, rfl, bind_eq_ok.2 ⟨signal, σ', hrun, ?_⟩⟩⟩
      rcases hsignal with rfl | ⟨hnoret, rfl⟩
      · rfl
      · rcases signal with _ | u | _ | _
        · rfl
        · exact absurd rfl (hnoret u)
        · rfl
        · rfl

/-- The signal that a run ends with comes from a statement that sends it, and that is in no loop of the program
unless it is a return. It leaves the store as it was then, so whatever stands after that statement, in any of the
bodies up to the whole, has done nothing. A loop that takes a signal goes on from that store, or ends with it. A
program that is accepted as one without returns does not return, and a call takes all signals. -/
theorem signals_stay_in_construct (rounds : Nat) :
    (∀ i b σ sig σ', runBlock rounds i b σ = .ok (some sig) σ' →
      (sig = .break → BlockHolds .break false b) ∧ (sig = .continue → BlockHolds .continue false b) ∧
      ∀ v, sig = .ret v → ∃ x e, BlockHolds (.ret e) x b) ∧
    (∀ i c b σ signal σ', runStmt rounds i (.loop c b) σ = .ok signal σ' →
      signal = none ∨ ∃ v, signal = some (.ret v)) ∧
    (∀ j b G G', check j b G = .ok none G' → ∀ i σ v σ', runBlock rounds i b σ ≠ .ok (some (.ret v)) σ') ∧
    (∀ f arguments σ v σ', Function.call f rounds arguments σ = .ok v σ' ↔
      arguments.length = f.parameters.length ∧
        ∃ signal, runBlock rounds (σ.child f.scope).1 f.body (f.entered arguments σ) = .ok signal σ' ∧
          (signal = some (.ret v) ∨ (∀ u, signal ≠ some (.ret u)) ∧ v = .null)) ∧
    (∀ i b σ sig σ', runBlock rounds i b σ = .ok (some sig) σ' ↔
      SentAt rounds (fun x spot => BlockComes rounds spot x i b σ) sig σ') ∧
    (∀ x spot i b σ sig σ', BlockComes rounds spot x i b σ →
      runStmt rounds spot.scope spot.stmt spot.store = .ok (some sig) σ' → (x = true → ∃ v, sig = .ret v) →
      runBlock rounds i b σ = .ok (some sig) σ') ∧
    ∀ spot i c b σ σ₁ sig σ' n, test i c σ = .ok true σ₁ →
      BlockComes rounds spot false (σ₁.child i).1 b (σ₁.child i).2 →
      runStmt rounds spot.scope spot.stmt spot.store = .ok (some sig) σ' →
      (sig = .break → loopRounds rounds i c b (n + 1) σ = .ok none σ') ∧
      (sig = .continue → loopRounds rounds i c b (n + 1) σ = loopRounds rounds i c b n σ') := by
  refine ⟨?_, ?_, ?_, ?_, ?_, ?_, ?_⟩
  · intro i b σ sig σ' h
    obtain ⟨x, t, hholds, hsends, hx⟩ := (runBlock_sentAt i b σ h).holds
    have houtside (hsig : ∀ v, sig ≠ .ret v) : x = false :=
      Bool.eq_false_iff.2 fun htrue => (hx htrue).elim fun v hv => hsig v hv
    cases hsends with
    | ret => exact ⟨nofun, nofun, fun _ _ => ⟨x, _, hholds⟩⟩
    | «break» => exact ⟨fun _ => houtside nofun ▸ hholds, nofun, nofun⟩
    | «continue» => exact ⟨nofun, fun _ => houtside nofun ▸ hholds, nofun⟩
  · intro i c b σ signal σ' h
    cases signal with
    | none => exact .inl rfl
    | some sig =>
        obtain ⟨⟨v, rfl⟩, _⟩ := loopRounds_sentAt (fun j τ => runBlock_sentAt j b τ) rounds σ h
        exact .inr ⟨v, rfl⟩
  · intro j b G G' hc i σ v σ' h
    obtain ⟨x, t, hholds, hsends, _⟩ := (runBlock_sentAt i b σ h).holds
    cases hsends
    obtain ⟨_, ht⟩ := hholds.checked hc
    cases ht
  · intro f arguments σ v σ'
    exact call_eq_ok
  · intro i b σ sig σ'
    constructor
    · exact runBlock_sentAt i b σ
    · rintro ⟨x, spot, hcomes, _, hrun, hx⟩
      exact hcomes.handedUp hrun hx
  · intro x spot i b σ sig σ' hcomes hrun hx
    exact hcomes.handedUp hrun hx
  · intro spot i c b σ σ₁ sig σ' n htest hcomes hrun
    have hbody := hcomes.handedUp hrun nofun
    constructor
    · rintro rfl
      exact loopRounds_of_body htest hbody
    · rintro rfl
      exact loopRounds_again htest hbody (.inr rfl)

/-- A return inside an `if` inside a loop, with a use of an unknown name after it in each body:
`while True { if True { return 1; z; } z; } z;`. -/
def nestedReturn : List Stmt :=
  [.loop (.constant (.bool true))
    [.branch (.arm (.constant (.bool true)) [.ret (some (.constant (.int 1))), .expr (.var "z")] (.otherwise [])),
      .expr (.var "z")],
    .expr (.var "z")]

/-- The return leaves all the bodies before the unknown name is looked up, and a loop that is left at once does not
return, as its check says. -/
theorem nestedReturn_leaves_bodies :
    (∃ σ', runBlock 1 ⟨0⟩ nestedReturn .empty = .ok (some (.ret (.int 1))) σ') ∧
    ∀ v σ', runBlock 1 ⟨0⟩ [.loop (.constant (.bool true)) [.break]] .empty ≠ .ok (some (.ret v)) σ' := by
  obtain ⟨_, _, hcheck, _, _, hup, _⟩ := signals_stay_in_construct 1
  constructor
  · exact ⟨_, hup true ⟨_, .ret (some (.constant (.int 1))), _⟩ ⟨0⟩ nestedReturn .empty _ _
      (.head (.loop (.body rfl (.head (.branch (.body rfl (.head (.self rfl)))))))) rfl fun _ => ⟨_, rfl⟩⟩
  · exact hcheck ⟨0⟩ _ .empty _ rfl ⟨0⟩ .empty

end ScriptEngine
