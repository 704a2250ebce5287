import Mathlib.Data.List.Infix
import Mathlib.Data.List.TakeWhile
import ScriptEngine.Token.Scan

/-!
# The shape of trivia

What counts as a piece of trivia depends on what follows it only where a line comment ends. The length
that is skipped at the front of a text is that of a sequence of pieces, and no piece comes after it.
-/

namespace ScriptEngine.Trivia

/-- The characters `p` are a piece of trivia when `rest` follows them. -/
inductive Piece : List Char → List Char → Prop where
  | space {c : Char} {rest : List Char} : c = ' ' ∨ c = '\t' ∨ c = '\n' → Piece [c] rest
  /-- A comment up to the end of its line, or of the text. -/
  | line {cs rest : List Char} : '\n' ∉ cs → (∀ c, rest.head? = some c → c = '\n') →
      Piece ('/' :: '/' :: cs) rest
  /-- A comment up to the first `*/`. -/
  | block {cs rest : List Char} : ¬['*', '/'] <:+: cs ++ ['*'] →
      Piece ('/' :: '*' :: (cs ++ ['*', '/'])) rest

/-- The characters `g` are pieces of trivia, one after the other, when `rest` follows them. -/
inductive Gap : List Char → List Char → Prop where
  | nil {rest : List Char} : Gap [] rest
  | cons {p g rest : List Char} : Piece p (g ++ rest) → Gap g rest → Gap (p ++ g) rest

/-! ## Comments -/

theorem commentEnd?_eq_some {cs : List Char} {n : Nat} (h : commentEnd? cs = some n) :
    ∃ body rest, cs = body ++ '*' :: '/' :: rest ∧ n = body.length + 2 ∧ ¬['*', '/'] <:+: body ++ ['*'] := by
  induction cs generalizing n with
  | nil => cases h
  | cons c cs ih =>
      by_cases hend : ∃ rest, c = '*' ∧ cs = '/' :: rest
      · obtain ⟨rest, rfl, rfl⟩ := hend
        cases h
        exact ⟨[], rest, rfl, rfl, by decide⟩
      · rw [commentEnd?.eq_3 c cs fun rest hc hcs => hend ⟨rest, hc, hcs⟩] at h
        obtain ⟨m, hm, rfl⟩ := Option.map_eq_some_iff.mp h
        obtain ⟨body, rest, rfl, rfl, hfirst⟩ := ih hm
        refine ⟨c :: body, rest, rfl, rfl, ?_⟩
        intro hin
        rcases List.infix_cons_iff.mp hin with hpre | hin
        · cases body with
          | nil => simp at hpre
          | cons d body =>
              obtain ⟨hc, hpre⟩ := List.cons_prefix_cons.mp hpre
              obtain ⟨hd, _⟩ := List.cons_prefix_cons.mp hpre
              exact hend ⟨_, hc.symm, by rw [← hd]; rfl⟩
        · exact hfirst hin

theorem commentEnd?_append {body : List Char} (rest : List Char) (h : ¬['*', '/'] <:+: body ++ ['*']) :
    commentEnd? (body ++ '*' :: '/' :: rest) = some (body.length + 2) := by
  induction body with
  | nil => rfl
  | cons c body ih =>
      have hgoes : ∀ rest', c = '*' → body ++ '*' :: '/' :: rest = '/' :: rest' → False := by
        rintro rest' rfl hrest
        cases body with
        | nil => simp at hrest
        | cons d body =>
            simp only [List.cons_append, List.cons.injEq] at hrest
            rw [hrest.1] at h
            exact h ⟨[], body ++ ['*'], rfl⟩
      have hbody : ¬['*', '/'] <:+: body ++ ['*'] := fun hin => h (List.infix_cons hin)
      rw [List.cons_append, commentEnd?.eq_3 _ _ hgoes, ih hbody]
      rfl

/-! ## Pieces -/

theorem exists_piece {cs : List Char} (h : piece cs ≠ 0) :
    ∃ p rest, cs = p ++ rest ∧ p.length = piece cs ∧ Piece p rest := by
  unfold piece at h ⊢
  split at h
  · rename_i cs
    refine ⟨'/' :: '/' :: cs.takeWhile (· != '\n'), cs.dropWhile (· != '\n'), ?_, ?_, .line ?_ ?_⟩
    · simp
    · simp; omega
    · intro hn
      have := List.mem_takeWhile_imp hn
      simp at this
    · intro c hc
      have := List.head?_dropWhile_not (· != '\n') cs
      rw [hc] at this
      simpa using this
  · rename_i cs
    split at h
    · rename_i n hn
      obtain ⟨body, rest, rfl, rfl, hfirst⟩ := commentEnd?_eq_some hn
      refine ⟨'/' :: '*' :: (body ++ ['*', '/']), rest, ?_, ?_, .block hfirst⟩
      · simp
      · simp; omega
    · cases h rfl
  · rename_i c cs _ _
    split at h
    · rename_i hc
      exact ⟨[c], cs, rfl, by simp [hc], .space (by simpa [isSpace, or_assoc] using hc)⟩
    · cases h rfl
  · cases h rfl

/-- Of a text that starts with a piece, the piece is skipped. -/
theorem piece_append {p rest : List Char} (h : Piece p rest) : piece (p ++ rest) = p.length := by
  cases h with
  | space hc =>
      rcases hc with rfl | rfl | rfl <;> rfl
  | @line cs rest hcs hrest =>
      have hline : (cs ++ rest).takeWhile (· != '\n') = cs := by
        rw [List.takeWhile_append_of_pos fun c hc => by simpa using ne_of_mem_of_not_mem hc hcs]
        cases rest with
        | nil => simp
        | cons c rest => simp [hrest c rfl]
      simp only [List.cons_append, piece, hline, List.length_cons]
      omega
  | @block cs rest hfirst =>
      simp only [List.cons_append, List.append_assoc, List.nil_append, piece,
        commentEnd?_append rest hfirst, List.length_cons, List.length_append, List.length_nil]
      omega

theorem piece_ne_zero {p rest : List Char} (h : Piece p rest) : piece (p ++ rest) ≠ 0 := by
  rw [piece_append h]
  cases h <;> simp

/-- What is skipped is pieces, and no piece comes after them. -/
theorem exists_gap (cs : List Char) :
    ∃ g rest, cs = g ++ rest ∧ g.length = length cs ∧ Gap g rest ∧ piece rest = 0 := by
  fun_induction length cs with
  | case1 cs h => exact ⟨[], cs, rfl, rfl, .nil, h⟩
  | case2 cs h ih =>
      obtain ⟨p, rest, hcs, hlen, hp⟩ := exists_piece h
      have hdrop : cs.drop (piece cs) = rest := by rw [← hlen, hcs, List.drop_left]
      obtain ⟨g, rest', hrest, hg, hgap, hend⟩ := ih
      rw [hdrop] at hrest
      subst hrest
      refine ⟨p ++ g, rest', by rw [hcs, List.append_assoc], ?_, .cons hp hgap, hend⟩
      rw [List.length_append, hlen, hg]

/-- A gap before a text that starts with no piece is skipped, and no more. -/
theorem length_append {g rest : List Char} (h : Gap g rest) (hend : piece rest = 0) :
    length (g ++ rest) = g.length := by
  induction h with
  | nil =>
      rw [List.nil_append, length, if_pos hend]
      rfl
  | @cons p g rest hp _ ih =>
      rw [List.append_assoc, length, if_neg (piece_ne_zero hp), piece_append hp, List.drop_left, ih hend,
        List.length_append]

end ScriptEngine.Trivia
