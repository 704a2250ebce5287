import Mathlib.Data.List.DropRight
import ScriptEngine.Proofs.Parser.Placement
import ScriptEngine.Text.Unicode

/-!
# How errors of the syntax are drawn

The drawing of an error shows the line of its position without the blanks on both sides and puts a caret
below. Both lines start equally wide, and the caret moves left with the line, so it stands under the
character that the position means, if that is shown. Only a caret that is too far from the indentation of
its line is not drawn.
-/

namespace ScriptEngine

open Source

/-! ## Rows -/

namespace Source

theorem splitLines_of_not_mem {cs : List Char} (h : '\n' ∉ cs) : splitLines cs = [cs] := by
  induction cs with
  | nil => rfl
  | cons c cs ih =>
      rw [List.mem_cons, not_or] at h
      simp [splitLines, Ne.symm h.1, ih h.2]

theorem eq_dropReturn_or (row : List Char) : dropReturn row = row ∨ row = dropReturn row ++ ['\r'] := by
  unfold dropReturn
  split
  · rename_i h
    exact .inr (List.dropLast_append_getLast? _ h).symm
  · exact .inl rfl

end Source

namespace Text

theorem trimEnd_prefix (cs : List Char) : trimEnd cs <+: cs := List.rdropWhile_prefix isBlank cs

theorem trimEnd_append (xs ys : List Char) :
    trimEnd (xs ++ ys) = if trimEnd ys = [] then trimEnd xs else xs ++ trimEnd ys := by
  simp only [trimEnd, List.reverse_append, List.dropWhile_append, List.isEmpty_iff, List.reverse_eq_nil_iff]
  split <;> simp

end Text

namespace Error

/-- The number of spaces and tabs that a line starts with. -/
def indent (row : List Char) : Nat := (row.takeWhile isIndent).length

theorem length_dropWhile_isIndent (row : List Char) :
    row.length - (row.dropWhile isIndent).length = indent row := by
  have h := congrArg List.length (List.takeWhile_append_dropWhile (p := isIndent) (l := row))
  rw [List.length_append] at h
  unfold indent
  omega

/-- The carriage return that ends a line is not shown, and no part of its indentation. -/
theorem shown_dropReturn (row : List Char) :
    Text.trimEnd ((dropReturn row).dropWhile isIndent) = Text.trimEnd (row.dropWhile isIndent) ∧
      indent (dropReturn row) = indent row := by
  rcases eq_dropReturn_or row with h | h
  · rw [h]
    exact ⟨rfl, rfl⟩
  · generalize dropReturn row = cs at h
    subst h
    have hdrop : (cs ++ ['\r']).dropWhile isIndent = cs.dropWhile isIndent ++ ['\r'] := by
      rw [List.dropWhile_append]
      split
      · rename_i hempty
        rw [List.isEmpty_iff.mp hempty]
        rfl
      · rfl
    refine ⟨?_, ?_⟩
    · rw [hdrop]
      exact (List.rdropWhile_concat_pos _ _ _ rfl).symm
    · rw [← length_dropWhile_isIndent, ← length_dropWhile_isIndent, hdrop]
      simp

/-! ## Lines of a drawing -/

/-- The mark at column `width` of a line that is filled up before it. -/
def ruled (fill mark : Char) (width : Nat) : List Char := List.replicate (width - 1) fill ++ [mark]

theorem padded?_eq (fill mark : Char) (width : Nat) :
    padded? fill [mark] width = if width < UInt16.size then some (ruled fill mark width) else none := rfl

/-- What is drawn before a line of the source. -/
def lead (p : Position) : List Char := (toString p.line).toList ++ [' ', '|', ' ']

/-- What is drawn before the dashes and the caret. -/
def margin (p : Position) : List Char := ruled ' ' '|' ((toString p.line).toList.length + 2) ++ [' ']

theorem toList_toString_line (p : Position) : (toString p.line).toList = Nat.toDigits 10 p.line.toNat := by
  change (toString p.line.toNat).toList = _
  rw [Nat.toString_eq_ofList_toDigits, String.toList_ofList]

/-- The number of a line has at most ten digits. -/
theorem length_toString_line_le (p : Position) : (toString p.line).toList.length ≤ 10 := by
  rw [toList_toString_line, Nat.length_toDigits_le_iff (by decide) (by decide)]
  exact Nat.lt_trans p.line.toNat_lt (by decide)

theorem length_margin (p : Position) : (margin p).length = (lead p).length := by
  simp [margin, lead, ruled]

theorem newline_not_mem_lead (p : Position) : '\n' ∉ lead p := by
  have hnumber : '\n' ∉ (toString p.line).toList := by
    intro h
    rw [toList_toString_line] at h
    cases Nat.isDigit_of_mem_toDigits (by decide) (by decide) h
  simpa [lead] using hnumber

theorem newline_not_mem_margin (p : Position) (n : Nat) : '\n' ∉ margin p ++ ruled '-' '^' n := by
  simp [margin, ruled]

/-- The last lines of the drawing of an error at `p` are the line `row` of the source, without the blanks on
both sides, and one with a caret at the column of `p`, as far to the left as the line is. -/
structure Drawn (source : String) (e : Error) (p : Position) (row : List Char) : Prop where
  lines : ∃ drawing above, e.render? source = some drawing ∧ splitLines drawing.toList = above ++
    [lead p ++ Text.trimEnd (row.dropWhile isIndent), margin p ++ ruled '-' '^' (p.column.toNat - indent row), []]
  caret : (margin p ++ ruled '-' '^' (p.column.toNat - indent row))[
    (lead p).length + (p.column.toNat - 1 - indent row)]? = some '^'
  /-- The character at the position, if it is shown, is shown above the caret. -/
  above : p.column.toNat ≤ (Text.trimEnd row).length → ∃ c, row[p.column.toNat - 1]? = some c ∧
    (lead p ++ Text.trimEnd (row.dropWhile isIndent))[
      (lead p).length + (p.column.toNat - 1 - indent row)]? = some c

/-- What is drawn of an error at `p` in the line `row` of the source. -/
def drawing (e : Error) (p : Position) (row : List Char) : List Char :=
  e.headline ++ (ruled ' ' '|' ((toString p.line).toList.length + 2) ++
    '\n' :: (lead p ++ Text.trimEnd (row.dropWhile isIndent) ++
    '\n' :: (margin p ++ ruled '-' '^' (p.column.toNat - indent row) ++ ['\n'])))

/-- An error is drawn if the distance of its caret from the indentation is a word of 16 bits. -/
theorem render?_eq {source : String} {e : Error} {p : Position} {row : List Char} (hp : e.position = some p)
    (hline : line? source.toList p.line = some (dropReturn row)) (hcol : indent row < p.column.toNat) :
    e.render? source = if p.column.toNat - indent row < UInt16.size then
      some (String.ofList (drawing e p row)) else none := by
  obtain ⟨hshown, hindent⟩ := shown_dropReturn row
  have hmax : max 1 (p.column.toNat - indent row) = p.column.toNat - indent row := by omega
  have hmargin : (toString p.line).toList.length + 2 < UInt16.size := by
    have := length_toString_line_le p
    unfold UInt16.size
    omega
  simp only [render?, hp, excerpt?, hline, Option.getD_some, hshown, length_dropWhile_isIndent, hindent, hmax,
    padded?_eq, if_pos hmargin, Option.bind_eq_bind, Option.bind_some]
  split
  · simp [drawing, lead, margin]
  · rfl

/-- What is shown of a line, without its indentation. -/
theorem getElem?_shown {row : List Char} {n : Nat} (hn : indent row ≤ n) (h : n < (Text.trimEnd row).length) :
    (Text.trimEnd (row.dropWhile isIndent))[n - indent row]? = row[n]? := by
  have happend := Text.trimEnd_append (row.takeWhile isIndent) (row.dropWhile isIndent)
  rw [List.takeWhile_append_dropWhile] at happend
  have hget : row[n]? = (Text.trimEnd row)[n]? := by
    obtain ⟨rest, hrest⟩ := Text.trimEnd_prefix row
    conv_lhs => rw [← hrest]
    exact List.getElem?_append_left h
  rw [hget, happend]
  split
  · rename_i hnil
    -- all of the line is blank, so nothing after the indentation is left of it
    rw [if_pos hnil] at happend
    have hlen := (Text.trimEnd_prefix (row.takeWhile isIndent)).length_le
    rw [happend] at h
    exact absurd (Nat.lt_of_lt_of_le h hlen) (Nat.not_lt.mpr hn)
  · exact (List.getElem?_append_right hn).symm

theorem drawn {source : String} {e : Error} {p : Position} {row : List Char} (hp : e.position = some p)
    (hline : line? source.toList p.line = some (dropReturn row)) (hrow : '\n' ∉ row)
    (hcol : indent row < p.column.toNat) (hwidth : p.column.toNat - indent row < UInt16.size) :
    Drawn source e p row where
  lines := by
    have hshown : '\n' ∉ lead p ++ Text.trimEnd (row.dropWhile isIndent) := by
      intro h
      rcases List.mem_append.mp h with h | h
      · exact newline_not_mem_lead p h
      · exact hrow ((List.dropWhile_sublist _).mem ((Text.trimEnd_prefix _).mem h))
    refine ⟨_, splitLines (e.headline ++ ruled ' ' '|' ((toString p.line).toList.length + 2)),
      (render?_eq hp hline hcol).trans (if_pos hwidth), ?_⟩
    rw [String.toList_ofList, drawing, ← List.append_assoc, splitLines_append_newline, splitLines_append_newline,
      splitLines_append_newline, splitLines_of_not_mem hshown, splitLines_of_not_mem (newline_not_mem_margin p _)]
    rfl
  caret := by
    have hwidth : p.column.toNat - 1 - indent row = p.column.toNat - indent row - 1 := by omega
    rw [← length_margin, List.getElem?_append_right (Nat.le_add_right _ _), Nat.add_sub_cancel_left, hwidth,
      ruled, List.getElem?_append_right (by simp)]
    simp
  above h := by
    have hlen : p.column.toNat - 1 < (Text.trimEnd row).length := by omega
    have hlt := Nat.lt_of_lt_of_le hlen (Text.trimEnd_prefix row).length_le
    refine ⟨_, List.getElem?_eq_getElem hlt, ?_⟩
    rw [List.getElem?_append_right (Nat.le_add_right _ _), Nat.add_sub_cancel_left,
      getElem?_shown (by omega) hlen, List.getElem?_eq_getElem hlt]

example : render? "  x = #;" (.located ⟨1, 7⟩ (.unrecognisedToken "#")) =
    some "Error: UnrecognisedToken\n  |\n1 | x = #;\n  | ----^\n" := by
  cbv

end Error

/-! ## Refused at the start -/

/-- What is refused as the first token is the error of reading a program. -/
theorem parse_of_refused [Alphabet] {source : String} {g rest : List Char} {cause : Cause} {offset reached : Nat}
    (htext : source.toList = g ++ rest) (hgap : Trivia.Gap g rest) (hend : Trivia.piece rest = 0)
    (hopens : Trivia.opensComment rest = false) (hf : Scan.front rest = .refused cause offset reached) :
    parse source = .error (.located (.of (g ++ rest.take offset)) cause) := by
  obtain ⟨b, hpass, hb, hnext⟩ :=
    Cursor.next_of_refused ((Cursor.rest_ofText source).trans htext) hgap hend hopens hf
  have hposition := (hpass.trans (b.passes_skip offset)).position_of
  rw [hb] at hposition
  simp only [parse, Parser.onText, Parser.ofText, hnext, hposition]

/-- A comment of `n` blanks. -/
def blankComment (n : Nat) : List Char := '/' :: '*' :: (List.replicate n ' ' ++ ['*', '/'])

theorem newline_not_mem_blankComment (n : Nat) : '\n' ∉ blankComment n ++ ['#'] := by
  simp [blankComment, List.mem_replicate]

theorem of_blankComment (n : Nat) : Position.of (blankComment n) = ⟨1, .ofNat (n + 5)⟩ := by
  have hmem : '\n' ∉ blankComment n := fun h => newline_not_mem_blankComment n (List.mem_append_left _ h)
  have hlength : 1 + (blankComment n).length = n + 5 := by
    simp [blankComment]
    omega
  rw [Position.of, lastLine_of_not_mem hmem, List.count_eq_zero.mpr hmem, hlength]
  rfl

theorem gap_blankComment (n : Nat) (rest : List Char) : Trivia.Gap (blankComment n) rest := by
  have hfirst : ¬['*', '/'] <:+: List.replicate n ' ' ++ ['*'] := by
    intro h
    have hslash : '/' ∈ List.replicate n ' ' ++ ['*'] := h.subset (by simp)
    simp [List.mem_replicate] at hslash
  have hgap : Trivia.Gap (blankComment n ++ []) rest := .cons (.block hfirst) .nil
  rwa [List.append_nil] at hgap

/-- A character that starts no token, after a comment. -/
theorem parse_blankComment [Alphabet] (n : Nat) : parse (String.ofList (blankComment n ++ ['#'])) =
    .error (.located ⟨1, .ofNat (n + 5)⟩ (.unrecognisedToken "#")) := by
  have hfront : Scan.front ['#'] = .refused (.unrecognisedToken "#") 0 0 := by
    rw [Scan.front, Alphabet.isAlphabetic_eq_false (by decide) rfl]
    rfl
  have h := parse_of_refused String.toList_ofList (gap_blankComment n _) rfl rfl hfront
  rwa [List.take_zero, List.append_nil, of_blankComment] at h

theorem render?_blankComment {n : Nat} {c : Cause} (hfar : UInt16.size ≤ n + 5) (hfits : n + 5 < UInt32.size) :
    (Error.located ⟨1, .ofNat (n + 5)⟩ c).render? (String.ofList (blankComment n ++ ['#'])) = none := by
  have hline : line? (String.ofList (blankComment n ++ ['#'])).toList 1 =
      some (dropReturn (blankComment n ++ ['#'])) := by
    rw [String.toList_ofList, line?, if_neg (by decide), splitLines_of_not_mem (newline_not_mem_blankComment n)]
    rfl
  have hindent : Error.indent (blankComment n ++ ['#']) = 0 := rfl
  have hcolumn : (UInt32.ofNat (n + 5)).toNat = n + 5 := UInt32.toNat_ofNat_of_lt' hfits
  rw [Error.render?_eq rfl hline (by rw [hindent, hcolumn]; omega), hindent, hcolumn]
  exact if_neg (by omega)

/-! ## Marked places -/

theorem Error.indent_append_le {xs ys : List Char}
    (h : (∃ c ∈ xs, isIndent c = false) ∨ ∀ c, ys.head? = some c → isIndent c = false) :
    indent (xs ++ ys) ≤ xs.length := by
  unfold indent
  rw [List.takeWhile_append]
  split
  · rename_i hall
    rcases h with ⟨c, hc, hi⟩ | h
    · rw [← (List.takeWhile_prefix isIndent).eq_of_length hall] at hc
      rw [List.mem_takeWhile_imp hc] at hi
      cases hi
    · cases ys with
      | nil => simp
      | cons c ys => simp [h c rfl]
  · exact (List.takeWhile_prefix isIndent).length_le

/-- The line of a marked place holds it, after the indentation. -/
theorem Marked.row {source : String} {p : Position} (h : Marked source p) (hsize : source.length + 1 < UInt32.size) :
    ∃ row, (splitLines source.toList)[p.line.toNat - 1]? = some row ∧
      line? source.toList p.line = some (dropReturn row) ∧ '\n' ∉ row ∧
      1 ≤ p.column.toNat ∧ p.column.toNat ≤ row.length + 1 ∧ Error.indent row < p.column.toNat := by
  obtain ⟨pre, rest, htext, rfl, hmark⟩ := h
  have hfits : Position.Fits pre := by
    refine .of_length (Nat.lt_of_le_of_lt ?_ hsize)
    rw [← String.length_toList, htext, List.length_append]
    omega
  obtain ⟨_, _, hlast, _⟩ := exists_append_lastLine pre
  have hrow := splitLines_append pre rest
  rw [← htext] at hrow
  rw [line?_of hfits, hfits.line_toNat, hfits.column_toNat, Nat.add_sub_cancel_left, hrow]
  refine ⟨_, rfl, rfl, ?_, Nat.le_add_right _ _, ?_, ?_⟩
  · intro h
    rcases List.mem_append.mp h with h | h
    · exact hlast h
    · simpa using List.mem_takeWhile_imp h
  · rw [List.length_append]
    omega
  · have hle : Error.indent (lastLine pre ++ rest.takeWhile (· != '\n')) ≤ (lastLine pre).length := by
      refine Error.indent_append_le (hmark.imp_right fun h c hc => h c ?_)
      rw [List.head?_takeWhile] at hc
      exact (Option.filter_eq_some_iff.mp hc).1
    omega

/-- An error of reading a program or an expression is one of the syntax, with a position in a line of the
source, if the words of a position can count the characters of the source. Its column is that of a character of
the line or the next one, and lies after the indentation. The caret is drawn under it, unless it stands too far
from the indentation: then nothing is drawn. -/
theorem syntax_errors_drawn_in_place [Alphabet] {source : String} {e : Error}
    (h : parse source = .error e ∨ parseExpr source = .error e) (hsize : source.length + 1 < UInt32.size) :
    e.cause.kind = .syntactic ∧ ∃ p row, e.position = some p ∧
      (splitLines source.toList)[p.line.toNat - 1]? = some row ∧
      line? source.toList p.line = some (dropReturn row) ∧
      1 ≤ p.column.toNat ∧ p.column.toNat ≤ row.length + 1 ∧ Error.indent row < p.column.toNat ∧
      if p.column.toNat - Error.indent row < UInt16.size then Error.Drawn source e p row
      else e.render? source = none := by
  obtain ⟨hkind, p, hp, hmarked⟩ := blames_of_parse h
  obtain ⟨row, hrow, hline, hnewline, hpos, hle, hindent⟩ := hmarked.row hsize
  refine ⟨hkind, p, row, hp, hrow, hline, hpos, hle, hindent, ?_⟩
  split
  · rename_i hwidth
    exact Error.drawn hp hline hnewline hindent hwidth
  · rename_i hwidth
    exact (Error.render?_eq hp hline hindent).trans (if_neg hwidth)

open scoped Unicode16

/-- An unknown escape in the second line of a string literal. -/
theorem unknownEscape_drawn_in_place :
    let source := "\"a\n  b\\q\""
    let e : Error := .located ⟨2, 5⟩ (.unknownEscape "q")
    parse source = .error e ∧ source.length + 1 < UInt32.size ∧
      ∃ row, line? source.toList 2 = some (dropReturn row) ∧ Error.Drawn source e ⟨2, 5⟩ row := by
  have hbody : StringLiteral.body ['a', '\n', ' ', ' ', 'b', '\\', 'q', '\x22'] = .unknown ['q'] 6 6 := by
    simp [StringLiteral.body, StringLiteral.escape, StringLiteral.escaped?, StringLiteral.isOctal,
      StringLiteral.Body.after]
  have hfront : Scan.front ['\x22', 'a', '\n', ' ', ' ', 'b', '\\', 'q', '\x22'] =
      .refused (.unknownEscape "q") 7 7 := by
    rw [Scan.front_quote, hbody]
  have htext : "\"a\n  b\\q\"".toList = [] ++ ['\x22', 'a', '\n', ' ', ' ', 'b', '\\', 'q', '\x22'] := by
    simp
  have hparse : parse "\"a\n  b\\q\"" = .error (.located ⟨2, 5⟩ (.unknownEscape "q")) :=
    parse_of_refused htext .nil rfl rfl hfront
  have hsize : "\"a\n  b\\q\"".length + 1 < UInt32.size := by decide
  obtain ⟨_, p, row, hp, _, hline, _, _, _, hdrawn⟩ := syntax_errors_drawn_in_place (.inl hparse) hsize
  obtain rfl : ⟨2, 5⟩ = p := Option.some.inj hp
  have hnear : (5 : UInt32).toNat - Error.indent row < UInt16.size := Nat.lt_of_le_of_lt (Nat.sub_le _ _) (by decide)
  rw [if_pos hnear] at hdrawn
  exact ⟨hparse, hsize, row, hline, hdrawn⟩

/-- After a comment of 65535 characters comes a character that starts no token. The caret belongs at column 65536,
and nothing is drawn. -/
theorem error_after_long_comment_not_drawn :
    let source := String.ofList (blankComment 65531 ++ ['#'])
    let e : Error := .located ⟨1, 65536⟩ (.unrecognisedToken "#")
    parse source = .error e ∧ e.render? source = none ∧ ∀ row, ¬Error.Drawn source e ⟨1, 65536⟩ row := by
  have hrender := render?_blankComment (n := 65531) (c := .unrecognisedToken "#") (by decide) (by decide)
  refine ⟨parse_blankComment 65531, hrender, ?_⟩
  rintro row ⟨⟨_, _, hdrawn, _⟩, _, _⟩
  cases hrender.symm.trans hdrawn

end ScriptEngine
