/-!
# Source texts

A text is a row of characters, which take one to four bytes each. A place in it is known by the bytes before it, and by
its line and column, both counted from one. Columns count characters, and only a newline ends a line, so a text always
has one line more than it has newlines.
-/

namespace ScriptEngine

namespace Source

/-! ## Bytes -/

/-- The number of bytes of a row of characters. -/
def bytes (cs : List Char) : Nat := (String.ofList cs).utf8ByteSize

/-- What is left of a text after its first `n` bytes. -/
def fromByte : Nat → List Char → List Char
  | 0, cs => cs
  | _, [] => []
  | n, c :: cs => fromByte (n - c.utf8Size) cs

/-- The first `n` bytes of a text. -/
def upToByte : Nat → List Char → List Char
  | 0, _ => []
  | _, [] => []
  | n, c :: cs => c :: upToByte (n - c.utf8Size) cs

theorem bytes_nil : bytes [] = 0 := rfl

theorem bytes_append (cs ds : List Char) : bytes (cs ++ ds) = bytes cs + bytes ds := by
  simp [bytes, String.ofList_append]

theorem bytes_cons (c : Char) (cs : List Char) : bytes (c :: cs) = c.utf8Size + bytes cs := by
  rw [← List.singleton_append, bytes_append]
  simp [bytes]

theorem bytes_toList (source : String) : bytes source.toList = source.utf8ByteSize := by
  rw [bytes, String.ofList_toList]

theorem fromByte_zero (cs : List Char) : fromByte 0 cs = cs := by
  cases cs <;> rfl

theorem fromByte_bytes (cs ds : List Char) : fromByte (bytes cs) (cs ++ ds) = ds := by
  induction cs with
  | nil => exact fromByte_zero ds
  | cons c cs ih =>
    have := c.utf8Size_pos
    rw [bytes_cons, List.cons_append, fromByte, Nat.add_sub_cancel_left, ih]
    omega

theorem upToByte_bytes (cs ds : List Char) : upToByte (bytes cs) (cs ++ ds) = cs := by
  induction cs with
  | nil => cases ds <;> rfl
  | cons c cs ih =>
    have := c.utf8Size_pos
    rw [bytes_cons, List.cons_append, upToByte, Nat.add_sub_cancel_left, ih]
    omega

/-- A byte is the first one of a character, or comes after all of them, if the bytes before it are
those of some first characters. -/
theorem isValid_iff {source : String} {n : Nat} : (String.Pos.Raw.mk n).IsValid source ↔
    ∃ before rest, source.toList = before ++ rest ∧ n = bytes before := by
  rw [String.Pos.Raw.isValid_iff_exists_take_toList]
  constructor
  · rintro ⟨i, hi⟩
    exact ⟨source.toList.take i, source.toList.drop i, (List.take_append_drop i _).symm, hi⟩
  · rintro ⟨before, rest, htext, hn⟩
    refine ⟨before.length, ?_⟩
    rw [htext, List.take_left]
    exact hn

/-! ## Lines -/

/-- The pieces between newlines, in order; never empty. -/
def splitLines : List Char → List (List Char)
  | [] => [[]]
  | c :: cs =>
    if c = '\n' then [] :: splitLines cs
    else
      match splitLines cs with
      | [] => [[c]]
      | line :: rest => (c :: line) :: rest

/-- A line without the carriage return that may end it: that belongs to its terminator. -/
def dropReturn (line : List Char) : List Char :=
  if line.getLast? = some '\r' then line.dropLast else line

/-- The line with the given number, counted from one, without its terminator. -/
def line? (source : List Char) (number : UInt32) : Option (List Char) :=
  if number = 0 then none else (splitLines source)[number.toNat - 1]?.map dropReturn

theorem splitLines_ne_nil (cs : List Char) : splitLines cs ≠ [] := by
  cases cs with
  | nil => simp [splitLines]
  | cons c cs =>
    unfold splitLines
    split
    · simp
    · split <;> simp

end Source

/-! ## Positions -/

/-- A place in a source text: line and column, both from one. They are counted in words of 32 bits,
and the count starts again at zero after the last of these. -/
structure Position where
  line : UInt32
  column : UInt32
deriving DecidableEq, Repr

namespace Position

/-- Where every text begins. -/
def start : Position := ⟨1, 1⟩

def step (p : Position) (c : Char) : Position :=
  if c = '\n' then ⟨p.line + 1, 1⟩ else ⟨p.line, p.column + 1⟩

/-- The position after a run of characters. -/
def after (p : Position) (cs : List Char) : Position :=
  cs.foldl step p

/-- `line:column`. -/
def text (p : Position) : String :=
  toString p.line ++ ":" ++ toString p.column

@[simp] theorem after_nil (p : Position) : p.after [] = p := rfl

@[simp] theorem after_cons (p : Position) (c : Char) (cs : List Char) :
    p.after (c :: cs) = (p.step c).after cs := rfl

theorem after_append (p : Position) (cs ds : List Char) :
    p.after (cs ++ ds) = (p.after cs).after ds := by
  simp [after, List.foldl_append]

end Position

end ScriptEngine
