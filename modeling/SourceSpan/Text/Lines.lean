/-!
# The lines of a text

A line is ended by a line feed, by a carriage return, or by a carriage return and a line feed
together, and that pair is one ending. The text after the last ending is a line too, so a text
always has one line more than it has endings.

`lines` cuts a text into its lines and `lineOffsets` says how many characters stand before each of
them; both read the text once from the left and meet the same endings.
-/

namespace SourceSpan.Text

def consFirst (c : Char) : List (List Char) → List (List Char)
  | [] => [[c]]
  | line :: rest => (c :: line) :: rest

def lines : List Char → List (List Char)
  | [] => [[]]
  | '\r' :: '\n' :: rest => [] :: lines rest
  | '\r' :: rest => [] :: lines rest
  | '\n' :: rest => [] :: lines rest
  | c :: rest => consFirst c (lines rest)

/-- The offsets at which the lines after the first start, in a text that itself starts at `base`. -/
def offsetsAfter (base : Nat) : List Char → List Nat
  | [] => []
  | '\r' :: '\n' :: rest => (base + 2) :: offsetsAfter (base + 2) rest
  | '\r' :: rest => (base + 1) :: offsetsAfter (base + 1) rest
  | '\n' :: rest => (base + 1) :: offsetsAfter (base + 1) rest
  | _ :: rest => offsetsAfter (base + 1) rest

/-- The number of characters in front of each line. -/
def lineOffsets (text : List Char) : List Nat :=
  0 :: offsetsAfter 0 text

def breakCount (text : List Char) : Nat :=
  (lines text).length - 1

/-- What stands after the last line ending; the whole text if there is none. -/
def lastLine (text : List Char) : List Char :=
  (lines text).getLastD []

theorem consFirst_ne_nil (c : Char) (rest : List (List Char)) : consFirst c rest ≠ [] := by
  cases rest <;> simp [consFirst]

theorem length_consFirst {c : Char} {rest : List (List Char)} (h : rest ≠ []) :
    (consFirst c rest).length = rest.length := by
  cases rest <;> simp_all [consFirst]

theorem lines_ne_nil (text : List Char) : lines text ≠ [] := by
  fun_cases lines text <;> simp [consFirst_ne_nil]

/-- Both readings of a text meet the same line endings. -/
theorem length_offsetsAfter (base : Nat) (text : List Char) :
    (offsetsAfter base text).length + 1 = (lines text).length := by
  fun_induction lines text generalizing base with
  | case1 => simp [offsetsAfter]
  | case2 rest ih => simp [offsetsAfter, ih]
  | case3 rest _ ih => simp_all [offsetsAfter]
  | case4 rest ih => simp [offsetsAfter, ih]
  | case5 c rest _ _ _ ih =>
    rw [length_consFirst (lines_ne_nil rest), ← ih (base + 1)]
    simp_all [offsetsAfter]

theorem length_lineOffsets (text : List Char) :
    (lineOffsets text).length = (lines text).length := by
  simp [lineOffsets, length_offsetsAfter]

end SourceSpan.Text
