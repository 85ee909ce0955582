import SourceSpan.Proofs.Offset

/-!
# Lines and the endings between them

A text is a row of lines with a line ending between every two of them. There is only one such row:
a line contains neither half of an ending, and a carriage return is an ending of its own only where
no line feed follows, so the endings cannot be read in two ways. `lines` gives the lines of this
row, and `lineOffsets` counts the characters of the lines and endings in front of each of them.

The lines of two texts put together are known on both sides of the cut. At a seam the line at the
cut is continued; between a carriage return and a line feed two endings become one, and the empty
lines at the cut are gone.
-/

namespace SourceSpan.Text

/-- Neither a carriage return nor a line feed stands in the line. -/
def Unbroken (line : List Char) : Prop :=
  '\r' ∉ line ∧ '\n' ∉ line

instance (line : List Char) : Decidable (Unbroken line) :=
  inferInstanceAs (Decidable (_ ∧ _))

theorem unbroken_cons {c : Char} {line : List Char} :
    Unbroken (c :: line) ↔ c ≠ '\r' ∧ c ≠ '\n' ∧ Unbroken line := by
  rw [Unbroken, Unbroken, List.mem_cons, List.mem_cons]
  grind

theorem Unbroken.breakCount_eq_zero {line : List Char} (h : Unbroken line) :
    breakCount line = 0 := by
  induction line with
  | nil => rfl
  | cons c line ih =>
      obtain ⟨hcr, hlf, hline⟩ := unbroken_cons.mp h
      rw [breakCount_char hcr hlf, ih hline]

theorem Unbroken.offsetsAfter_append {line : List Char} (h : Unbroken line) (base : Nat)
    (rest : List Char) :
    offsetsAfter base (line ++ rest) = offsetsAfter (base + line.length) rest := by
  induction line generalizing base with
  | nil => rfl
  | cons c line ih =>
      obtain ⟨hcr, hlf, hline⟩ := unbroken_cons.mp h
      rw [List.cons_append, offsetsAfter_char hcr hlf, ih hline, List.length_cons,
        Nat.add_right_comm, Nat.add_assoc]

/-! ### One row of lines and endings -/

/-- A text consists of a row of lines and of the endings between them. -/
inductive Composed : List (List Char) → List (List Char) → List Char → Prop
  | last {line : List Char} (hline : Unbroken line) : Composed [line] [] line
  | cut {line ending rest : List Char} {row endings : List (List Char)} (hline : Unbroken line)
      (hending : Ending ending rest) (hrest : Composed row endings rest) :
      Composed (line :: row) (ending :: endings) (line ++ (ending ++ rest))

/-- Two endings in front of the same text are the same. -/
theorem Ending.append_inj {ending ending' rest rest' : List Char} (h : Ending ending rest)
    (h' : Ending ending' rest') (htext : ending ++ rest = ending' ++ rest') :
    ending = ending' ∧ rest = rest' := by
  -- Only a lone carriage return begins another ending, and no line feed follows it.
  cases h <;> cases h' <;> grind

theorem Ending.length_pos {ending rest : List Char} (h : Ending ending rest) :
    0 < ending.length := by
  cases h <;> exact Nat.succ_pos _

namespace Composed

variable {row endings : List (List Char)} {text : List Char}

theorem cons {c : Char} (hcr : c ≠ '\r') (hlf : c ≠ '\n') (h : Composed row endings text) :
    Composed (consFirst c row) endings (c :: text) := by
  cases h with
  | last hline => exact .last (unbroken_cons.mpr ⟨hcr, hlf, hline⟩)
  | cut hline hending hrest => exact .cut (unbroken_cons.mpr ⟨hcr, hlf, hline⟩) hending hrest

theorem unbroken (h : Composed row endings text) : ∀ line ∈ row, Unbroken line := by
  induction h with
  | last hline => exact List.forall_mem_singleton.mpr hline
  | cut hline hending hrest ih => exact List.forall_mem_cons.mpr ⟨hline, ih⟩

/-- The row of a text is found by reading the text from the left. -/
theorem lines_eq (h : Composed row endings text) : lines text = row := by
  induction h with
  | last hline => exact lines_eq_singleton hline.breakCount_eq_zero
  | cut hline hending hrest ih =>
      have hunbroken := hline.breakCount_eq_zero
      rw [lines_append_ending (seam_of_unbroken_left hunbroken _) hending,
        lines_eq_singleton hunbroken, ih, List.singleton_append]

theorem length_row (h : Composed row endings text) : row.length = endings.length + 1 := by
  induction h with
  | last hline => rfl
  | cut hline hending hrest ih => rw [List.length_cons, ih, List.length_cons]

theorem length_endings (h : Composed row endings text) : endings.length = breakCount text := by
  rw [breakCount, h.lines_eq, h.length_row, Nat.add_sub_cancel]

theorem endings_eq {endings' : List (List Char)} {text' : List Char}
    (h : Composed row endings text) (h' : Composed row endings' text') (htext : text = text') :
    endings = endings' := by
  induction h generalizing endings' text' with
  | last hline =>
      cases h' with
      | last hline' => rfl
      | cut hline' hending' hrest' => cases hrest'
  | cut hline hending hrest ih =>
      cases h' with
      | last hline' => cases hrest
      | cut hline' hending' hrest' =>
          -- The lines are the same, so both endings stand in front of the same rest.
          obtain ⟨rfl, hrests⟩ := hending.append_inj hending' (List.append_cancel_left htext)
          rw [ih hrest' hrests]

end Composed

theorem exists_composed (text : List Char) : ∃ endings, Composed (lines text) endings text := by
  induction text using reading with
  | nil => exact ⟨[], .last ⟨nofun, nofun⟩⟩
  | ending ending rest hending ih =>
      obtain ⟨endings, hrest⟩ := ih
      rw [lines_ending hending]
      exact ⟨ending :: endings, .cut ⟨nofun, nofun⟩ hending hrest⟩
  | char c rest hcr hlf ih =>
      obtain ⟨endings, hrest⟩ := ih
      rw [lines_char hcr hlf]
      exact ⟨endings, hrest.cons hcr hlf⟩

/-! ### What stands in front of a line -/

/-- The lines in front of line `n` of a row, each with its ending. -/
def lead (row endings : List (List Char)) (n : Nat) : List Char :=
  ((List.zipWith (· ++ ·) row endings).take n).flatten

theorem lead_cons_succ (line ending : List Char) (row endings : List (List Char)) (n : Nat) :
    lead (line :: row) (ending :: endings) (n + 1) = line ++ (ending ++ lead row endings n) := by
  rw [lead, List.zipWith_cons_cons, List.take_succ_cons, List.flatten_cons, List.append_assoc, lead]

namespace Composed

variable {row endings : List (List Char)} {text line : List Char} {n : Nat}

theorem exists_lead (h : Composed row endings text) (hline : row[n]? = some line) :
    ∃ back, text = lead row endings n ++ (line ++ back) := by
  induction h generalizing n with
  | last _ =>
      cases n with
      | zero =>
          cases hline
          exact ⟨[], (List.append_nil _).symm⟩
      | succ n => cases hline
  | cut _ hending hrest ih =>
      cases n with
      | zero =>
          cases hline
          exact ⟨_, rfl⟩
      | succ n =>
          obtain ⟨back, hback⟩ := ih hline
          refine ⟨back, ?_⟩
          rw [lead_cons_succ, List.append_assoc, List.append_assoc, ← hback]

theorem take_drop_lead (h : Composed row endings text) (hline : row[n]? = some line) :
    (text.drop (lead row endings n).length).take line.length = line := by
  obtain ⟨back, rfl⟩ := h.exists_lead hline
  rw [List.drop_left, List.take_left]

theorem getElem?_offsetsAfter (h : Composed row endings text) (hline : row[n]? = some line)
    (base : Nat) :
    (base :: offsetsAfter base text)[n]? = some (base + (lead row endings n).length) := by
  induction h generalizing n base with
  | last _ =>
      cases n with
      | zero => rfl
      | succ n => cases hline
  | cut hfirst hending hrest ih =>
      cases n with
      | zero => rfl
      | succ n =>
          rw [hfirst.offsetsAfter_append, offsetsAfter_ending hending, List.getElem?_cons_succ,
            ih hline, lead_cons_succ, List.length_append, List.length_append, Nat.add_assoc,
            Nat.add_assoc]

end Composed

/-- Every line starts behind an ending that is not empty. -/
theorem pairwise_offsetsAfter (base : Nat) (text : List Char) :
    (base :: offsetsAfter base text).Pairwise (· < ·) := by
  induction text using reading generalizing base with
  | nil => exact List.pairwise_singleton _ _
  | ending ending rest hending ih =>
      have hpos := hending.length_pos
      have hrest := ih (base + ending.length)
      rw [offsetsAfter_ending hending]
      refine List.pairwise_cons.mpr ⟨fun offset hoffset => ?_, hrest⟩
      rcases List.mem_cons.mp hoffset with rfl | hbehind
      · omega
      · have hlt := (List.pairwise_cons.mp hrest).1 offset hbehind
        omega
  | char c rest hcr hlf ih =>
      obtain ⟨hbehind, hrest⟩ := List.pairwise_cons.mp (ih (base + 1))
      rw [offsetsAfter_char hcr hlf]
      exact List.pairwise_cons.mpr
        ⟨fun offset hoffset => Nat.lt_of_succ_lt (hbehind offset hoffset), hrest⟩

/-! ### Both readings of a text -/

/-- The lines of a text and the endings between them are the only row that the text consists of, and
the offset of a line counts what the row has in front of it. The lines of two texts that are put
together follow from the lines of both. -/
theorem lines_decompose (text : List Char) :
    (lineOffsets text).length = (lines text).length ∧
    (∀ line ∈ lines text, Unbroken line) ∧
    (∃ endings, Composed (lines text) endings text ∧ endings.length = breakCount text ∧
      (∀ row endings', Composed row endings' text → row = lines text ∧ endings' = endings) ∧
      (∀ n line, (lines text)[n]? = some line → ∃ offset back,
        (lineOffsets text)[n]? = some offset ∧
        offset = (lead (lines text) endings n).length ∧
        text = lead (lines text) endings n ++ (line ++ back) ∧
        (text.drop offset).take line.length = line)) ∧
    (lineOffsets text).Pairwise (· < ·) ∧
    (∀ next, Seam text next →
      lines (text ++ next) = (lines text).dropLast ++
        ((lines text).getLast (lines_ne_nil text) ++ (lines next).head (lines_ne_nil next)) ::
          (lines next).tail) ∧
    (∀ next, text.getLast? = some '\r' → next.head? = some '\n' →
      breakCount (text ++ next) + 1 = breakCount text + breakCount next ∧
      lines (text ++ next) = (lines text).dropLast ++ (lines next).tail ∧
      (lines text).getLast (lines_ne_nil text) = [] ∧
      (lines next).head (lines_ne_nil next) = []) := by
  obtain ⟨endings, hcomposed⟩ := exists_composed text
  refine ⟨length_lineOffsets text, hcomposed.unbroken,
    ⟨endings, hcomposed, hcomposed.length_endings, fun row endings' hrow => ?_,
      fun n line hline => ?_⟩,
    pairwise_offsetsAfter 0 text, fun next hseam => ?_, fun next hlast hhead => ?_⟩
  · obtain rfl := hrow.lines_eq
    exact ⟨rfl, hrow.endings_eq hcomposed rfl⟩
  · obtain ⟨back, hback⟩ := hcomposed.exists_lead hline
    have hoffset := hcomposed.getElem?_offsetsAfter hline 0
    rw [Nat.zero_add] at hoffset
    exact ⟨_, back, hoffset, rfl, hback, hcomposed.take_drop_lead hline⟩
  · rw [lines_append hseam, ← lastLine_eq_getLast]
    obtain ⟨line, others, hlines⟩ := List.exists_cons_of_ne_nil (lines_ne_nil next)
    simp only [hlines, List.modifyHead_cons, List.head_cons, List.tail_cons]
  · have hcut : ¬Seam text next := fun hseam => hseam hlast hhead
    obtain ⟨hlines, hfront, hback⟩ := lines_append_of_not_seam hcut
    rw [← lastLine_eq_getLast]
    exact ⟨breakCount_append_of_not_seam hcut, hlines, hfront, hback⟩

/-- A text with all three endings, the last of which a line feed behind the text would join. -/
def openEnding : List Char := ['x', '\r', '\n', 'a', 'b', '\n', 'c', 'd', '\r']

theorem composed_openEnding :
    Composed [['x'], ['a', 'b'], ['c', 'd'], []] [['\r', '\n'], ['\n'], ['\r']] openEnding := by
  have hlast : Composed [['c', 'd'], []] [['\r']] ['c', 'd', '\r'] :=
    .cut (by decide) (.cr nofun) (.last (by decide))
  exact .cut (by decide) (.crlf _) (.cut (by decide) (.lf _) hlast)

/-- The third line starts behind an ending of two characters and one of a single character, and a
line feed behind the text adds no line. -/
theorem lines_openEnding : ∃ endings offset,
    Composed (lines openEnding) endings openEnding ∧
    endings = [['\r', '\n'], ['\n'], ['\r']] ∧
    (lineOffsets openEnding)[2]? = some offset ∧ offset = 6 ∧
    (openEnding.drop offset).take 2 = ['c', 'd'] ∧
    lines (openEnding ++ ['y', '\n']) = [['x'], ['a', 'b'], ['c', 'd'], ['y'], []] ∧
    breakCount (openEnding ++ ['\n', 'y']) + 1 = 4 ∧
    lines (openEnding ++ ['\n', 'y']) = [['x'], ['a', 'b'], ['c', 'd'], ['y']] := by
  obtain ⟨-, -, ⟨endings, hcomposed, -, hunique, hline⟩, -, hseam, hcut⟩ :=
    lines_decompose openEnding
  obtain ⟨offset, back, hoffset, -, -, hslice⟩ := hline 2 ['c', 'd'] (by decide)
  obtain ⟨hcount, hlines, -, -⟩ := hcut ['\n', 'y'] (by decide) (by decide)
  have hsix : (lineOffsets openEnding)[2]? = some 6 := by decide
  refine ⟨endings, offset, hcomposed, ?_, hoffset, ?_, hslice, ?_, hcount, ?_⟩
  · exact (hunique _ _ composed_openEnding).2.symm
  · exact Option.some.inj (hoffset.symm.trans hsix)
  · exact (hseam ['y', '\n'] (by decide)).trans (by decide)
  · exact hlines.trans (by decide)

end SourceSpan.Text
