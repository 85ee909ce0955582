import SourceSpan.Proofs.Interpolation
import SourceSpan.Proofs.Quoted

/-!
# Plain text in its four literals

The same text can be written as a string, as a quoted atom, as an interpolated literal without
expressions and as a sigil. Each has a rule of its own, but all of them measure the text in the same
way: they stop a number of columns behind the place where a walk over the text ends. That number
depends on the form and, for strings and atoms, on whether the text has a line ending, because what
stands in front of the text counts only in the line it stands on.

With triple delimiters the closing one stands on the line behind the text, in the column of the
literal, for a string as for a sigil.
-/

namespace SourceSpan

open Layout Text

theorem Position.advance_inj {p : Position} {a b : Nat} : p.advance a = p.advance b ↔ a = b := by
  constructor
  · intro h
    have hcolumn : p.column + a = p.column + b := congrArg Position.column h
    omega
  · rintro rfl
    rfl

/-- A text that is measured from its opening ends as a walk over it does. What stands in front of it
counts only if the text is a single line. -/
theorem textStop_eq_afterText (start : Position) (text : String) (opening closing : Nat) :
    textStop start text opening closing = (afterText start start text).advance
      ((if breakCount text.toList = 0 then opening else 0) + closing) := by
  rw [textStop, afterText]
  split_ifs
  · rw [Position.advance_advance]
    congr 1
    omega
  · apply Position.ext
    · rfl
    · show start.column + (_ + closing) = start.column + _ + (0 + closing)
      omega

/-! ### Pieces without expressions -/

section Texts

variable (texts : List String)

theorem hasEmbedded_texts : hasEmbedded (texts.map Piece.text) = false := by
  induction texts with
  | nil => rfl
  | cons text rest ih => exact ih

theorem any_isUnclosed_texts : (texts.map Piece.text).any Piece.isUnclosed = false := by
  induction texts with
  | nil => rfl
  | cons text rest ih => exact ih

theorem lastBrace?_texts : lastBrace? (texts.map Piece.text) = none := by
  induction texts with
  | nil => rfl
  | cons text rest ih => exact ih

theorem trailing_texts : trailing (texts.map Piece.text) = texts := by
  induction texts with
  | nil => rfl
  | cons text rest ih =>
      rw [List.map_cons, trailing, hasEmbedded_texts, if_neg Bool.false_ne_true, ih]

variable {texts}

/-- An interpolated literal without expressions stops two columns behind its text. -/
theorem interpolationStop_texts (huncut : Uncut texts) (delimiter : String) (start : Position) :
    interpolationStop (texts.map Piece.text) delimiter start =
      .ok ((afterText start start (String.join texts)).advance 2) := by
  have hwalk : walk start start (texts.map Piece.text) =
      .ok (afterText start start (String.join texts)) := by
    rw [walk_eq_foldl start start (any_isUnclosed_texts texts), trailing_texts, lastBrace?_texts,
      foldl_afterText _ _ huncut]
    rfl
  rw [interpolationStop_eq hwalk, hasEmbedded_texts]
  rfl

end Texts

/-! ### Spans from stops -/

section Spans

variable {info : Metadata} {pieces : List Piece} {start stop : Position}

theorem interpolationSpan_eq (hplace : info.place? = some start)
    (hstop : interpolationStop pieces (delimiterOf info) start = .ok stop) :
    interpolationSpan info pieces = .ok ⟨start, stop⟩ := by
  simp only [interpolationSpan, Metadata.position_of_place? hplace, bind, Except.bind, hstop]
  rfl

theorem sigilSpan_eq {modifiers : String} (hplace : info.place? = some start)
    (hstop : sigilStop info pieces modifiers = .ok stop) :
    sigilSpan info pieces modifiers = .ok ⟨start, stop⟩ := by
  simp only [sigilSpan, Metadata.position_of_place? hplace, bind, Except.bind, hstop]
  rfl

theorem stringSpan_of_isTriple {value delimiter : String} (hplace : info.place? = some start)
    (hdelimiter : info.delimiter = some delimiter) (htriple : isTriple delimiter = true) :
    stringSpan info value =
      .ok ⟨start, start.below start (lines value.toList).length delimiter.length⟩ := by
  rw [stringSpan, Metadata.position_of_place? hplace, hdelimiter]
  simp only [need, bind, Except.bind, htriple]
  rfl

end Spans

/-! ### The four literals -/

/-- The literals that a plain text can be written as. -/
inductive TextForm where
  | string
  | atom
  | interpolation
  | sigil (letter : String) (bodyInfo : Metadata) (modifiers : String)

namespace TextForm

/-- The literal that holds some texts, one after the other. -/
def node : TextForm → Metadata → List String → Node
  | .string, info, texts => .string info (String.join texts)
  | .atom, info, texts => .atom info (String.join texts)
  | .interpolation, info, texts => .interpolation info (texts.map Piece.text)
  | .sigil letter bodyInfo modifiers, info, texts =>
    .sigil info letter bodyInfo (texts.map Piece.text) modifiers

/-- The literal that opens at `start` with a delimiter and holds some texts has a span up to `stop`,
whatever else is recorded about it, however deep one may descend and on every machine. -/
def StopsAt (form : TextForm) (delimiter : String) (start : Position) (texts : List String)
    (stop : Position) : Prop :=
  ∀ (machine : Machine) (options : Options) (info : Metadata), options.includeComments = false →
    info.place? = some start → info.delimiter = some delimiter →
    options.spanOf (.node (form.node info texts)) machine = .ok ⟨start, stop⟩

/-- How far behind the end of its text a literal stops, with a delimiter of one character. -/
def widthBehind (text : String) : TextForm → Nat
  | .string => (if breakCount text.toList = 0 then 1 else 0) + 1
  | .atom => (if breakCount text.toList = 0 then 2 else 0) + 1
  | .interpolation => 2
  | .sigil _ _ modifiers => 2 + (2 + modifiers.length)

variable {form : TextForm} {delimiter : String} {start stop : Position} {texts : List String}

theorem stopsAt_of_span (h : ∀ (machine : Machine) (info : Metadata) (maxDepth : Nat),
      info.place? = some start → info.delimiter = some delimiter →
      (Value.node (form.node info texts)).span machine maxDepth = .ok ⟨start, stop⟩) :
    form.StopsAt delimiter start texts stop := by
  intro machine options info hcomments hplace hdelimiter
  rw [Options.spanOf_plain hcomments]
  exact h machine info options.maxDepth hplace hdelimiter

/-- Every form stops behind its text by its own width. -/
theorem stopsAt_widthBehind (form : TextForm) (d : Char) (start : Position)
    (huncut : Uncut texts) :
    form.StopsAt (String.singleton d) start texts
      ((afterText start start (String.join texts)).advance
        (form.widthBehind (String.join texts))) := by
  apply stopsAt_of_span
  intro machine info maxDepth hplace hdelimiter
  cases form with
  | string =>
      rw [widthBehind, ← textStop_eq_afterText]
      exact QuotedForm.span_node .string (String.join texts) machine maxDepth hplace hdelimiter
  | atom =>
      rw [widthBehind, ← textStop_eq_afterText]
      exact QuotedForm.span_node .atom (String.join texts) machine maxDepth hplace hdelimiter
  | interpolation =>
      rw [Value.span_eq_ok_iff]
      exact interpolationSpan_eq hplace (interpolationStop_texts huncut _ start)
  | sigil letter bodyInfo modifiers =>
      have hbody := interpolationStop_texts huncut (String.singleton d) start
      rw [Value.span_eq_ok_iff]
      apply sigilSpan_eq hplace
      rw [sigilStop_eq hplace hdelimiter hbody, isTriple_singleton, hasEmbedded_texts]
      show Except.ok ((Position.advance _ modifiers.length).advance 2) = _
      rw [Position.advance_advance, Position.advance_advance, widthBehind,
        Nat.add_comm modifiers.length]

/-- A string and a sigil between triple delimiters stop alike. -/
theorem stopsAt_of_isTriple (start : Position) (letter : String) (bodyInfo : Metadata)
    (huncut : Uncut texts) (htriple : isTriple delimiter = true) :
    ∃ stop, TextForm.string.StopsAt delimiter start texts stop ∧
      (TextForm.sigil letter bodyInfo "").StopsAt delimiter start texts stop := by
  refine ⟨start.below start (lines (String.join texts).toList).length delimiter.length,
    stopsAt_of_span ?_, stopsAt_of_span ?_⟩
  · intro machine info maxDepth hplace hdelimiter
    rw [Value.span_eq_ok_iff]
    exact stringSpan_of_isTriple hplace hdelimiter htriple
  · intro machine info maxDepth hplace hdelimiter
    rw [Value.span_eq_ok_iff]
    have hline := line_afterText start start (String.join texts)
    apply sigilSpan_eq hplace
    rw [sigilStop_eq hplace hdelimiter (interpolationStop_texts huncut delimiter start), htriple,
      hasEmbedded_texts, length_of_isTriple htriple, length_lines]
    refine congrArg Except.ok (Position.ext ?_ rfl)
    show (afterText start start (String.join texts)).line + 1 = _
    rw [hline]
    rfl

/-- The stops of one text in its four literals. An interpolated literal stops where the string does
if the text is a single line, and one column behind it if not; a sigil stops behind the interpolated
literal by its prefix and its modifiers; an atom stops one column behind the string if the text is a
single line, and where the string does if not. Between triple delimiters a sigil without modifiers
stops where the string does. -/
theorem stops_of_plainText (huncut : Uncut texts) (start : Position) (letter : String)
    (bodyInfo : Metadata) :
    (∀ (d : Char) (modifiers : String),
      ∃ stringEnd interpolationEnd sigilEnd atomEnd : Position,
        TextForm.string.StopsAt (String.singleton d) start texts stringEnd ∧
        TextForm.interpolation.StopsAt (String.singleton d) start texts interpolationEnd ∧
        (TextForm.sigil letter bodyInfo modifiers).StopsAt (String.singleton d) start texts
          sigilEnd ∧
        TextForm.atom.StopsAt (String.singleton d) start texts atomEnd ∧
        (interpolationEnd = stringEnd ↔ breakCount (String.join texts).toList = 0) ∧
        (breakCount (String.join texts).toList ≠ 0 → interpolationEnd = stringEnd.advance 1) ∧
        sigilEnd = interpolationEnd.advance (2 + modifiers.length) ∧
        (atomEnd = stringEnd.advance 1 ↔ breakCount (String.join texts).toList = 0) ∧
        (breakCount (String.join texts).toList ≠ 0 → atomEnd = stringEnd)) ∧
    ∀ delimiter : String, isTriple delimiter = true → ∃ stop,
      TextForm.string.StopsAt delimiter start texts stop ∧
      (TextForm.sigil letter bodyInfo "").StopsAt delimiter start texts stop := by
  refine ⟨?_, fun delimiter htriple => stopsAt_of_isTriple start letter bodyInfo huncut htriple⟩
  intro d modifiers
  refine ⟨_, _, _, _, stopsAt_widthBehind .string d start huncut,
    stopsAt_widthBehind .interpolation d start huncut,
    stopsAt_widthBehind (.sigil letter bodyInfo modifiers) d start huncut,
    stopsAt_widthBehind .atom d start huncut, ?_⟩
  simp only [widthBehind, Position.advance_advance, Position.advance_inj]
  generalize breakCount (String.join texts).toList = breaks
  by_cases hbreaks : breaks = 0
  · simp [hbreaks]
  · simp [hbreaks]

/-- What is recorded about a literal in the fifth column. -/
def quotedInfo : Metadata where
  line := some 1
  column := some 5
  delimiter := some "\""

/-- A text of two lines, cut into three: the interpolated literal stops one column behind the string
and the atom where the string does. -/
theorem stops_of_cutText : Uncut ["ab\r", "", "c"] ∧ ∃ stop : Position,
    Options.default.spanOf (.node (.string quotedInfo "ab\rc")) =
      .ok ⟨⟨1, 5, by decide, by decide⟩, stop⟩ ∧
    Options.default.spanOf
      (.node (.interpolation quotedInfo [.text "ab\r", .text "", .text "c"])) =
        .ok ⟨⟨1, 5, by decide, by decide⟩, stop.advance 1⟩ ∧
    Options.default.spanOf (.node (.atom quotedInfo "ab\rc")) =
      .ok ⟨⟨1, 5, by decide, by decide⟩, stop⟩ := by
  have huncut : Uncut ["ab\r", "", "c"] := by decide
  obtain ⟨stop, _, _, _, hstring, hinterpolation, -, hatom, -, hshift, -, -, hsame⟩ :=
    (stops_of_plainText huncut ⟨1, 5, by decide, by decide⟩ "s" {}).1 '"' ""
  have hbreaks : breakCount (String.join ["ab\r", "", "c"]).toList ≠ 0 := by decide
  rw [hshift hbreaks] at hinterpolation
  rw [hsame hbreaks] at hatom
  exact ⟨huncut, stop, hstring .standard .default quotedInfo rfl rfl rfl,
    hinterpolation .standard .default quotedInfo rfl rfl rfl,
    hatom .standard .default quotedInfo rfl rfl rfl⟩

/-- A line ending of two characters around an empty text. Neighbouring texts meet at seams, but the
interpolated literal stops a line below the string. -/
theorem stops_of_cutEnding :
    ["a\r", "", "\nb"].IsChain (fun front back => Seam front.toList back.toList) ∧
    ∃ stop interpolationStop : Position,
      Options.default.spanOf (.node (.string quotedInfo "a\r\nb")) =
        .ok ⟨⟨1, 5, by decide, by decide⟩, stop⟩ ∧
      Options.default.spanOf
        (.node (.interpolation quotedInfo [.text "a\r", .text "", .text "\nb"])) =
          .ok ⟨⟨1, 5, by decide, by decide⟩, interpolationStop⟩ ∧
      breakCount "a\r\nb".toList ≠ 0 ∧ interpolationStop ≠ stop.advance 1 := by
  refine ⟨by decide, _, _, rfl, rfl, by decide, by decide⟩

end TextForm

end SourceSpan
