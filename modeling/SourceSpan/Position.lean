/-!
# Positions in a source text

A position is a line and a column. Both are counted from one and columns count characters, so a
wide character moves the column by one. The bounds are part of the type: moving forward keeps them
and needs no check, and everything that comes from outside goes through `ofInts?`.
-/

namespace SourceSpan

/-- A point in a source text, line and column counted from one. -/
structure Position where
  line : Nat
  column : Nat
  line_pos : 0 < line := by omega
  column_pos : 0 < column := by omega
deriving DecidableEq

namespace Position

/-- The position with these coordinates, if both are at least one. -/
def ofInts? (line column : Int) : Option Position :=
  if h : 1 ≤ line ∧ 1 ≤ column then
    some ⟨line.toNat, column.toNat, by omega, by omega⟩
  else
    none

/-- The position `width` columns further along the same line. -/
def advance (p : Position) (width : Nat) : Position :=
  ⟨p.line, p.column + width, p.line_pos, Nat.lt_add_right width p.column_pos⟩

/-- The position some lines below `p` and some columns to the right of `margin`. -/
def below (p margin : Position) (lines width : Nat) : Position :=
  ⟨p.line + lines, margin.column + width, Nat.lt_add_right lines p.line_pos,
    Nat.lt_add_right width margin.column_pos⟩

/-- The position in the line of `p` that has `width` columns in front of it. -/
def behind (p : Position) (width : Nat) : Position :=
  ⟨p.line, width + 1, p.line_pos, Nat.succ_pos width⟩

/-- Earlier line first, earlier column first within a line. -/
instance : LT Position where
  lt p q := p.line < q.line ∨ p.line = q.line ∧ p.column < q.column

instance : LE Position where
  le p q := p.line < q.line ∨ p.line = q.line ∧ p.column ≤ q.column

theorem lt_iff {p q : Position} :
    p < q ↔ p.line < q.line ∨ p.line = q.line ∧ p.column < q.column := Iff.rfl

theorem le_iff {p q : Position} :
    p ≤ q ↔ p.line < q.line ∨ p.line = q.line ∧ p.column ≤ q.column := Iff.rfl

instance (p q : Position) : Decidable (p < q) :=
  decidable_of_iff _ lt_iff.symm

instance (p q : Position) : Decidable (p ≤ q) :=
  decidable_of_iff _ le_iff.symm

@[simp]
theorem line_advance (p : Position) (width : Nat) : (p.advance width).line = p.line := rfl

@[simp]
theorem column_advance (p : Position) (width : Nat) :
    (p.advance width).column = p.column + width := rfl

@[simp]
theorem line_below (p margin : Position) (lines width : Nat) :
    (p.below margin lines width).line = p.line + lines := rfl

@[simp]
theorem column_below (p margin : Position) (lines width : Nat) :
    (p.below margin lines width).column = margin.column + width := rfl

@[simp]
theorem line_behind (p : Position) (width : Nat) : (p.behind width).line = p.line := rfl

@[simp]
theorem column_behind (p : Position) (width : Nat) : (p.behind width).column = width + 1 := rfl

end Position

end SourceSpan
