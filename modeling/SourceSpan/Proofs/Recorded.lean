import SourceSpan.Proofs.Offset
import SourceSpan.Proofs.Spine

/-!
# What truthful metadata says

A tree describes a stretch of a source text if the positions recorded in it are those of the tokens
it was read from. `Recorded` says, shape by shape, which tokens these are. It only speaks of what
the two ends of a stretch depend on: what stands between the brackets of a closed node may be
anything.
-/

namespace SourceSpan

open Layout Text

/-- The characters from offset `i` up to offset `j` are this text. -/
def Reads (src : List Char) (i j : Nat) (text : List Char) : Prop :=
  ∃ front back, src = front ++ (text ++ back) ∧ front.length = i ∧ j = i + text.length

namespace Metadata

/-- The own position is the one at offset `i`. -/
def OpensAt (info : Metadata) (src : List Char) (i : Nat) : Prop :=
  ∃ p, info.place? = some p ∧ p.IsAt src i

/-- The closing token ends at offset `j`: an `end` if one is recorded, else a bracket. -/
def ClosesAt (info : Metadata) (src : List Char) (j : Nat) : Prop :=
  (∀ p, info.endWord = some p → ∃ k, p.IsAt src k ∧ j = k + 3) ∧
    (info.endWord = none → ∃ p k, info.closing = some p ∧ p.IsAt src k ∧ j = k + 1)

end Metadata

/-! ### Pieces -/

/-- The pieces of a literal follow each other from offset `i` to offset `j`. A text stands there as
it is and does not end inside of a line ending, an embedded expression ends with its brace. -/
inductive PiecesRead (src : List Char) : List Piece → Nat → Nat → Prop
  | nil (i : Nat) : PiecesRead src [] i i
  | text {text : String} {rest : List Piece} {q : Position} {i k j : Nat}
      (hread : Reads src i k text.toList) (hstop : q.IsAt src k) (hrest : PiecesRead src rest k j) :
      PiecesRead src (.text text :: rest) i j
  | embedded {info : Metadata} {expr : Node} {rest : List Piece} {q : Position} {i k j : Nat}
      (hclosing : info.closing = some q) (hat : q.IsAt src k) (hread : Reads src k (k + 1) ['}'])
      (hrest : PiecesRead src rest (k + 1) j) : PiecesRead src (.embedded info expr :: rest) i j

/-- The texts behind the last embedded expression; all texts if there is none. -/
def trailing : List Piece → List String
  | [] => []
  | .text text :: rest => if hasEmbedded rest then trailing rest else text :: trailing rest
  | .embedded .. :: rest => trailing rest

/-- The line in which the pieces of a literal end, if they start in a given one. -/
def lineAfter (line : Nat) : List Piece → Nat
  | [] => line
  | .text text :: rest => lineAfter (line + breakCount text.toList) rest
  | .embedded info _ :: rest => lineAfter ((info.closing.map Position.line).getD line) rest

/-- A closing triple delimiter stands at offset `k`, in the column of the literal that opens at
`start`. The text of the literal starts on the line after the opening one. -/
def HeredocCloses (src : List Char) (start : Position) (pieces : List Piece) (k : Nat) : Prop :=
  ∃ q : Position, q.IsAt src k ∧ q.column = start.column ∧
    q.line = lineAfter (start.line + 1) pieces

/-! ### Values -/

/-- A value is recorded at the characters of a source text from offset `i` up to offset `j`. No line
ends inside of a token that opens a literal. -/
inductive Recorded (src : List Char) : Value → Nat → Nat → Prop
  | number {info : Metadata} {value : Numeral} {token : String} {i j : Nat}
      (hopens : info.OpensAt src i) (htoken : info.token = some token)
      (hread : Reads src i j token.toList) : Recorded src (.node (.number info value)) i j
  | variable {info : Metadata} {name : String} {i j : Nat} (hopens : info.OpensAt src i)
      (hread : Reads src i j name.toList) : Recorded src (.node (.variable info name)) i j
  | bareAtom {info : Metadata} {value : String} {i j : Nat} (hopens : info.OpensAt src i)
      (hdelimiter : info.delimiter = none) (hread : Reads src i j (':' :: value.toList)) :
      Recorded src (.node (.atom info value)) i j
  | quotedAtom {info : Metadata} {value : String} {d : Char} {i j : Nat}
      (hopens : info.OpensAt src i) (hdelimiter : info.delimiter = some (String.singleton d))
      (hread : Reads src i j ([':', d] ++ value.toList ++ [d])) (hd : breakCount [d] = 0) :
      Recorded src (.node (.atom info value)) i j
  | string {info : Metadata} {value : String} {d : Char} {i j : Nat}
      (hopens : info.OpensAt src i) (hdelimiter : info.delimiter = some (String.singleton d))
      (hread : Reads src i j ([d] ++ value.toList ++ [d])) (hd : breakCount [d] = 0) :
      Recorded src (.node (.string info value)) i j
  | heredoc {info : Metadata} {value delimiter : String} {start : Position} {i k j : Nat}
      (hplace : info.place? = some start) (hat : start.IsAt src i)
      (hdelimiter : info.delimiter = some delimiter) (htriple : isTriple delimiter = true)
      (hlines : lastLine value.toList = []) (hcloses : HeredocCloses src start [.text value] k)
      (hread : Reads src k j delimiter.toList) : Recorded src (.node (.string info value)) i j
  /-- The ends of a dotted name are names, whose positions are recorded, or nodes. -/
  | alias {i j k l : Nat} (info : Metadata) (segments : List Segment) (first last : Segment)
      (hfirst : segments.head? = some first) (hlast : segments.getLast? = some last)
      (hname : ∀ text, first = .name text → info.OpensAt src i)
      (hnode : ∀ n, first = .node n → Recorded src (.node n) i k)
      (hlastName : ∀ text, last = .name text → ∃ p m, info.last = some p ∧ p.IsAt src m ∧
        Reads src m j text.toList)
      (hlastNode : ∀ n, last = .node n → Recorded src (.node n) l j) :
      Recorded src (.node (.alias info segments)) i j
  | closedBlock {info : Metadata} {items : List Child} {i j : Nat} (hopens : info.OpensAt src i)
      (hcloses : info.ClosesAt src j) : Recorded src (.node (.block info items)) i j
  | openBlock {info : Metadata} {items : List Child} {first last : Child} {i j k l : Nat}
      (hclosing : info.hasClosing = false) (hfirst : items.head? = some first)
      (hlast : items.getLast? = some last) (hfront : Recorded src first.toValue i k)
      (hback : Recorded src last.toValue l j) : Recorded src (.node (.block info items)) i j
  | pair {info : Metadata} {key value : Node} {i j k l : Nat}
      (hkey : Recorded src (.node key) i k) (hvalue : Recorded src (.node value) l j) :
      Recorded src (.node (.pair info key value)) i j
  /-- A clause, a binary operator or a range with a step. -/
  | operation {info : Metadata} {name : String} {args : List Child} {first last : Child}
      {i j k l : Nat} (hform : callForm name args = .between first last)
      (hfront : Recorded src first.toValue i k) (hback : Recorded src last.toValue l j) :
      Recorded src (.node (.call info name args)) i j
  | unary {info : Metadata} {name : String} {args : List Child} {operand : Child} {i j k : Nat}
      (hform : callForm name args = .unary operand) (hopens : info.OpensAt src i)
      (hoperand : Recorded src operand.toValue k j) : Recorded src (.node (.call info name args)) i j
  | closedCall {info : Metadata} {name : String} {args : List Child} {i j : Nat}
      (hform : callForm name args = .plain) (hopens : info.OpensAt src i)
      (hcloses : info.ClosesAt src j) : Recorded src (.node (.call info name args)) i j
  | openCall {info : Metadata} {name : String} {args : List Child} {last : Child} {i j k : Nat}
      (hform : callForm name args = .plain) (hopens : info.OpensAt src i)
      (hclosing : info.hasClosing = false) (hlast : args.getLast? = some last)
      (hback : Recorded src last.toValue k j) : Recorded src (.node (.call info name args)) i j
  | bareCall {info : Metadata} {name : String} {i j : Nat} (hopens : info.OpensAt src i)
      (hclosing : info.hasClosing = false) (hread : Reads src i j name.toList) :
      Recorded src (.node (.call info name [])) i j
  | closedRemoteCall {info dotInfo : Metadata} {receiver : Node} {name : Option String}
      {args : List Child} {i j k : Nat} (hreceiver : Recorded src (.node receiver) i k)
      (hcloses : info.ClosesAt src j) :
      Recorded src (.node (.remoteCall info dotInfo receiver name args)) i j
  | openRemoteCall {info dotInfo : Metadata} {receiver : Node} {name : Option String}
      {args : List Child} {last : Child} {i j k l : Nat}
      (hreceiver : Recorded src (.node receiver) i k) (hclosing : info.hasClosing = false)
      (hlast : args.getLast? = some last) (hback : Recorded src last.toValue l j) :
      Recorded src (.node (.remoteCall info dotInfo receiver name args)) i j
  | bareRemoteCall {info dotInfo : Metadata} {receiver : Node} {name : Option String}
      {i j k l : Nat} (hreceiver : Recorded src (.node receiver) i k)
      (hclosing : info.hasClosing = false) (hopens : info.OpensAt src l)
      (hread : Reads src l j
        ((name.getD "").toList ++ if info.noParens then [] else ['(', ')'])) :
      Recorded src (.node (.remoteCall info dotInfo receiver name [])) i j
  | access {info : Metadata} {subject key : Node} {i j k : Nat}
      (hsubject : Recorded src (.node subject) i k) (hcloses : info.ClosesAt src j) :
      Recorded src (.node (.access info subject key)) i j
  | qualifiedTuple {info : Metadata} {receiver : Node} {items : List Node} {i j k : Nat}
      (hreceiver : Recorded src (.node receiver) i k) (hcloses : info.ClosesAt src j) :
      Recorded src (.node (.qualifiedTuple info receiver items)) i j
  | embedded {info : Metadata} {expr : Node} {i j : Nat} (hopens : info.OpensAt src i)
      (hcloses : info.ClosesAt src j) : Recorded src (.node (.embedded info expr)) i j
  /-- The position of the closing token is that of the first of its two characters. -/
  | bitstring {info : Metadata} {items : List Node} {i j : Nat} (hopens : info.OpensAt src i)
      (hcloses : info.ClosesAt src j) : Recorded src (.node (.bitstring info items)) i (j + 1)
  | interpolation {info : Metadata} {pieces : List Piece} {d : Char} {i k j : Nat}
      (hopens : info.OpensAt src i) (hdelimiter : delimiterOf info = String.singleton d)
      (hfront : Reads src i (i + 1) [d]) (hpieces : PiecesRead src pieces (i + 1) k)
      (hback : Reads src k j [d]) (hd : breakCount [d] = 0) :
      Recorded src (.node (.interpolation info pieces)) i j
  | interpolationHeredoc {info : Metadata} {pieces : List Piece} {start : Position} {i k j : Nat}
      (hplace : info.place? = some start) (hat : start.IsAt src i)
      (htriple : isTriple (delimiterOf info) = true)
      (hclosed : pieces.any Piece.isUnclosed = false) (hcloses : HeredocCloses src start pieces k)
      (hread : Reads src k j (delimiterOf info).toList)
      (hlines : lastLine (String.join (trailing pieces)).toList = []) :
      Recorded src (.node (.interpolation info pieces)) i j
  | interpolatedAtom {info bodyInfo : Metadata} {pieces : List Piece} {d : Char} {i k j : Nat}
      (hopens : bodyInfo.OpensAt src i) (hdelimiter : delimiterOf info = String.singleton d)
      (hfront : Reads src i (i + 2) [':', d]) (hpieces : PiecesRead src pieces (i + 2) k)
      (hback : Reads src k j [d]) (hd : breakCount [d] = 0) :
      Recorded src (.node (.interpolatedAtom info bodyInfo pieces)) i j
  /-- The closing delimiter of a sigil may be another character than the opening one. -/
  | sigil {info bodyInfo : Metadata} {letter modifiers : String} {pieces : List Piece} {d e : Char}
      {i l k j : Nat} (hopens : info.OpensAt src i)
      (hdelimiter : info.delimiter = some (String.singleton d))
      (hfront : Reads src i l ('~' :: letter.toList ++ [d])) (hpieces : PiecesRead src pieces l k)
      (hback : Reads src k j (e :: modifiers.toList))
      (hopening : breakCount ('~' :: letter.toList ++ [d]) = 0) :
      Recorded src (.node (.sigil info letter bodyInfo pieces modifiers)) i j
  | sigilHeredoc {info bodyInfo : Metadata} {letter modifiers delimiter : String}
      {pieces : List Piece} {start : Position} {i k j : Nat} (hplace : info.place? = some start)
      (hat : start.IsAt src i) (hdelimiter : info.delimiter = some delimiter)
      (htriple : isTriple delimiter = true) (hclosed : pieces.any Piece.isUnclosed = false)
      (hcloses : HeredocCloses src start pieces k)
      (hread : Reads src k j (delimiter.toList ++ modifiers.toList)) :
      Recorded src (.node (.sigil info letter bodyInfo pieces modifiers)) i j
  | sequence {items : List Value} {first last : Value} {i j k l : Nat}
      (hfirst : items.head? = some first) (hlast : items.getLast? = some last)
      (hfront : Recorded src first i k) (hback : Recorded src last l j) :
      Recorded src (.sequence items) i j

/-! ### What the rules find -/

variable {src : List Char} {v c : Value} {i j : Nat}

theorem Metadata.ClosesAt.exists_closingStop? {info : Metadata} (h : info.ClosesAt src j) :
    ∃ stop, info.closingStop? = some stop ∧ stop.offset? src = some j := by
  obtain ⟨hword, hbracket⟩ := h
  unfold closingStop?
  cases hend : info.endWord with
  | some p =>
      obtain ⟨k, hat, rfl⟩ := hword p hend
      exact ⟨_, rfl, Position.offset?_advance hat.2 3⟩
  | none =>
      obtain ⟨p, k, hclosing, hat, rfl⟩ := hbracket hend
      rw [hclosing]
      exact ⟨_, rfl, Position.offset?_advance hat.2 1⟩

theorem Metadata.ClosesAt.hasClosing {info : Metadata} (h : info.ClosesAt src j) :
    info.hasClosing = true := by
  obtain ⟨stop, hstop, -⟩ := h.exists_closingStop?
  rw [← isSome_closingStop?, hstop]
  rfl

theorem Metadata.OpensAt.isNone {info : Metadata} (h : info.OpensAt src i) :
    info.place?.isNone = false := by
  obtain ⟨p, hp, -⟩ := h
  rw [hp]
  rfl

theorem PiecesRead.any_isUnclosed {pieces : List Piece} (h : PiecesRead src pieces i j) :
    pieces.any Piece.isUnclosed = false := by
  induction h with
  | nil => rfl
  | text hread hstop hrest ih => exact ih
  | embedded hclosing hat hread hrest ih =>
      rw [List.any_cons, ih, Piece.isUnclosed, hclosing]
      rfl

theorem Node.leftStep_alias {info : Metadata} {segments : List Segment} {first : Segment}
    (h : segments.head? = some first) :
    (Node.alias info segments).leftStep = first.visited.head? := by
  cases segments with
  | nil => cases h
  | cons first' rest =>
      cases h
      cases first <;> rfl

/-- Where a value starts with a child, the child is recorded from the same offset on. -/
theorem Recorded.of_leftStep (h : Recorded src v i j) (hstep : v.leftStep = some c) :
    ∃ k, Recorded src c i k := by
  cases h with
  | «alias» info segments first last hfirst hlast hname hnode hlastName hlastNode =>
      rw [Value.leftStep, Node.leftStep_alias hfirst] at hstep
      cases first with
      | name text => cases hstep
      | node n =>
          cases hstep
          exact ⟨_, hnode n rfl⟩
  | closedBlock hopens hcloses =>
      simp [Value.leftStep, Node.leftStep, hcloses.hasClosing] at hstep
  | openBlock hclosing hfirst hlast hfront hback =>
      simp only [Value.leftStep, Node.leftStep, hclosing, hfirst] at hstep
      cases hstep
      exact ⟨_, hfront⟩
  | pair hkey hvalue =>
      cases hstep
      exact ⟨_, hkey⟩
  | operation hform hfront hback =>
      simp only [Value.leftStep, Node.leftStep, hform] at hstep
      cases hstep
      exact ⟨_, hfront⟩
  | unary hform hopens hoperand => simp [Value.leftStep, Node.leftStep, hform] at hstep
  | closedCall hform hopens hcloses => simp [Value.leftStep, Node.leftStep, hform] at hstep
  | openCall hform hopens hclosing hlast hback =>
      simp [Value.leftStep, Node.leftStep, hform] at hstep
  | closedRemoteCall hreceiver hcloses =>
      cases hstep
      exact ⟨_, hreceiver⟩
  | openRemoteCall hreceiver hclosing hlast hback =>
      cases hstep
      exact ⟨_, hreceiver⟩
  | bareRemoteCall hreceiver hclosing hopens hread =>
      cases hstep
      exact ⟨_, hreceiver⟩
  | access hsubject hcloses =>
      cases hstep
      exact ⟨_, hsubject⟩
  | qualifiedTuple hreceiver hcloses =>
      cases hstep
      exact ⟨_, hreceiver⟩
  | sequence hfirst hlast hfront hback =>
      cases hfirst.symm.trans hstep
      exact ⟨_, hfront⟩
  | _ => cases hstep

/-- Where a value stops with a child, the child is recorded up to the same offset. -/
theorem Recorded.of_rightStep (h : Recorded src v i j) (hstep : v.rightStep = some c) :
    ∃ k, Recorded src c k j := by
  cases h with
  | «alias» info segments first last hfirst hlast hname hnode hlastName hlastNode =>
      simp only [Value.rightStep, Node.rightStep, hlast] at hstep
      split at hstep
      case h_1 n heq =>
          cases hstep
          exact ⟨_, hlastNode n (Option.some.inj heq)⟩
      case h_2 => cases hstep
  | closedBlock hopens hcloses =>
      simp [Value.rightStep, Node.rightStep, hcloses.hasClosing] at hstep
  | openBlock hclosing hfirst hlast hfront hback =>
      simp only [Value.rightStep, Node.rightStep, hclosing, hlast] at hstep
      cases hstep
      exact ⟨_, hback⟩
  | pair hkey hvalue =>
      cases hstep
      exact ⟨_, hvalue⟩
  | operation hform hfront hback =>
      simp only [Value.rightStep, Node.rightStep, hform] at hstep
      cases hstep
      exact ⟨_, hback⟩
  | unary hform hopens hoperand =>
      simp only [Value.rightStep, Node.rightStep, hform] at hstep
      cases hstep
      exact ⟨_, hoperand⟩
  | closedCall hform hopens hcloses =>
      simp [Value.rightStep, Node.rightStep, hform, lastArgument?, hcloses.hasClosing] at hstep
  | openCall hform hopens hclosing hlast hback =>
      simp only [Value.rightStep, Node.rightStep, hform, lastArgument?, hclosing, hlast] at hstep
      cases hstep
      exact ⟨_, hback⟩
  | bareCall hopens hclosing hread =>
      simp [Value.rightStep, Node.rightStep, callForm, lastArgument?] at hstep
  | closedRemoteCall hreceiver hcloses =>
      simp [Value.rightStep, Node.rightStep, lastArgument?, hcloses.hasClosing] at hstep
  | openRemoteCall hreceiver hclosing hlast hback =>
      simp only [Value.rightStep, Node.rightStep, lastArgument?, hclosing, hlast] at hstep
      cases hstep
      exact ⟨_, hback⟩
  | bareRemoteCall hreceiver hclosing hopens hread =>
      simp [Value.rightStep, Node.rightStep, lastArgument?] at hstep
  | sequence hfirst hlast hfront hback =>
      cases hlast.symm.trans hstep
      exact ⟨_, hback⟩
  | _ => cases hstep

/-- A value that does not start with a child opens at the offset from which it is recorded. -/
theorem Recorded.opening (h : Recorded src v i j) (hstep : v.leftStep = none) :
    ∃ p, v.opening? = some p ∧ p.IsAt src i := by
  cases h with
  | number hopens => exact hopens
  | «variable» hopens => exact hopens
  | bareAtom hopens => exact hopens
  | quotedAtom hopens => exact hopens
  | string hopens => exact hopens
  | heredoc hplace hat => exact ⟨_, hplace, hat⟩
  | «alias» info segments first last hfirst hlast hname hnode hlastName hlastNode =>
      rw [Value.leftStep, Node.leftStep_alias hfirst] at hstep
      cases first with
      | name text => exact hname text rfl
      | node n => cases hstep
  | closedBlock hopens hcloses => exact hopens
  | openBlock hclosing hfirst hlast hfront hback =>
      simp [Value.leftStep, Node.leftStep, hclosing, hfirst] at hstep
  | operation hform hfront hback => simp [Value.leftStep, Node.leftStep, hform] at hstep
  | unary hform hopens => exact hopens
  | closedCall hform hopens => exact hopens
  | openCall hform hopens => exact hopens
  | bareCall hopens => exact hopens
  | embedded hopens => exact hopens
  | bitstring hopens => exact hopens
  | interpolation hopens => exact hopens
  | interpolationHeredoc hplace hat => exact ⟨_, hplace, hat⟩
  | interpolatedAtom hopens => exact hopens
  | sigil hopens => exact hopens
  | sigilHeredoc hplace hat => exact ⟨_, hplace, hat⟩
  | sequence hfirst hlast hfront hback => cases hfirst.symm.trans hstep
  | _ => cases hstep

/-- A recorded value has no defect. -/
theorem Recorded.defective (h : Recorded src v i j) : v.defective = false := by
  cases h with
  | number hopens htoken hread => simp [Value.defective, Node.defective, hopens.isNone, htoken]
  | «variable» hopens => exact hopens.isNone
  | bareAtom hopens => exact hopens.isNone
  | quotedAtom hopens => exact hopens.isNone
  | string hopens hdelimiter =>
      simp [Value.defective, Node.defective, hopens.isNone, hdelimiter]
  | heredoc hplace hat hdelimiter =>
      simp [Value.defective, Node.defective, hplace, hdelimiter]
  | «alias» info segments first last hfirst hlast hname hnode hlastName hlastNode =>
      have hne : segments.isEmpty = false :=
        List.isEmpty_eq_false_iff_exists_mem.mpr ⟨first, List.mem_of_head? hfirst⟩
      have hplace : (first.isName && info.place?.isNone) = false := by
        cases first with
        | name text => exact (hname text rfl).isNone
        | node n => rfl
      have hrecorded : (last.isName && info.last.isNone) = false := by
        cases last with
        | name text =>
            obtain ⟨p, m, hp, -⟩ := hlastName text rfl
            rw [hp]
            rfl
        | node n => rfl
      simp only [Value.defective, Node.defective, hne, hfirst, hlast, Option.any_some, hplace,
        hrecorded, Bool.or_self]
  | closedBlock hopens hcloses =>
      simp [Value.defective, Node.defective, hopens.isNone, hcloses.hasClosing]
  | @openBlock info items first last _ _ _ _ hclosing hfirst hlast hfront hback =>
      have hne : items.isEmpty = false :=
        List.isEmpty_eq_false_iff_exists_mem.mpr ⟨first, List.mem_of_head? hfirst⟩
      simp only [Value.defective, Node.defective, hclosing, hne]
      rfl
  | pair => rfl
  | operation hform hfront hback => simp [Value.defective, Node.defective, hform]
  | unary hform hopens => simp [Value.defective, Node.defective, hform, hopens.isNone]
  | closedCall hform hopens => simp [Value.defective, Node.defective, hform, hopens.isNone]
  | openCall hform hopens => simp [Value.defective, Node.defective, hform, hopens.isNone]
  | bareCall hopens => exact hopens.isNone
  | closedRemoteCall hreceiver hcloses =>
      simp [Value.defective, Node.defective, hcloses.hasClosing]
  | @openRemoteCall info dotInfo receiver name args last _ _ _ _ hreceiver hclosing hlast hback =>
      have hne : args.isEmpty = false :=
        List.isEmpty_eq_false_iff_exists_mem.mpr ⟨last, List.mem_of_getLast? hlast⟩
      simp only [Value.defective, Node.defective, hne, Bool.and_false, Bool.false_and]
  | bareRemoteCall hreceiver hclosing hopens =>
      simp [Value.defective, Node.defective, hopens.isNone]
  | access hsubject hcloses => simp [Value.defective, Node.defective, hcloses.hasClosing]
  | qualifiedTuple hreceiver hcloses =>
      simp [Value.defective, Node.defective, hcloses.hasClosing]
  | embedded hopens hcloses =>
      simp [Value.defective, Node.defective, hopens.isNone, hcloses.hasClosing]
  | bitstring hopens hcloses =>
      simp [Value.defective, Node.defective, hopens.isNone, hcloses.hasClosing]
  | interpolation hopens hdelimiter hfront hpieces =>
      simp only [Value.defective, Node.defective, hopens.isNone, hpieces.any_isUnclosed,
        Bool.or_self]
  | interpolationHeredoc hplace hat htriple hclosed =>
      simp only [Value.defective, Node.defective, hplace, hclosed, Option.isNone_some, Bool.or_self]
  | interpolatedAtom hopens hdelimiter hfront hpieces =>
      simp only [Value.defective, Node.defective, hopens.isNone, hpieces.any_isUnclosed,
        Bool.or_self]
  | sigil hopens hdelimiter hfront hpieces =>
      simp only [Value.defective, Node.defective, hopens.isNone, hdelimiter,
        hpieces.any_isUnclosed, Option.isNone_some, Bool.or_self]
  | sigilHeredoc hplace hat hdelimiter htriple hclosed =>
      simp only [Value.defective, Node.defective, hplace, hdelimiter, hclosed, Option.isNone_some,
        Bool.or_self]
  | sequence hfirst =>
      exact List.isEmpty_eq_false_iff_exists_mem.mpr ⟨_, List.mem_of_head? hfirst⟩

/-- Everything that the rules descend into is recorded somewhere. -/
theorem Recorded.of_mem_atDepth (h : Recorded src v i j) {depth : Nat} {w : Value}
    (hw : w ∈ v.atDepth depth) : ∃ k l, Recorded src w k l := by
  induction depth generalizing v i j with
  | zero =>
      obtain rfl := List.mem_singleton.mp hw
      exact ⟨i, j, h⟩
  | succ depth ih =>
      obtain ⟨c, hc, hw⟩ := List.mem_flatMap.mp hw
      -- A child that a rule looks at stands at one of the two ends.
      rcases Value.leftStep_or_rightStep_of_mem_visited hc with hstep | hstep
      · obtain ⟨k, hchild⟩ := h.of_leftStep hstep
        exact ih hchild hw
      · obtain ⟨k, hchild⟩ := h.of_rightStep hstep
        exact ih hchild hw

/-- A recorded value has a span if the allowed depth reaches its whole height. -/
theorem Recorded.exists_span (h : Recorded src v i j) {machine : Machine} {maxDepth : Nat}
    (hheight : v.height ≤ machine.reach maxDepth) : ∃ span, v.span machine maxDepth = .ok span := by
  refine (Value.span_isOk_iff machine maxDepth v).mpr fun depth w hw => ⟨?_, ?_⟩
  · have hreached : ¬v.height < depth := by
      rw [Value.height_lt_iff]
      exact List.ne_nil_of_mem hw
    omega
  · obtain ⟨k, l, hw⟩ := h.of_mem_atDepth hw
    exact hw.defective

/-- The start of a recorded value's span is the position at the offset from which it is recorded. -/
theorem Recorded.opening?_leftAnchor (h : Recorded src v i j) :
    ∃ p, v.leftAnchor.opening? = some p ∧ p.IsAt src i := by
  induction v using Value.leftAnchor.induct generalizing j with
  | case1 v hstep =>
      rw [Value.leftAnchor_of_none hstep]
      exact h.opening hstep
  | case2 v c hstep ih =>
      rw [Value.leftAnchor_of_some hstep]
      obtain ⟨k, hchild⟩ := h.of_leftStep hstep
      exact ih hchild

/-- The right walk from a recorded value ends at a value that is recorded up to the same offset. -/
theorem Recorded.rightAnchor (h : Recorded src v i j) : ∃ k, Recorded src v.rightAnchor k j ∧
    v.rightAnchor.rightStep = none := by
  induction v using Value.rightSpine.induct generalizing i with
  | case1 v hstep =>
      rw [Value.rightAnchor_of_none hstep]
      exact ⟨i, h, hstep⟩
  | case2 v c hstep ih =>
      rw [Value.rightAnchor_of_some hstep]
      obtain ⟨k, hchild⟩ := h.of_rightStep hstep
      exact ih hchild

end SourceSpan
