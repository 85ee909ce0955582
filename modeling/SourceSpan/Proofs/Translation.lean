import SourceSpan.Proofs.Cause
import SourceSpan.Proofs.Likeness

/-!
# Trees elsewhere in the text

A tree whose metadata is changed throughout has the same shape, and its rules descend into the same
children. It is therefore like the original as soon as the metadata that the rules read corresponds.
In particular a tree that stands some lines further down and some columns further right has its span
moved just as far. The exception are literals that close at the margin: their last column does not
depend on where they start.

A value that is refused is nested as before. Still its refusal may end in another way, because the
numbers in it are greater than before and one of them may be too long to be written.
-/

namespace SourceSpan

open Layout

/-! ### Changed metadata -/

section Map

variable (f : Metadata → Metadata)

mutual

/-- The node with all metadata in it changed. -/
def Node.mapInfo : Node → Node
  | .bare info => .bare (f info)
  | .number info value => .number (f info) value
  | .atom info value => .atom (f info) value
  | .string info value => .string (f info) value
  | .variable info name => .variable (f info) name
  | .alias info segments => .alias (f info) (mapSegments segments)
  | .block info items => .block (f info) (mapChildren items)
  | .pair info key value => .pair (f info) key.mapInfo value.mapInfo
  | .call info name args => .call (f info) name (mapChildren args)
  | .dot info receiver name => .dot (f info) receiver.mapInfo name
  | .remoteCall info dotInfo receiver name args =>
    .remoteCall (f info) (f dotInfo) receiver.mapInfo name (mapChildren args)
  | .access info subject key => .access (f info) subject.mapInfo key.mapInfo
  | .qualifiedTuple info receiver items =>
    .qualifiedTuple (f info) receiver.mapInfo (mapNodes items)
  | .embedded info expr => .embedded (f info) expr.mapInfo
  | .interpolation info pieces => .interpolation (f info) (mapPieces pieces)
  | .interpolatedAtom info bodyInfo pieces =>
    .interpolatedAtom (f info) (f bodyInfo) (mapPieces pieces)
  | .bitstring info items => .bitstring (f info) (mapNodes items)
  | .sigil info letter bodyInfo pieces modifiers =>
    .sigil (f info) letter (f bodyInfo) (mapPieces pieces) modifiers

def Child.mapInfo : Child → Child
  | .node n => .node n.mapInfo
  | .group ns => .group (mapNodes ns)

def Segment.mapInfo : Segment → Segment
  | .name text => .name text
  | .node n => .node n.mapInfo

def Piece.mapInfo : Piece → Piece
  | .text text => .text text
  | .embedded info expr => .embedded (f info) expr.mapInfo

def mapNodes : List Node → List Node
  | [] => []
  | n :: rest => n.mapInfo :: mapNodes rest

def mapChildren : List Child → List Child
  | [] => []
  | child :: rest => child.mapInfo :: mapChildren rest

def mapSegments : List Segment → List Segment
  | [] => []
  | segment :: rest => segment.mapInfo :: mapSegments rest

def mapPieces : List Piece → List Piece
  | [] => []
  | piece :: rest => piece.mapInfo :: mapPieces rest

end

mutual

/-- The value with all metadata in it changed. -/
def Value.mapInfo : Value → Value
  | .sequence items => .sequence (mapValues items)
  | .record entries => .record (mapEntries entries)
  | .node n => .node (n.mapInfo f)
  | .null => .null
  | .bool b => .bool b
  | .number n => .number n
  | .text s => .text s

def mapValues : List Value → List Value
  | [] => []
  | v :: rest => v.mapInfo :: mapValues rest

def mapEntries : List (String × Value) → List (String × Value)
  | [] => []
  | (name, v) :: rest => (name, v.mapInfo) :: mapEntries rest

end

/-- A function that goes through a list item by item maps it. -/
theorem eq_map_of_cons {α β : Type} {g : List α → List β} {h : α → β} (hnil : g [] = [])
    (hcons : ∀ x rest, g (x :: rest) = h x :: g rest) (xs : List α) : g xs = xs.map h := by
  induction xs with
  | nil => exact hnil
  | cons x rest ih => rw [hcons, ih, List.map_cons]

theorem mapNodes_eq (ns : List Node) : mapNodes f ns = ns.map (Node.mapInfo f) :=
  eq_map_of_cons rfl (fun _ _ => rfl) ns

theorem mapChildren_eq (items : List Child) : mapChildren f items = items.map (Child.mapInfo f) :=
  eq_map_of_cons rfl (fun _ _ => rfl) items

theorem getLast?_mapChildren {items : List Child} {last : Child} (h : items.getLast? = some last) :
    (mapChildren f items).getLast? = some (last.mapInfo f) := by
  rw [mapChildren_eq, List.getLast?_map, h]
  rfl

theorem mapSegments_eq (segments : List Segment) :
    mapSegments f segments = segments.map (Segment.mapInfo f) :=
  eq_map_of_cons rfl (fun _ _ => rfl) segments

theorem mapValues_eq (vs : List Value) : mapValues f vs = vs.map (Value.mapInfo f) :=
  eq_map_of_cons rfl (fun _ _ => rfl) vs

theorem toValue_mapInfo (child : Child) : (child.mapInfo f).toValue = child.toValue.mapInfo f := by
  cases child with
  | node n => rfl
  | group ns =>
      rw [Child.mapInfo, Child.toValue, Child.toValue, Value.mapInfo, mapNodes_eq, mapValues_eq,
        List.map_map, List.map_map]
      rfl

end Map

mutual

theorem Node.mapInfo_id (n : Node) : n.mapInfo id = n := by
  cases n <;> simp only [Node.mapInfo, id, Node.mapInfo_id, mapNodes_id, mapChildren_id,
    mapSegments_id, mapPieces_id]

theorem mapNodes_id (ns : List Node) : mapNodes id ns = ns := by
  cases ns with
  | nil => rfl
  | cons n rest => rw [mapNodes, n.mapInfo_id, mapNodes_id rest]

theorem mapChildren_id (items : List Child) : mapChildren id items = items := by
  match items with
  | [] => rfl
  | .node n :: rest => rw [mapChildren, Child.mapInfo, n.mapInfo_id, mapChildren_id rest]
  | .group ns :: rest => rw [mapChildren, Child.mapInfo, mapNodes_id ns, mapChildren_id rest]

theorem mapSegments_id (segments : List Segment) : mapSegments id segments = segments := by
  match segments with
  | [] => rfl
  | .name text :: rest => rw [mapSegments, Segment.mapInfo, mapSegments_id rest]
  | .node n :: rest => rw [mapSegments, Segment.mapInfo, n.mapInfo_id, mapSegments_id rest]

theorem mapPieces_id (pieces : List Piece) : mapPieces id pieces = pieces := by
  match pieces with
  | [] => rfl
  | .text text :: rest => rw [mapPieces, Piece.mapInfo, mapPieces_id rest]
  | .embedded info expr :: rest =>
      rw [mapPieces, Piece.mapInfo, expr.mapInfo_id, mapPieces_id rest]
      rfl

end

mutual

theorem Value.mapInfo_id (v : Value) : v.mapInfo id = v := by
  cases v with
  | sequence items => rw [Value.mapInfo, mapValues_id items]
  | record entries => rw [Value.mapInfo, mapEntries_id entries]
  | node n => rw [Value.mapInfo, n.mapInfo_id]
  | _ => rfl

theorem mapValues_id (vs : List Value) : mapValues id vs = vs := by
  cases vs with
  | nil => rfl
  | cons v rest => rw [mapValues, v.mapInfo_id, mapValues_id rest]

theorem mapEntries_id (entries : List (String × Value)) : mapEntries id entries = entries := by
  match entries with
  | [] => rfl
  | (name, v) :: rest => rw [mapEntries, v.mapInfo_id, mapEntries_id rest]

end

/-! ### Writing -/

section Calls

variable (f : Metadata → Metadata)

mutual

/-- Changed metadata does not change how deeply a node is nested. -/
theorem Node.calls_mapInfo (n : Node) : (n.mapInfo f).burden.calls = n.burden.calls := by
  cases n <;> simp only [Node.mapInfo, Node.burden, Node.info, Burden.calls_under,
    Burden.calls_join, Metadata.calls_burden, Node.calls_mapInfo, calls_mapNodes,
    calls_mapChildren, calls_mapSegments, calls_mapPieces]

theorem calls_mapNodes (ns : List Node) :
    (nodesBurden (mapNodes f ns)).calls = (nodesBurden ns).calls := by
  cases ns with
  | nil => rfl
  | cons n rest =>
      simp only [mapNodes, nodesBurden, Burden.calls_join, Burden.calls_under, n.calls_mapInfo,
        calls_mapNodes rest]

theorem calls_mapChildren (items : List Child) :
    (childrenBurden (mapChildren f items)).calls = (childrenBurden items).calls := by
  match items with
  | [] => rfl
  | .node n :: rest =>
      simp only [mapChildren, Child.mapInfo, childrenBurden, Burden.calls_join, Burden.calls_under,
        n.calls_mapInfo, calls_mapChildren rest]
  | .group ns :: rest =>
      simp only [mapChildren, Child.mapInfo, childrenBurden, Burden.calls_join, Burden.calls_under,
        calls_mapNodes ns, calls_mapChildren rest]

theorem calls_mapSegments (segments : List Segment) :
    (segmentsBurden (mapSegments f segments)).calls = (segmentsBurden segments).calls := by
  match segments with
  | [] => rfl
  | .name text :: rest =>
      simp only [mapSegments, Segment.mapInfo, segmentsBurden, calls_mapSegments rest]
  | .node n :: rest =>
      simp only [mapSegments, Segment.mapInfo, segmentsBurden, Burden.calls_join,
        Burden.calls_under, n.calls_mapInfo, calls_mapSegments rest]

theorem calls_mapPieces (pieces : List Piece) :
    (piecesBurden (mapPieces f pieces)).calls = (piecesBurden pieces).calls := by
  match pieces with
  | [] => rfl
  | .text text :: rest =>
      simp only [mapPieces, Piece.mapInfo, piecesBurden, calls_mapPieces rest]
  | .embedded info expr :: rest =>
      simp only [mapPieces, Piece.mapInfo, piecesBurden, Burden.calls_join, Burden.calls_under,
        Metadata.calls_burden, expr.calls_mapInfo, calls_mapPieces rest]

end

mutual

theorem Value.calls_mapInfo (v : Value) : (v.mapInfo f).burden.calls = v.burden.calls := by
  cases v with
  | sequence items => simp only [Value.mapInfo, Value.burden, calls_mapValues items]
  | record entries => simp only [Value.mapInfo, Value.burden, calls_mapEntries entries]
  | node n => simp only [Value.mapInfo, Value.burden, n.calls_mapInfo]
  | _ => rfl

theorem calls_mapValues (vs : List Value) :
    (valuesBurden (mapValues f vs)).calls = (valuesBurden vs).calls := by
  cases vs with
  | nil => rfl
  | cons v rest =>
      simp only [mapValues, valuesBurden, Burden.calls_join, Burden.calls_under, v.calls_mapInfo,
        calls_mapValues rest]

theorem calls_mapEntries (entries : List (String × Value)) :
    (entriesBurden (mapEntries f entries)).calls = (entriesBurden entries).calls := by
  match entries with
  | [] => rfl
  | (name, v) :: rest =>
      simp only [mapEntries, entriesBurden, Burden.calls_join, Burden.calls_under,
        v.calls_mapInfo, calls_mapEntries rest]

end

/-- Two faults have the same facts, unless one of them is that a number is too long to be written.
-/
def Fault.SameUnlessLong (fault fault' : Fault) : Prop :=
  fault.report.SameFacts fault'.report ∨ fault = .longNumber ∨ fault' = .longNumber

/-- The second outcome follows from the first by `g`, or both are faults that are the same in this
sense. -/
abbrev FollowsUnlessLong {α β : Type} (g : α → β) : Except Fault α → Except Fault β → Prop :=
  Corresponds Fault.SameUnlessLong g

theorem Value.kind_mapInfo (v : Value) : (v.mapInfo f).kind = v.kind := by
  cases v with
  | node n => cases n <;> rfl
  | _ => rfl

/-- A changed value is nested like the original. So its refusal differs only if a number in one of
them is too long. -/
theorem Machine.relates_mapInfo (levels calls maxDepth : Nat) (v : Value) :
    (limited levels calls).Relates maxDepth v (v.mapInfo f) (fun w w' => w' = w.mapInfo f)
      Fault.SameUnlessLong where
  reported hsame := .inl hsame
  refused {w w'} hkind hchanged := by
    subst hchanged
    simp only [Machine.raised, limited, hurdleWithin?, w.calls_mapInfo f]
    split_ifs with hcalls hlong hlong'
    · refine .inl ?_
      rw [Option.elim_some, Option.elim_some, Hurdle.fault, Hurdle.fault, v.kind_mapInfo f]
      exact Report.sameFacts_refl _
    · exact .inr (.inl rfl)
    · exact .inr (.inl rfl)
    · exact .inr (.inr rfl)
    · exact .inl (congrArg Value.text hkind.symm)

end Calls

/-! ### Likeness -/

/-- How a call is laid out, with changed arguments. -/
def Layout.CallForm.map (f : Child → Child) : CallForm → CallForm
  | .between first last => .between (f first) (f last)
  | .unary operand => .unary (f operand)
  | .plain => .plain

theorem Layout.callForm_map (f : Child → Child) (name : String) (args : List Child) :
    callForm name (args.map f) = (callForm name args).map f := by
  match args with
  | [] => rfl
  | [operand] =>
      simp only [callForm, List.map_cons, List.map_nil]
      split_ifs <;> rfl
  | [first, last] =>
      simp only [callForm, List.map_cons, List.map_nil]
      split_ifs <;> rfl
  | [first, middle, last] =>
      simp only [callForm, List.map_cons, List.map_nil]
      split_ifs <;> rfl
  | _ :: _ :: _ :: _ :: _ => rfl

section Like

variable {M : Metadata → Metadata → Prop} {R : Value → Value → Prop} {f : Metadata → Metadata}

theorem segmentLike_mapInfo {segment : Segment}
    (h : ∀ c ∈ segment.visited, Like M R c (c.mapInfo f)) :
    SegmentLike M R segment (segment.mapInfo f) := by
  cases segment with
  | name text => exact .name text
  | node n => exact .node (h (.node n) List.mem_cons_self)

theorem pieces_like_mapInfo {pieces : List Piece}
    (h : ∀ record ∈ pieces.flatMap Piece.holders, M record.2 (f record.2)) :
    List.Forall₂ (Piece.Like M) pieces (mapPieces f pieces) := by
  induction pieces with
  | nil => exact .nil
  | cons piece rest ih =>
      rw [List.flatMap_cons] at h
      refine .cons ?_ (ih fun record hrecord => h record (List.mem_append_right _ hrecord))
      cases piece with
      | text text => exact .text text
      | embedded info expr =>
          exact .embedded (h (.embedded, info) (List.mem_append_left _ List.mem_cons_self)) _ _

/-- The metadata that the rule of a value may read. -/
def Value.records : Value → List (Shape × Metadata)
  | .node n => n.records
  | _ => []

theorem mem_records (n : Node) : (n.shape, n.info) ∈ n.records := by
  apply List.mem_append_left
  cases n <;> exact List.mem_cons_self

/-- A changed node is like the original if its own metadata and that of its pieces corresponds and
its visited children are alike. Nodes without a rule have to correspond as a whole. -/
theorem Node.like_mapInfo {n : Node} (hrecords : ∀ record ∈ n.records, M record.2 (f record.2))
    (hrefused : (Value.node n).hasRule = false → R (.node n) (.node (n.mapInfo f)))
    (hvisited : ∀ c ∈ n.visited, Like M R c (c.mapInfo f)) :
    Like M R (.node n) (.node (n.mapInfo f)) := by
  have hinfo := hrecords _ (mem_records n)
  have hpieces := pieces_like_mapInfo fun record hrecord =>
    hrecords record (List.mem_append_right _ hrecord)
  cases n with
  | bare info => exact .bare hinfo (hrefused rfl)
  | number info value => exact .number hinfo value value
  | atom info value => exact .atom hinfo value
  | string info value => exact .string hinfo value
  | «variable» info name => exact .variable hinfo name
  | «alias» info segments =>
      cases segments with
      | nil => exact .emptyAlias hinfo
      | cons first rest =>
          have hsegment : ∀ segment ∈ ends (first :: rest),
              SegmentLike M R segment (segment.mapInfo f) :=
            fun segment hsegment => segmentLike_mapInfo fun c hc =>
              hvisited c (List.mem_flatMap.mpr ⟨segment, hsegment, hc⟩)
          have hlast := List.getLast?_cons (a := first) (l := rest)
          refine .alias hinfo rfl rfl hlast ?_ (hsegment first (mem_ends_of_head? rfl))
            (hsegment _ (mem_ends_of_getLast? hlast))
          rw [mapSegments_eq, List.getLast?_map, hlast]
          rfl
  | block info items =>
      cases hclosing : info.hasClosing with
      | true => exact .closedBlock hinfo hclosing _ _
      | false =>
          cases items with
          | nil => exact .emptyBlock hinfo
          | cons first rest =>
              have hlast := List.getLast?_cons (a := first) (l := rest)
              have hitem : ∀ item ∈ ends (first :: rest),
                  Like M R item.toValue (item.mapInfo f).toValue := by
                intro item hitem
                rw [toValue_mapInfo]
                apply hvisited
                rw [Node.visited, if_neg (Bool.eq_false_iff.mp hclosing)]
                exact List.mem_map_of_mem hitem
              exact .openBlock hinfo hclosing rfl rfl hlast (getLast?_mapChildren f hlast)
                (hitem first (mem_ends_of_head? rfl)) (hitem _ (mem_ends_of_getLast? hlast))
  | pair info key value =>
      exact .pair hinfo (hvisited _ List.mem_cons_self)
        (hvisited _ (List.mem_cons_of_mem _ List.mem_cons_self))
  | call info name args =>
      have hmap : callForm name (mapChildren f args) =
          (callForm name args).map (Child.mapInfo f) := by
        rw [mapChildren_eq, callForm_map]
      rw [Node.visited] at hvisited
      cases hform : callForm name args with
      | between first last =>
          rw [hform] at hmap hvisited
          refine .operation hinfo hform hmap ?_ ?_
          · rw [toValue_mapInfo]
            exact hvisited _ List.mem_cons_self
          · rw [toValue_mapInfo]
            exact hvisited _ (List.mem_cons_of_mem _ List.mem_cons_self)
      | unary operand =>
          rw [hform] at hmap hvisited
          refine .unary hinfo hform hmap ?_
          rw [toValue_mapInfo]
          exact hvisited _ List.mem_cons_self
      | plain =>
          rw [hform] at hmap hvisited
          cases hclosing : info.hasClosing with
          | true =>
              refine .closedCall hinfo hclosing hform ?_
              rw [mapChildren_eq, List.length_map]
          | false =>
              cases hlast : args.getLast? with
              | none =>
                  obtain rfl := List.getLast?_eq_none_iff.mp hlast
                  exact .bareCall hinfo name
              | some last =>
                  refine .openCall hinfo hclosing hform hmap hlast (getLast?_mapChildren f hlast) ?_
                  rw [toValue_mapInfo]
                  exact hvisited _ (Option.mem_toList.mpr (lastArgument?_eq_some hclosing hlast))
  | dot info receiver name => exact .dot hinfo (hrefused rfl)
  | remoteCall info dotInfo receiver name args =>
      have hreceiver := hvisited (.node receiver) List.mem_cons_self
      cases hclosing : info.hasClosing with
      | true => exact .closedRemoteCall hinfo hclosing _ _ name name _ _ hreceiver
      | false =>
          cases hlast : args.getLast? with
          | none =>
              obtain rfl := List.getLast?_eq_none_iff.mp hlast
              exact .bareRemoteCall hinfo _ _ name hreceiver
          | some last =>
              refine .openRemoteCall hinfo hclosing _ _ name name hlast
                (getLast?_mapChildren f hlast) hreceiver ?_
              rw [toValue_mapInfo]
              exact hvisited _ (List.mem_cons_of_mem _
                (Option.mem_toList.mpr (lastArgument?_eq_some hclosing hlast)))
  | access info subject key => exact .access hinfo _ _ (hvisited _ List.mem_cons_self)
  | qualifiedTuple info receiver items =>
      exact .qualifiedTuple hinfo _ _ (hvisited _ List.mem_cons_self)
  | embedded info expr => exact .embedded hinfo _ _
  | interpolation info pieces => exact .interpolation hinfo hpieces
  | interpolatedAtom info bodyInfo pieces =>
      have hbody := hrecords (.interpolation, bodyInfo) (List.mem_cons_of_mem _ List.mem_cons_self)
      exact .interpolatedAtom hinfo hbody hpieces
  | bitstring info items => exact .bitstring hinfo _ _
  | sigil info letter bodyInfo pieces modifiers =>
      exact .sigil hinfo letter letter _ _ hpieces modifiers

/-- A changed value is like the original if the metadata of everything that the rules descend into
corresponds, and with it everything that has no rule. -/
theorem Value.like_mapInfo {v : Value}
    (h : ∀ depth, ∀ w ∈ v.atDepth depth, ∀ record ∈ w.records, M record.2 (f record.2))
    (hrefused : ∀ depth, ∀ w ∈ v.atDepth depth, w.hasRule = false → R w (w.mapInfo f)) :
    Like M R v (v.mapInfo f) := by
  induction hrank : v.rank using Nat.strong_induction_on generalizing v with
  | _ rank ih =>
      subst hrank
      have hvisited : ∀ c ∈ v.visited, Like M R c (c.mapInfo f) := by
        intro c hc
        refine ih c.rank (rank_lt_of_mem_visited hc) (fun depth w hw => ?_)
          (fun depth w hw => ?_) rfl
        · exact h (depth + 1) w (List.mem_flatMap.mpr ⟨c, hc, hw⟩)
        · exact hrefused (depth + 1) w (List.mem_flatMap.mpr ⟨c, hc, hw⟩)
      have hroot := hrefused 0 v List.mem_cons_self
      cases v with
      | sequence items =>
          cases items with
          | nil => exact .emptySequence
          | cons first rest =>
              have hlast := List.getLast?_cons (a := first) (l := rest)
              refine .sequence rfl rfl hlast ?_ (hvisited first List.mem_cons_self)
                (hvisited _ (mem_ends_of_getLast? hlast))
              rw [mapValues_eq, List.getLast?_map, hlast]
              rfl
      | record entries => exact .record (hroot rfl)
      | node n => exact n.like_mapInfo (h 0 (.node n) List.mem_cons_self) hroot hvisited
      | _ => exact .plain rfl (hroot rfl)

/-- Every value is like itself. -/
theorem Like.refl (hM : ∀ info, M info info) (hR : ∀ w, R w w) (v : Value) : Like M R v v := by
  have hlike : Like M R v (v.mapInfo id) := Value.like_mapInfo
    (fun _ _ _ record _ => hM record.2) fun _ w _ _ => by rw [w.mapInfo_id]; exact hR w
  rwa [v.mapInfo_id] at hlike

end Like

/-! ### Moved trees -/

namespace Metadata

/-- The recorded coordinates are those of a place in a text. -/
def InText (info : Metadata) : Prop :=
  (∀ line ∈ info.line, 1 ≤ line) ∧ ∀ column ∈ info.column, 1 ≤ column

instance (info : Metadata) : Decidable info.InText :=
  inferInstanceAs (Decidable (_ ∧ _))

variable {lines columns : Nat} {info : Metadata}

/-- What is recorded of a node that stands so many lines further down and so many columns further
right. Comments stay. -/
def moved (lines columns : Nat) (info : Metadata) : Metadata :=
  { info with
    line := info.line.map (· + (lines : Int))
    column := info.column.map (· + (columns : Int))
    closing := info.closing.map (Position.moved lines columns)
    endWord := info.endWord.map (Position.moved lines columns)
    last := info.last.map (Position.moved lines columns) }

/-- What is recorded of a node that stands further down together with the comments in front of it. -/
def lowered (lines : Nat) (info : Metadata) : Metadata :=
  { info.moved lines 0 with comments := info.comments.map (Comment.moved lines) }

theorem follows_moved (h : info.InText) : info.Follows lines columns (info.moved lines columns) where
  position _ kind := by
    unfold position moved
    cases hline : info.line with
    | none => exact matches_fault rfl
    | some line =>
        cases hcolumn : info.column with
        | none => exact matches_fault rfl
        | some column => exact Position.matches_ofInts (h.1 line hline) (.inr (h.2 column hcolumn))
  line := rfl
  closing := rfl
  endWord := rfl
  last := rfl
  delimiter := rfl
  noParens := rfl
  token := rfl

theorem follows_lowered (h : info.InText) : info.Follows lines 0 (info.lowered lines) :=
  { follows_moved h with }

end Metadata

namespace Value

/-- All coordinates that are recorded for what the rules descend into are those of a text. -/
def InText (v : Value) : Prop :=
  ∀ depth, ∀ w ∈ v.atDepth depth, ∀ record ∈ w.records, record.2.InText

def moved (lines columns : Nat) (v : Value) : Value :=
  v.mapInfo (Metadata.moved lines columns)

def lowered (lines : Nat) (v : Value) : Value :=
  v.mapInfo (Metadata.lowered lines)

theorem comments_lowered (lines : Nat) (v : Value) :
    (v.lowered lines).comments = v.comments.map (Comment.moved lines) := by
  cases v with
  | node n => cases n <;> rfl
  | _ => rfl

end Value

/-- A string over two lines. -/
def brokenText : Node :=
  .string { line := some 2, column := some 3, delimiter := some "\"" } "a\nb"

/-- The string with an operator and a comment in front of it. -/
def negatedText : Value :=
  .node (.call { line := some 2, column := some 1, comments := [⟨1, none, "# text", Nat.one_pos⟩] }
    "-" [.node brokenText])

theorem forall_mem_atDepth_negatedText {P : Value → Prop} (hroot : P negatedText)
    (htext : P (.node brokenText)) (depth : Nat) : ∀ w ∈ negatedText.atDepth depth, P w := by
  refine Value.forall_mem_atDepth hroot (fun c hc => ?_) depth
  obtain rfl : c = .node brokenText := List.mem_singleton.mp hc
  refine Value.forall_mem_atDepth htext fun c hc => ?_
  cases hc

theorem inText_negatedText : negatedText.InText := by
  refine forall_mem_atDepth_negatedText ?_ ?_
  · intro record hrecord
    obtain rfl := List.mem_singleton.mp hrecord
    decide
  · intro record hrecord
    obtain rfl := List.mem_singleton.mp hrecord
    decide

end SourceSpan
