import SourceSpan.Value

/-!
# Equality of values

Two nodes are the same if they have the same shape, the same metadata and the same entries; numbers
are compared by value. A truth value counts as the number one or zero. Records are the same if they
give the same names the same values, in whatever order.
-/

namespace SourceSpan

mutual

/-- Equality of nodes, numbers compared by value. -/
def Node.same : Node → Node → Bool
  | .bare i, .bare j => i == j
  | .number i m, .number j n => i == j && m.same n
  | .atom i s, .atom j t => i == j && s == t
  | .string i s, .string j t => i == j && s == t
  | .variable i s, .variable j t => i == j && s == t
  | .alias i xs, .alias j ys => i == j && sameSegments xs ys
  | .block i xs, .block j ys => i == j && sameChildren xs ys
  | .pair i a b, .pair j c d => i == j && a.same c && b.same d
  | .call i s xs, .call j t ys => i == j && s == t && sameChildren xs ys
  | .dot i a s, .dot j b t => i == j && a.same b && s == t
  | .remoteCall i di a s xs, .remoteCall j dj b t ys =>
    i == j && di == dj && a.same b && s == t && sameChildren xs ys
  | .access i a b, .access j c d => i == j && a.same c && b.same d
  | .qualifiedTuple i a xs, .qualifiedTuple j b ys => i == j && a.same b && sameNodes xs ys
  | .embedded i a, .embedded j b => i == j && a.same b
  | .interpolation i xs, .interpolation j ys => i == j && samePieces xs ys
  | .interpolatedAtom i bi xs, .interpolatedAtom j bj ys => i == j && bi == bj && samePieces xs ys
  | .bitstring i xs, .bitstring j ys => i == j && sameNodes xs ys
  | .sigil i s bi xs m, .sigil j t bj ys n =>
    i == j && s == t && bi == bj && samePieces xs ys && m == n
  | _, _ => false

def sameNodes : List Node → List Node → Bool
  | [], [] => true
  | a :: xs, b :: ys => a.same b && sameNodes xs ys
  | _, _ => false

/-- The same entries in the same order; a group of one is not the node in it. -/
def sameChildren : List Child → List Child → Bool
  | [], [] => true
  | .node a :: xs, .node b :: ys => a.same b && sameChildren xs ys
  | .group as :: xs, .group bs :: ys => sameNodes as bs && sameChildren xs ys
  | _, _ => false

def sameSegments : List Segment → List Segment → Bool
  | [], [] => true
  | .name s :: xs, .name t :: ys => s == t && sameSegments xs ys
  | .node a :: xs, .node b :: ys => a.same b && sameSegments xs ys
  | _, _ => false

def samePieces : List Piece → List Piece → Bool
  | [], [] => true
  | .text s :: xs, .text t :: ys => s == t && samePieces xs ys
  | .embedded i a :: xs, .embedded j b :: ys => i == j && a.same b && samePieces xs ys
  | _, _ => false

end

/-- The number a value counts as in a comparison. -/
def Value.numeral? : Value → Option Numeral
  | .bool b => some (.whole (if b then 1 else 0))
  | .number n => some n
  | _ => none

mutual

def Value.same : Value → Value → Bool
  | .null, .null => true
  | .text s, .text t => s == t
  | .sequence xs, .sequence ys => sameValues xs ys
  | .record xs, .record ys => xs.length == ys.length && sameEntries xs ys
  | .node a, .node b => a.same b
  | a, b =>
    match a.numeral?, b.numeral? with
    | some m, some n => m.same n
    | _, _ => false

def sameValues : List Value → List Value → Bool
  | [], [] => true
  | a :: xs, b :: ys => a.same b && sameValues xs ys
  | _, _ => false

/-- Every name of the first record has the same value in the second. -/
def sameEntries : List (String × Value) → List (String × Value) → Bool
  | [], _ => true
  | (name, a) :: xs, ys =>
    (match ys.lookup name with
      | some b => a.same b
      | none => false) && sameEntries xs ys

end

end SourceSpan
