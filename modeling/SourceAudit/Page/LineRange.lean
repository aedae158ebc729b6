/-!
# Ranges of lines

A range holds the lines from its first to its last one and is empty when the last comes before the
first.
-/

namespace SourceAudit.Page

structure LineRange where
  first : Int
  last : Int
deriving DecidableEq, Repr

namespace LineRange

def lines (range : LineRange) : List Nat :=
  (List.range (range.last + 1 - range.first).toNat).map fun offset =>
    (range.first + Int.ofNat offset).toNat

def context (total reach ln : Int) : LineRange :=
  { first := max 1 (ln - reach), last := min total (ln + reach) }

def isApart (range other : LineRange) : Bool :=
  range.first > other.last + 1

def mergeInto (cur : LineRange) : List LineRange → List LineRange
  | [] => [cur]
  | range :: tl =>
    if range.isApart cur then cur :: mergeInto range tl
    else mergeInto { cur with last := max cur.last range.last } tl

def merge : List LineRange → List LineRange
  | [] => []
  | range :: tl => mergeInto range tl

def around (total reach : Int) (ls : List Int) : List LineRange :=
  merge ((ls.map (context total reach)).mergeSort fun a b => decide (a.first ≤ b.first))

end LineRange

end SourceAudit.Page
