import SourceAudit.Value.Access

/-!
# The screen

What a page shows, element by element. A page is known by the sequence of its elements alone; how
they are drawn is not part of it.
-/

namespace SourceAudit.Outside

inductive Place where
  | body
  | sidebar
  | column (n : Nat)
  | progress
  | status
deriving DecidableEq, Repr

namespace Place

def label (pl : Place) (el : String) : String :=
  match pl with
  | .body => el
  | .sidebar => "sidebar." ++ el
  | .column number => s!"col{number}." ++ el
  | .progress => "progress." ++ el
  | .status => "empty." ++ el

end Place

structure Shown where
  name : String
  contents : List Value
  options : List (String × Value)
deriving Repr

end SourceAudit.Outside
