import SourceAudit.Text.Search

/-!
# Lines

Three ways to see a text as lines. `splitNewline` cuts at line feeds only and always gives at least
one line.
-/

namespace SourceAudit.Text

def splitNewlineFrom (ln : List Char) : List Char → List (List Char)
  | [] => [ln.reverse]
  | c :: t =>
    if c = '\n' then ln.reverse :: splitNewlineFrom [] t
    else splitNewlineFrom (c :: ln) t

def splitNewline (t : List Char) : List (List Char) :=
  splitNewlineFrom [] t

def isLineBoundary (c : Char) : Bool :=
  let pt := c.toNat
  (10 ≤ pt && pt ≤ 13) || (28 ≤ pt && pt ≤ 30) || pt == 0x85 ||
    pt == 0x2028 || pt == 0x2029

def splitLinesKeepFrom (ln : List Char) (pending : Bool) : List Char → List (List Char)
  | [] => if ln.isEmpty then [] else [ln.reverse]
  | c :: t =>
    if pending then
      if c = '\n' then (c :: ln).reverse :: splitLinesKeepFrom [] false t
      else ln.reverse ::
        (if c = '\r' then splitLinesKeepFrom [c] true t
         else if isLineBoundary c then [c] :: splitLinesKeepFrom [] false t
         else splitLinesKeepFrom [c] false t)
    else if c = '\r' then splitLinesKeepFrom (c :: ln) true t
    else if isLineBoundary c then (c :: ln).reverse :: splitLinesKeepFrom [] false t
    else splitLinesKeepFrom (c :: ln) false t

def splitLinesKeep (t : List Char) : List (List Char) :=
  splitLinesKeepFrom [] false t

def dropBoundary (ln : List Char) : List Char :=
  match ln.reverse with
  | '\n' :: '\r' :: tl => tl.reverse
  | c :: tl => if isLineBoundary c then tl.reverse else ln
  | [] => []

def splitLines (t : List Char) : List (List Char) :=
  (splitLinesKeep t).map dropBoundary

def readLinesFrom (ln : List Char) : List Char → List (List Char)
  | [] => if ln.isEmpty then [] else [ln.reverse]
  | c :: t =>
    if c = '\n' then (c :: ln).reverse :: readLinesFrom [] t
    else readLinesFrom (c :: ln) t

def readLines (t : List Char) : List (List Char) :=
  readLinesFrom [] t

def unifyNewlines : List Char → List Char
  | [] => []
  | '\r' :: '\n' :: t => '\n' :: unifyNewlines t
  | c :: t => (if c = '\r' then '\n' else c) :: unifyNewlines t

end SourceAudit.Text

namespace SourceAudit.Str

def splitLines (t : String) : List String :=
  (Text.splitLines t.toList).map String.ofList

def splitLinesKeep (t : String) : List String :=
  (Text.splitLinesKeep t.toList).map String.ofList

def readLines (t : String) : List String :=
  (Text.readLines t.toList).map String.ofList

end SourceAudit.Str
