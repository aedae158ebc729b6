import SourceAudit.Text.Search

/-!
# Comments

Go and Java share two kinds of comments: blocks, which may run over several lines, and the rest of a
line.
-/

namespace SourceAudit.Source

open SourceAudit.Text (cut? cut?_length)

def blockStart : List Char := ['/', '*']

def blockEnd : List Char := ['*', '/']

def lineComment : List Char := ['/', '/']

def dropBlocks (inside : Bool) (ln : List Char) : List Char × Bool :=
  if inside then
    match _found : cut? blockEnd ln with
    | none => ([], true)
    | some (_, tl) => dropBlocks false tl
  else
    match _found : cut? blockStart ln with
    | none => (ln, false)
    | some (before, tl) =>
      match _ended : cut? blockEnd tl with
      | none => (before, true)
      | some (_, after) => dropBlocks false (before ++ after)
termination_by ln.length
decreasing_by
  · have := cut?_length _found
    simp [blockEnd] at this
    omega
  · have := cut?_length _found
    have := cut?_length _ended
    simp [blockStart, blockEnd] at *
    omega

def dropLineComment (ln : List Char) : List Char :=
  match cut? lineComment ln with
  | some (before, _) => before
  | none => ln

def stripFrom (inside : Bool) : List (List Char) → List (List Char)
  | [] => []
  | ln :: tl =>
    let (code, inside) := dropBlocks inside ln
    dropLineComment code :: stripFrom inside tl

def stripLines (ls : List (List Char)) : List (List Char) :=
  stripFrom false ls

end SourceAudit.Source
