import SourceAudit.Source.Comments
import SourceAudit.Source.Outline

/-!
# Blocks

The control blocks of Go and Java sources, found by the line that opens them.
-/

namespace SourceAudit.Source

open SourceAudit.Pattern (Pattern)

structure Block where
  kind : String
  first : Nat
  last : Nat
  condition : String
  body : List Nat

namespace Block

def toValue (block : Block) : Value :=
  .record [("type", .text block.kind), ("start_line", .ofNat block.first),
    ("end_line", .ofNat block.last), ("condition", .text block.condition),
    ("body_lines", Value.ofNats block.body)]

end Block

structure Opening where
  kind : String
  pattern : Pattern

def linesBetween (ls : List (Nat × List Char × List (List Char))) (a last : Nat) : List Nat :=
  (ls.filter fun (n, ln, _) =>
    decide (a < n ∧ n < last) && !(Text.trim ln).isEmpty).map Prod.fst

def opened? (openings : List Opening) (ln : List Char) : Option (String × String) :=
  openings.findSome? fun opening =>
    (opening.pattern.matchStart? ln).map fun f =>
      (opening.kind, if opening.pattern.groups > 1 then Str.trim (f.group 1) else "")

def blocksOf (openings : List Opening) (skips : List Char → Bool) (ls : List (List Char)) :
    List Block :=
  let numbered := withRests 1 ls
  numbered.filterMap fun (n, ln, tl) =>
    let code := Text.trim ln
    if code.isEmpty || skips code then none
    else (opened? openings code).map fun (kind, condition) =>
      let last := (balancedLine? 0 n (ln :: tl)).getD ls.length
      { kind, first := n, last, condition, body := linesBetween numbered n last }

namespace Go

def openings : List Opening :=
  [⟨"if", Pattern.ofText "^\\s*if\\s+(.+?)\\s*\\\x7b"⟩,
   ⟨"for", Pattern.ofText "^\\s*for\\s+(.+?)\\s*\\\x7b"⟩,
   ⟨"switch", Pattern.ofText "^\\s*switch\\s*(.*?)\\s*\\\x7b"⟩,
   ⟨"select", Pattern.ofText "^\\s*select\\s*\\\x7b"⟩]

def blocks (src : String) : List Block :=
  blocksOf openings (Text.startsWith "else".toList)
    (stripLines (Text.splitLines src.toList))

end Go

namespace Java

def openings : List Opening :=
  [⟨"if", Pattern.ofText "^\\s*else\\s+if\\s*\\((.+)\\)\\s*\\\x7b"⟩,
   ⟨"if", Pattern.ofText "^\\s*if\\s*\\((.+)\\)\\s*\\\x7b"⟩,
   ⟨"for", Pattern.ofText "^\\s*for\\s*\\((.+)\\)\\s*\\\x7b"⟩,
   ⟨"while", Pattern.ofText "^\\s*while\\s*\\((.+)\\)\\s*\\\x7b"⟩,
   ⟨"switch", Pattern.ofText "^\\s*switch\\s*\\((.+)\\)\\s*\\\x7b"⟩,
   ⟨"try", Pattern.ofText "^\\s*try\\s*\\\x7b"⟩,
   ⟨"catch", Pattern.ofText "^\\s*catch\\s*\\((.+)\\)\\s*\\\x7b"⟩,
   ⟨"finally", Pattern.ofText "^\\s*finally\\s*\\\x7b"⟩,
   ⟨"else", Pattern.ofText "^\\s*else\\s*\\\x7b"⟩]

def blocks (src : String) : List Block :=
  blocksOf openings (fun _ => false) (stripLines (Text.splitLines src.toList))

end Java

end SourceAudit.Source
