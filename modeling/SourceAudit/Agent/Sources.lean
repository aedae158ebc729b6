import SourceAudit.Pattern.Parser
import SourceAudit.Source.Reader

/-!
# Sources for the agent

The files that a model is asked about, whether they can be run, and the lines of them that show
what they are.
-/

namespace SourceAudit.Agent

open Outside
open SourceAudit.Pattern (Pattern)

structure SourceEntry where
  path : String
  language : Option String
  content : String
  lines : List String
deriving DecidableEq, Repr

namespace SourceEntry

def toValue (e : SourceEntry) : Value :=
  .record [("path", .text e.path), ("language", Value.ofText? e.language),
    ("content", .text e.content), ("lines", Value.ofTexts e.lines)]

def isIn (lang : String) (e : SourceEntry) : Bool :=
  e.language == some lang

end SourceEntry

def collectFile (path : String) : Audit SourceEntry := do
  let content := Source.textOf (← Audit.readBytes path)
  let lang ← Source.detect path
  return { path, language := some lang.name, content, lines := Str.splitLines content }

def collectFiles : List Value → Audit (List SourceEntry)
  | [] => return []
  | .text p :: tl => do
    if p.isEmpty || !(← Audit.exists? p) then collectFiles tl
    else
      let e ← collectFile p
      return e :: (← collectFiles tl)
  | _ :: tl => collectFiles tl

def javaMainPattern : Pattern := Pattern.ofText "\\bstatic\\s+void\\s+main\\s*\\("

def hasEntryPoint (lang c : String) : Bool :=
  match lang with
  | "python" => Str.occurs "__name__" c
  | "go" => Str.occurs "package main" c && Str.occurs "func main" c
  | "java" => javaMainPattern.occursIn c
  | _ => false

def keyPatterns (lang : String) : List String :=
  match lang with
  | "python" => ["__name__", "def main", "if __name__"]
  | "go" => ["package main", "func main", "import\\\\s*\\\\("]
  | "java" => ["package\\\\s+", "import\\\\s+", "class\\\\s+", "static\\\\s+void\\\\s+main"]
  | _ => []

def anyOccurs (ln : String) : List String → Outcome Bool
  | [] => .ok false
  | written :: tl => do
    let pat ← Pattern.compile written
    if pat.occursIn ln then return true else anyOccurs ln tl

def keyLineWidth : Nat := 200

def keyLinesFrom (pats : List String) (lim : Int) (f : List String) :
    List String → Outcome (List String)
  | [] => .ok f
  | ln :: tl => do
    if lim ≤ Int.ofNat f.length then return f
    let telling ← anyOccurs ln pats
    let text := Str.trim ln
    if telling && !text.isEmpty then
      keyLinesFrom pats lim (f ++ [Str.take keyLineWidth text]) tl
    else keyLinesFrom pats lim f tl

def keyLines (lang : String) (ls : List String) (lim : Int) : Outcome (List String) :=
  match keyPatterns lang with
  | [] => .ok []
  | pats => keyLinesFrom pats lim [] ls

def keyLineLimit : Int := 8

end SourceAudit.Agent
