import SourceAudit.Source.Reader
import SourceAudit.Pattern.Parser

/-!
# Outlines

What a quick look at a Go or Java file shows: its package, imports and definitions, each found line
by line with a pattern.
-/

namespace SourceAudit.Source

open Outside
open SourceAudit.Pattern (Pattern)

structure Definition where
  name : String
  first : Nat
  last : Nat
deriving DecidableEq, Repr

structure Mention where
  name : String
  line : Nat
deriving DecidableEq, Repr

namespace Definition

def toValue (definition : Definition) : Value :=
  .record [("name", .text definition.name), ("start_line", .ofNat definition.first),
    ("end_line", .ofNat definition.last), ("line", .ofNat definition.first)]

end Definition

namespace Mention

def toValue (mention : Mention) : Value :=
  .record [("name", .text mention.name), ("line", .ofNat mention.line)]

end Mention

def braceBalance (ln : List Char) : Int :=
  Int.ofNat (ln.count '\x7b') - Int.ofNat (ln.count '\x7d')

def balancedLine? (balance : Int) (n : Nat) : List (List Char) → Option Nat
  | [] => none
  | ln :: tl =>
    let balance := balance + braceBalance ln
    if balance = 0 then some n else balancedLine? balance (n + 1) tl

def withRests (n : Nat) : List (List Char) → List (Nat × List Char × List (List Char))
  | [] => []
  | ln :: tl => (n, ln, tl) :: withRests (n + 1) tl

def firstGroup (pat : Pattern) : List (List Char) → Option String
  | [] => none
  | ln :: tl =>
    match pat.matchStart? (Text.trim ln) with
    | some f => some (f.group 1)
    | none => firstGroup pat tl

namespace Go

def packagePattern : Pattern := Pattern.ofText "^package\\s+(\\w+)"

def importPattern : Pattern := Pattern.ofText "^import\\s+\"[^\"]+\""

def quotedPattern : Pattern := Pattern.ofText "\"([^\"]+)\""

def functionPattern : Pattern :=
  Pattern.ofText "^func\\s+(\\w+)\\s*\\([^)]*\\)\\s*(?:\\([^)]*\\))?\\s*(?:\\w+)?\\s*\\\x7b"

def variablePattern : Pattern := Pattern.ofText "^var\\s+(\\w+)\\s+"

def shortVariablePattern : Pattern := Pattern.ofText "^(\\w+)\\s*:=\\s*"

structure Outline where
  package : String
  imports : List String
  functions : List Definition
  bindings : List Mention
  code : String
  path : String

def quotedPart (ln : List Char) : List String :=
  match quotedPattern.search? ln with
  | some f => [f.group 1]
  | none => []

def importsFrom (block : Option (List (List Char))) : List (List Char) → List String
  | [] => []
  | ln :: tl =>
    let ln := Text.trim ln
    let single := if (importPattern.matchStart? ln).isSome then quotedPart ln else []
    if ln = "import (".toList then single ++ importsFrom (some (block.getD [])) tl
    else match block with
      | none => single ++ importsFrom none tl
      | some ls =>
        if ln = [')'] then single ++ ls.flatMap quotedPart ++ importsFrom none tl
        else single ++ importsFrom (some (ls ++ [ln])) tl

def functions (ls : List (List Char)) : List Definition :=
  (withRests 1 ls).filterMap fun (n, ln, tl) =>
    (functionPattern.matchStart? (Text.trim ln)).map fun f =>
      { name := f.group 1, first := n, last := (balancedLine? 1 (n + 1) tl).getD n }

def bindings (ls : List (List Char)) : List Mention :=
  (withRests 1 ls).filterMap fun (n, ln, _) =>
    let ln := Text.trim ln
    ((variablePattern.matchStart? ln).orElse fun _ => shortVariablePattern.matchStart? ln).map
      fun f => { name := f.group 1, line := n }

def outlineOf (path code : String) : Outline :=
  let ls := Text.splitNewline code.toList
  { package := (firstGroup packagePattern ls).getD "", imports := importsFrom none ls,
    functions := functions ls, bindings := bindings ls, code, path }

def readOutline (p : String) : Audit Outline :=
  return outlineOf p (← readStrict "Go" p)

namespace Outline

def toValue (outline : Outline) : Value :=
  .record [("package", .text outline.package), ("imports", Value.ofTexts outline.imports),
    ("functions", .list (outline.functions.map (·.toValue))),
    ("variables", .list (outline.bindings.map (·.toValue))),
    ("source_code", .text outline.code), ("file_path", .text outline.path)]

def toTree (outline : Outline) : Value :=
  .record [("type", .text "go_file"), ("package", .text outline.package),
    ("imports", .list (outline.imports.map fun p => .record [("path", .text p)])),
    ("functions", .list (outline.functions.map (·.toValue))),
    ("variables", .list (outline.bindings.map (·.toValue))), ("source_code", .text outline.code)]

def symbols (outline : Outline) : Value :=
  .list (outline.functions.map (·.toValue) ++ outline.bindings.map (·.toValue))

end Outline

end Go

namespace Java

def packagePattern : Pattern := Pattern.ofText "^package\\s+([\\w.]+);"

def importPattern : Pattern := Pattern.ofText "^import\\s+(?:static\\s+)?([\\w.*]+);"

def classPattern : Pattern :=
  Pattern.ofText
    "^(?:public\\s+|private\\s+|protected\\s+)?(?:abstract\\s+|final\\s+)?class\\s+(\\w+)"

def classLinePattern : Pattern := Pattern.ofText "^\\s*class\\s+"

def methodPattern : Pattern :=
  Pattern.ofText ("^(?:public|private|protected|static|\\s)*\\s*(?:[\\w<>\\[\\]]+\\s+)?(\\w+)" ++
    "\\s*\\([^)]*\\)\\s*(?:throws\\s+[\\w\\s,]+)?\\s*\\\x7b")

def variablePattern : Pattern :=
  Pattern.ofText
    "^(?:public|private|protected|static|\\s)*\\s*([\\w<>\\[\\]]+)\\s+(\\w+)\\s*[=;]"

structure Outline where
  package : String
  imports : List String
  classes : List Definition
  methods : List Mention
  bindings : List Mention
  code : String
  path : String

def imports (ls : List (List Char)) : List String :=
  ls.filterMap fun ln =>
    (importPattern.matchStart? (Text.trim ln)).map fun f => f.group 1

def classes (ls : List (List Char)) : List Definition :=
  (withRests 1 ls).filterMap fun (n, ln, tl) =>
    (classPattern.search? (Text.trim ln)).map fun f =>
      { name := f.group 1, first := n, last := (balancedLine? (braceBalance ln) (n + 1) tl).getD n }

def methods (classes : List Definition) (ls : List (List Char)) : List Mention :=
  (withRests 1 ls).filterMap fun (n, ln, _) =>
    if (classLinePattern.search? ln).isSome then none
    else
      match methodPattern.search? (Text.trim ln) with
      | none => none
      | some f =>
        let name := f.group 1
        if classes.any fun definition => definition.name == name then none
        else some { name, line := n }

def bindings (ls : List (List Char)) : List Mention :=
  (withRests 1 ls).filterMap fun (n, ln, _) =>
    (variablePattern.matchStart? (Text.trim ln)).map fun f =>
      { name := f.group 2, line := n }

def outlineOf (path code : String) : Outline :=
  let ls := Text.splitNewline code.toList
  let classes := classes ls
  { package := (firstGroup packagePattern ls).getD "", imports := imports ls, classes,
    methods := methods classes ls, bindings := bindings ls, code, path }

def readOutline (p : String) : Audit Outline :=
  return outlineOf p (← readStrict "Java" p)

namespace Outline

def toValue (outline : Outline) : Value :=
  .record [("package", .text outline.package), ("imports", Value.ofTexts outline.imports),
    ("classes", .list (outline.classes.map (·.toValue))),
    ("methods", .list (outline.methods.map (·.toValue))),
    ("variables", .list (outline.bindings.map (·.toValue))),
    ("source_code", .text outline.code), ("file_path", .text outline.path)]

def toTree (outline : Outline) : Value :=
  .record [("type", .text "java_file"), ("package", .text outline.package),
    ("imports", .list (outline.imports.map fun p => .record [("path", .text p)])),
    ("classes", .list (outline.classes.map (·.toValue))),
    ("methods", .list (outline.methods.map (·.toValue))),
    ("variables", .list (outline.bindings.map (·.toValue))), ("source_code", .text outline.code)]

def symbols (outline : Outline) : Value :=
  .list (outline.classes.map (·.toValue) ++ outline.methods.map (·.toValue) ++
    outline.bindings.map (·.toValue))

end Outline

end Java

end SourceAudit.Source
