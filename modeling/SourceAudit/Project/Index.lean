import SourceAudit.Hash.Sha256
import SourceAudit.Source.Outline

/-!
# The index of a project

What is known about the files of a project together: their lines, symbols and calls, the symbols by
name, and the calls that lead from one file to another.
-/

namespace SourceAudit.Project

open Outside
open SourceAudit.Pattern (Pattern)

structure Call where
  name : String
  path : String
  line : Nat
deriving DecidableEq, Repr

structure Symbol where
  name : Value
  line : Value
  kind : String

namespace Call

def toValue (call : Call) : Value :=
  .record [("name", .text call.name), ("full_name", .text call.path), ("line", .ofNat call.line)]

end Call

namespace Symbol

def toValue (symbol : Symbol) : Value :=
  .record [("name", symbol.name), ("line", symbol.line), ("kind", .text symbol.kind)]

end Symbol

structure SourceFile where
  path : String
  language : Value
  code : String
  imports : List Value
  symbols : List Symbol
  calls : List Call
  matched : Value
  flows : Value

namespace SourceFile

def lines (file : SourceFile) : List String :=
  Str.splitLines file.code

def toValue (file : SourceFile) : Value :=
  .record [("language", file.language), ("source_code", .text file.code),
    ("lines", Value.ofTexts file.lines), ("line_count", .ofNat file.lines.length),
    ("imports", .list file.imports), ("symbols", .list (file.symbols.map (·.toValue))),
    ("calls", .list (file.calls.map (·.toValue))), ("pattern_matches", file.matched),
    ("taint_flows", file.flows)]

end SourceFile

def callPattern : Pattern := Pattern.ofText "([A-Za-z_][\\w\\.]*)\\s*\\("

def typePattern : Pattern := Pattern.ofText "\\b(class|interface|enum)\\b"

def keywords : List String :=
  ["if", "for", "while", "switch", "catch", "def", "class", "return", "new", "try", "except",
    "elif", "else", "package", "import", "func", "case", "go", "select", "range", "map"]

def isDefinition (lang : Value) (ln : String) : Bool :=
  match lang with
  | .text "python" => Str.startsWith "def " ln
  | .text "go" => Str.startsWith "func " ln
  | .text "java" => typePattern.occursIn ln
  | _ => false

def lineCalls (n : Nat) (ln : String) : List Call :=
  (callPattern.findAll ln.toList).filterMap fun f =>
    let path := f.group 1
    let name := ((Str.splitOn "." path).getLast?).getD path
    if keywords.contains name then none else some { name, path, line := n }

def callsFrom (lang : Value) (n : Nat) : List String → List Call
  | [] => []
  | ln :: tl =>
    (if isDefinition lang (Str.trim ln) then [] else lineCalls n ln) ++
      callsFrom lang (n + 1) tl

def callsOf (lang : Value) (code : String) : List Call :=
  callsFrom lang 1 (Str.splitLines code)

def reportedSymbols (fnds : Value) : Outcome (List Symbol × List Value) := do
  let symbols := (← fnds.getD "symbols" (.record [])).orElse (.record [])
  if !symbols.isRecord then return ([], [])
  let part (k : String) : Outcome (List Value) := do (← symbols.getD k (.list [])).items
  let symbolOf (kind : String) (x : Value) : Outcome Symbol := do
    return { name := ← x.get "name", line := ← x.get "line", kind }
  let functions ← (← part "functions").mapM (symbolOf "function")
  let classes ← (← part "classes").mapM (symbolOf "class")
  let modules ← (← part "imports").mapM fun x => do
    let nm ← x.get "module"
    if nm.truthy then return nm
    let nm ← x.get "name"
    if nm.truthy then return nm
    x.get "alias"
  return (functions ++ classes, modules.filter Value.truthy)

def mentioned (kind nm : String) (ln : Nat) : Symbol :=
  { name := .text nm, line := .ofNat ln, kind }

def symbolsOf (lang : Value) (p : String) (fnds : Value) :
    Audit (List Symbol × List Value) := do
  match lang with
  | .text "python" => Audit.ofOutcome (reportedSymbols fnds)
  | .text "go" =>
    let outline ← Source.Go.readOutline p
    return (outline.functions.map fun definition =>
      mentioned "function" definition.name definition.first, outline.imports.map .text)
  | .text "java" =>
    let outline ← Source.Java.readOutline p
    return ((outline.methods.map fun method => mentioned "method" method.name method.line) ++
      outline.classes.map fun definition => mentioned "class" definition.name definition.first,
      outline.imports.map .text)
  | _ => return ([], [])

structure Target where
  name : Value
  file : String
  line : Value
  kind : String

structure CallEdge where
  source : String
  target : String
  name : String
  line : Nat
deriving DecidableEq, Repr

namespace CallEdge

def toValue (edge : CallEdge) : Value :=
  .record [("from_file", .text edge.source), ("to_file", .text edge.target),
    ("call_name", .text edge.name), ("line", .ofNat edge.line)]

end CallEdge

structure Index where
  files : List SourceFile
  targets : List Target

def putFile (file : SourceFile) : List SourceFile → List SourceFile
  | [] => [file]
  | old :: tl => if old.path = file.path then file :: tl else old :: putFile file tl

def targetsOf (file : SourceFile) : Outcome (List Target) := do
  let named := file.symbols.filter fun symbol => symbol.name.truthy
  named.mapM fun symbol => do
    return { name := ← symbol.name.asKey, file := file.path, line := symbol.line,
             kind := symbol.kind }

def readFile (p : Value) (r : Value) : Audit SourceFile := do
  let stated ← Audit.ofOutcome (r.get "language")
  let language ←
    if stated.truthy then pure stated
    else do pure (.text (← Source.detectValue p).name)
  let nm := p.plain
  let code ← Source.loadSource nm
  let fnds := (← Audit.ofOutcome (r.getD "static_results" (.record []))).orElse
    (.record [])
  let (symbols, imports) ← symbolsOf language nm fnds
  let listed (k : String) : Outcome Value := do
    return (← fnds.getD k (.list [])).orElse (.list [])
  return { path := nm, language, code, imports, symbols, calls := callsOf language code
           matched := ← Audit.ofOutcome (listed "pattern_matches")
           flows := ← Audit.ofOutcome (listed "taint_flows") }

def addResult (i : Index) (e : Value) : Audit Index := do
  let succeeded ← Audit.ofOutcome (e.get "success")
  if !succeeded.truthy then return i
  let r := (← Audit.ofOutcome (e.getD "result" (.record []))).orElse (.record [])
  let path ← Audit.ofOutcome (e.get "file_path")
  if !path.truthy then return i
  let file ← readFile path r
  let tgts ← Audit.ofOutcome (targetsOf file)
  return { files := putFile file i.files, targets := i.targets ++ tgts }

def edgesFrom (tgts : List Target) (file : SourceFile) : List CallEdge :=
  file.calls.flatMap fun call =>
    if call.name.isEmpty then []
    else tgts.filterMap fun tgt =>
      if tgt.name.same (.text call.name) && tgt.file != file.path then
        some { source := file.path, target := tgt.file, name := call.name, line := call.line }
      else none

namespace Index

def edges (i : Index) : List CallEdge :=
  i.files.flatMap (edgesFrom i.targets)

def names (i : Index) : List (Value × List Target) :=
  i.targets.foldl
    (fun known tgt =>
      if known.any fun e => e.1.alike tgt.name then
        known.map fun e =>
          if e.1.alike tgt.name then (e.1, e.2 ++ [tgt]) else e
      else known ++ [(tgt.name, [tgt])])
    []

def identityBytes (files : List (String × String)) : List UInt8 :=
  (files.mergeSort fun a b => decide (a.1 ≤ b.1)).flatMap fun (p, code) =>
    Text.Utf8.encode p ++ Text.Utf8.encode code

def identity (files : List (String × String)) : String :=
  String.join ((Hash.sha256 (identityBytes files)).map Text.Utf8.hexDigits)

def tableOf (es : List (Value × Value)) : Value :=
  if es.all fun e => e.1.isText then
    .record (es.map fun e => (e.1.plain, e.2))
  else .table es

def toValue (i : Index) : Value :=
  let placeOf (tgt : Target) : Value :=
    .record [("file", .text tgt.file), ("line", tgt.line), ("kind", .text tgt.kind)]
  .record [("project_id", .text (identity (i.files.map fun file => (file.path, file.code)))),
    ("files", .record (i.files.map fun file => (file.path, file.toValue))),
    ("symbols_index", tableOf (i.names.map fun (nm, tgts) =>
      (nm, .list (tgts.map placeOf)))), ("call_edges", .list (i.edges.map (·.toValue)))]

end Index

def buildIndex (res : Value) : Audit Index := do
  let es ← Audit.ofOutcome res.items
  es.foldlM addResult { files := [], targets := [] }

end SourceAudit.Project
