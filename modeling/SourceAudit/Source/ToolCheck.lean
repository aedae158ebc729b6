import SourceAudit.Source.Comments
import SourceAudit.Source.Reader
import SourceAudit.Pattern.Parser

/-!
# Syntax checks by the tools of a language

Go sources are checked by the formatter, Java sources by a parser or by the compiler.
-/

namespace SourceAudit.Source

open Outside
open SourceAudit.Pattern (Pattern)

structure ToolReport where
  valid : Bool
  errors : List String
deriving DecidableEq, Repr

namespace ToolReport

def toValue (rep : ToolReport) : Value :=
  .record [("valid", .bool rep.valid), ("errors", Value.ofTexts rep.errors)]

def clean : ToolReport := { valid := true, errors := [] }

def skipped (why : String) : ToolReport := { valid := true, errors := [why] }

def faulty (errors : List String) : ToolReport := { valid := false, errors }

def lines (errors : String) : List String :=
  Str.splitOn "\n" errors

end ToolReport

def hasTool (trial : List String) : Audit Bool := do
  match ← Audit.attempt (Audit.finish trial none (.int 5)) with
  | .ok finished => return finished.status == 0
  | .error err =>
    match err.family with
    | .missingFile | .timeout | .exitStatus => return false
    | _ => throw err

def reportOf (check : Audit ToolReport) : Audit ToolReport := do
  match ← Audit.attempt check with
  | .ok rep => return rep
  | .error fault =>
    if fault.family = .timeout then return .faulty ["Syntax check timeout"]
    else return .faulty [s!"Syntax check error: {fault.message}"]

namespace Go

def checkFile (p : String) : Audit ToolReport := do
  if !(← hasTool ["gofmt", "-h"]) then
    return .skipped "Go toolchain not available, skipping syntax check"
  reportOf do
    let dir ← Audit.temporaryDirectory "dir"
    let copy := Path.join dir (Path.name p)
    let t ← loadStrict p
    Audit.writeText copy t
    let finished ← Audit.finish ["gofmt", copy] none (.int 30)
    Audit.removeTree dir
    if finished.status == 0 then return .clean
    else if finished.errors.isEmpty then return .faulty ["Unknown syntax error"]
    else return .faulty (ToolReport.lines finished.errors)

end Go

namespace Java

def publicTypePattern : Pattern :=
  Pattern.ofText "\\bpublic\\s+(class|interface|enum|record)\\s+([A-Za-z_][\\w]*)"

def publicType? (src : String) : Option String :=
  let code := Text.join ['\n'] (stripLines (Text.splitLines src.toList))
  (publicTypePattern.search? code).map fun f => f.group 2

def textMarkers : List String :=
  ["illegal start of", "not a statement", "expected", "reached end of file while parsing",
    "unclosed string literal", "class, interface, or enum expected", "identifier expected"]

def surroundingMarkers : List String :=
  ["cannot find symbol", "package ", "is public, should be declared in a file named",
    "class file for", "module", "cannot access", "bad class file"]

def blamesSurroundings (errors : String) : Bool :=
  let t := Str.lower errors
  !(textMarkers.any fun marker => Str.occurs marker t) &&
    surroundingMarkers.any fun marker => Str.occurs marker t

def compileReport (src p : String) : Audit ToolReport := do
  let dir ← Audit.temporaryDirectory "dir"
  let nm := match publicType? src with
    | some nm => nm ++ ".java"
    | none => Path.name p
  let copy := Path.join dir nm
  Audit.writeText copy src
  let finished ← Audit.finish ["javac", "-J-Duser.language=en", "-J-Duser.region=US",
    "-Xlint:none", "-proc:none", "-d", dir, copy] none (.int 30)
  Audit.removeTree dir
  if finished.status == 0 then return .clean
  else if blamesSurroundings finished.errors then
    return { valid := true
             errors := "Compilation issues detected (likely classpath/module); syntax not verified."
               :: ToolReport.lines finished.errors }
  else if finished.errors.isEmpty then return .faulty ["Unknown syntax error"]
  else return .faulty (ToolReport.lines finished.errors)

def checkFile (p : String) : Audit ToolReport := do
  let src ← loadSource p
  match (← get).script.javaParser with
  | some none => return .clean
  | some (some ("JavaSyntaxError", msg)) => return .faulty [msg]
  | _ =>
    if !(← hasTool ["javac", "-version"]) then
      return .skipped "Java compiler not available, skipping syntax check"
    reportOf (compileReport src p)

end Java

end SourceAudit.Source
