import SourceAudit.Outside.Session

/-!
# Validity of Python sources

A Python source is parsed and compiled outside of this library. `SourceError` is what the parser or
the compiler says about a faulty text; here such an answer becomes the failure of building a tree,
or the entry of a syntax report.
-/

namespace SourceAudit.Source

open Outside

structure SourceError where
  kind : String
  message : String
  line : Value
  offset : Value
  text : Value

namespace SourceError

def ofValue? (rep : Value) : Option SourceError :=
  match rep with
  | .record _ =>
    some {
      kind := ((rep.lookup "kind").text?).getD ""
      message := ((rep.lookup "msg").text?).getD ""
      line := rep.lookup "lineno"
      offset := rep.lookup "offset"
      text := rep.lookup "text" }
  | _ => none

def isSyntactic (error : SourceError) : Bool :=
  error.kind == "SyntaxError" || error.kind == "IndentationError" || error.kind == "TabError"

def completed (error : SourceError) (file : String) : Audit SourceError := do
  match error.text, error.line with
  | .null, .int n =>
    match ← Audit.attempt (Audit.loadBytes file) with
    | .error _ => return error
    | .ok bytes =>
      match Text.Utf8.decode bytes with
      | .error _ => return error
      | .ok t =>
        if n ≤ 0 then return error
        let ls := Str.readLines (Audit.unify t)
        return { error with text := Value.ofText? ls[(n - 1).toNat]? }
  | _, _ => return error

def buildFault (error : SourceError) (file : String) : Fault :=
  if error.isSyntactic then
    let head := s!"Syntax error in {file} at line {error.line.plain}: {error.message}"
    let mark :=
      if error.offset.truthy then
        match error.offset with
        | .int col => String.ofList (List.replicate (col - 1).toNat ' ') ++ "^"
        | _ => ""
      else ""
    let quoted := if error.text.truthy then "\n" ++ error.text.plain ++ mark else ""
    .sourceText (head ++ quoted)
  else .runtime s!"Unexpected error parsing source code: {error.message}"

end SourceError

def requireSource (src : Value) : Outcome String :=
  match src with
  | .null => .error (.invalid "Source code cannot be None")
  | .text c =>
    if Str.isBlank c then .error (.invalid "Source code cannot be empty")
    else .ok c
  | other => .error (.mistyped s!"Source code must be a string, got <class '{other.kind.name}'>")

def buildTree {α : Type} (src : Value) (file : String) (parsed : Except SourceError α) :
    Outcome α := do
  let _ ← requireSource src
  match parsed with
  | .ok t => .ok t
  | .error error => .error (error.buildFault file)

structure SyntaxReport where
  valid : Bool
  errors : List Value
  message : String

namespace SyntaxReport

def toValue (rep : SyntaxReport) : Value :=
  .record [("valid", .bool rep.valid), ("errors", .list rep.errors),
    ("error_message", .text rep.message)]

def clean : SyntaxReport :=
  { valid := true, errors := [], message := "" }

end SyntaxReport

def checkSyntax (src : Value) (problem : Option SourceError) : Outcome SyntaxReport := do
  let blank ← match src with
    | .null => pure true
    | other => do
      let c ← other.strip
      pure c.isEmpty
  if blank then
    return {
      valid := false
      errors := [.record [("type", .text "EmptySource"), ("message", .text "Source code is empty"),
        ("line", .int 0), ("offset", .int 0)]]
      message := "Source code is empty" }
  match problem with
  | none => return SyntaxReport.clean
  | some error =>
    if error.isSyntactic then
      return {
        valid := false
        errors := [.record [("type", .text "SyntaxError"), ("message", .text error.message),
          ("line", error.line.orElse (.int 0)), ("offset", error.offset.orElse (.int 0)),
          ("text", error.text.orElse (.text ""))]]
        message := s!"Syntax error at line {error.line.plain}: {error.message}" }
    else
      return {
        valid := false
        errors := [.record [("type", .text error.kind), ("message", .text error.message),
          ("line", .int 0), ("offset", .int 0), ("text", .text "")]]
        message := s!"Unexpected error: {error.message}" }

end SourceAudit.Source
