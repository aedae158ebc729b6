import SourceAudit.Findings.Risk
import SourceAudit.Value.Arithmetic

/-!
# Threats found by models

A finding of a model becomes a threat when it names lines. Its evidence is kept as far as it points
into files of the project.
-/

namespace SourceAudit.Agent

open SourceAudit.Findings (Severity)

abbrev FileLines := List (String × List String)

structure Evidence where
  file : String
  line : Int
  snippet : Value

namespace Evidence

def toValue (ev : Evidence) : Value :=
  .record [("file", .text ev.file), ("line", .int ev.line), ("snippet", ev.snippet)]

end Evidence

structure ModelThreat where
  kind : String
  severity : Severity
  description : String
  lines : List Int
  evidence : List Evidence

namespace ModelThreat

def toValue (th : ModelThreat) : Value :=
  .record [("threat_type", .text th.kind), ("severity", .text th.severity.name),
    ("description", .text th.description), ("line_numbers", Value.ofInts th.lines),
    ("evidence", .list (th.evidence.map (·.toValue)))]

end ModelThreat

def severityOfWord (w : String) : Severity :=
  match Str.lower w with
  | "critical" => .critical
  | "high" => .high
  | "low" => .low
  | _ => .medium

def linesOf? (files : FileLines) (file : Value) : Outcome (Option (String × List String)) := do
  match ← file.asKey with
  | .text p => return (files.find? fun e => e.1 == p)
  | _ => return none

def evidenceOf? (files : FileLines) (item : Value) : Outcome (Option Evidence) := do
  if !item.isRecord then return none
  match ← linesOf? files (item.lookup "file") with
  | none => return none
  | some (file, ls) =>
    match (item.lookup "line").toInteger with
    | .error _ => return none
    | .ok line =>
      if line ≤ 0 ∨ Int.ofNat ls.length < line then return none
      let snip := (item.lookup? "snippet").getD (.text "")
      let t := Str.trim ((ls[(line - 1).toNat]?).getD "")
      return some { file, line, snippet := if snip.truthy then snip else .text t }

def insertRising (n : Int) : List Int → List Int
  | [] => [n]
  | a :: tl =>
    if n < a then n :: a :: tl
    else if n = a then a :: tl
    else a :: insertRising n tl

def rising (ns : List Int) : List Int :=
  ns.foldr insertRising []

def listedItems (fnd : Value) (k : String) : Outcome (List Value) :=
  (((fnd.lookup? k).getD (.list [])).orElse (.list [])).items

def threatOf? (files : FileLines) (required : Bool) (finding : Value) :
    Outcome (Option ModelThreat) := do
  if !finding.isRecord then return none
  let kind ← ((finding.lookup "threat_type").orElse (.text "Unknown")).strip
  let w ← ((finding.lookup "severity").orElse (.text "medium")).lower
  let description ← ((finding.lookup "description").orElse (.text "")).strip
  let stated := (← listedItems finding "line_numbers").filterMap fun x => x.toInteger.toOption
  let evidence := (← (← listedItems finding "evidence").mapM (evidenceOf? files)).filterMap id
  if required && evidence.isEmpty then return none
  let lines := rising (stated ++ evidence.map (·.line))
  if lines.isEmpty then return none
  return some { kind, severity := severityOfWord w, description, lines, evidence }

def threatsOf (fnds : Value) (files : FileLines) (required : Bool) :
    Outcome (List ModelThreat) := do
  return (← (← fnds.items).mapM (threatOf? files required)).filterMap id

end SourceAudit.Agent
