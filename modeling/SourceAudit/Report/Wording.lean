import SourceAudit.Report.Summary

/-!
# Wording of reports

The words for severities and levels, the labels of files, and the texts of numbers and lists, as
they stand in pages and in Markdown alike.
-/

namespace SourceAudit.Report

def toolName : String := "OSS-Guardian"

def severityWords : List (String × Value) :=
  [("critical", .text "严重"), ("high", .text "高危"), ("medium", .text "中危"), ("low", .text "低危")]

def levelWords : List (String × Value) :=
  [("low", .text "低"), ("medium", .text "中"), ("high", .text "高"), ("critical", .text "严重")]

def wordFor (words : List (String × Value)) (level fallback : Value) : Outcome String := do
  let w ← (Value.record words).entry level
  return (w.orElse fallback).plain

def wordOrCapitals (words : List (String × Value)) (level : Value) : Outcome String := do
  let capitals ← level.upper
  wordFor words level (.text capitals)

def shown (doc : Value) (k : String) (missing : Value) : Outcome String := do
  return (← doc.getD k missing).plain

def shownCount (sum : Value) (k : String) : Outcome String :=
  shown sum k (.int 0)

def twoPlaces (v : Value) : Outcome String :=
  match v with
  | .text _ => .error (.formatCode "f" v.kind)
  | other =>
    match other.double? with
    | some n => .ok (n.fixed 2)
    | none => .error (.unsupportedFormat other.kind)

def nameOf (p : Value) : Outcome String :=
  match p with
  | .text p => .ok (Path.name p)
  | other =>
    .error (.mistyped s!"expected str, bytes or os.PathLike object, not {other.kind.name}")

def fileLabel (p displayName : Value) : Outcome String :=
  if displayName.truthy then .ok displayName.plain
  else if p.truthy then nameOf p
  else .ok ""

def labelOf (file : Value) : Outcome String := do
  fileLabel (← file.get "file_path") (← file.get "display_name")

def displayNames (files : List Value) : Outcome (List (Value × Value)) := do
  let named ← files.mapM fun file => do
    let nm ← file.get "display_name"
    if nm.truthy then return some (← (← file.get "file_path").asKey, nm) else return none
  return (named.filterMap id).reverse

def labelIn (nms : List (Value × Value)) (p : Value) : Outcome String := do
  let k ← p.asKey
  fileLabel p (((nms.find? fun e => e.1.alike k).map Prod.snd).getD .null)

def lineList (th : Value) : Outcome String := do
  let lines ← th.getD "line_numbers" (.list [])
  if !lines.truthy then return "N/A"
  return ", ".intercalate ((← lines.items).map Value.plain)

def syntaxWord (sum : Value) : Outcome String := do
  return if (← sum.getD "syntax_valid" (.bool true)).truthy then "通过" else "失败"

def activityWord (activity : Value) : Outcome String := do
  let k ← activity.getD "type" (.text "unknown")
  return if k.same (.text "connect") then "连接"
    else if k.same (.text "bind") then "绑定"
    else k.plain

structure Sources where
  static : Value
  dynamic : Value
  staticSummary : Value
  dynamicSummary : Value

def sourcesOf (data agg : Value) : Outcome Sources := do
  let pick (k aggregatedKey : String) : Outcome Value := do
    let fnds ← data.get k
    if fnds.truthy then return fnds else agg.getD aggregatedKey (.record [])
  let static ← pick "static_results" "static"
  let dynamic ← pick "dynamic_results" "dynamic"
  return { static, dynamic, staticSummary := ← staticSummary static
           dynamicSummary := ← dynamicSummary dynamic }

def vulnerabilities (fnds : Value) : Outcome (List Value) := do
  ((← fnds.getD "cve_matches" (.list [])).orElse (.list [])).items

def averages (risk : Value) : Outcome (Value × String) := do
  let score ← risk.getD "average_risk_score" (.int 0)
  let level ← risk.getD "average_risk_level" (← risk.getD "risk_level" (.text "low"))
  return (score, ← wordFor severityWords level level)

end SourceAudit.Report
