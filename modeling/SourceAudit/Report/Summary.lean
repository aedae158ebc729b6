import SourceAudit.Files.Path
import SourceAudit.Value.Arithmetic

/-!
# Summaries of analyses

Numbers of findings of each kind, and the data that reports are made from: of one file, or of a
batch of files with a summary for each of them.
-/

namespace SourceAudit.Report

def countOf (v : Value) : Value :=
  match v with
  | .list xs => .ofNat xs.length
  | _ => .int 0

def countField (fnds : Value) (k : String) : Outcome (String × Value) := do
  return (k, countOf (← fnds.getD k (.list [])))

def staticSummary (fnds : Value) : Outcome Value := do
  let fnds := fnds.orElse (.record [])
  let counts ← ["pattern_matches", "taint_flows", "cfg_structures", "cve_matches"].mapM
    (countField fnds)
  return .record (counts ++ [("syntax_valid", ← fnds.getD "syntax_valid" (.bool true))])

def dynamicSummary (fnds : Value) : Outcome Value := do
  let fnds := fnds.orElse (.record [])
  return .record (← ["syscalls", "network_activities", "file_activities", "memory_findings",
    "fuzz_results"].mapM (countField fnds))

def findingsOf (result : Value) (k aggregatedKey : String) : Outcome Value := do
  if !result.truthy then return .record []
  let fnds ← result.getD k (.record [])
  if fnds.truthy then return fnds
  let agg := (← result.getD "aggregated_results" (.record [])).orElse (.record [])
  agg.getD aggregatedKey (.record [])

def staticSummaryOf (r : Value) : Outcome Value := do
  staticSummary (← findingsOf r "static_results" "static")

def dynamicSummaryOf (r : Value) : Outcome Value := do
  dynamicSummary (← findingsOf r "dynamic_results" "dynamic")

def resultOf (file : Value) : Outcome Value := do
  if (← file.get "success").truthy then file.getD "result" (.record []) else return .record []

def summaryFor (file r : Value) (k : String) (summarize : Value → Outcome Value) :
    Outcome Value := do
  let given ← file.get k
  if given.truthy then return given else summarize r

def singleData (p res : Value) : Outcome Value := do
  return .record [("file_path", p), ("static_results", ← res.getD "static_results" (.record [])),
    ("dynamic_results", ← res.getD "dynamic_results" (.record [])),
    ("aggregated_results", ← res.getD "aggregated_results" (.record [])),
    ("threats", ← res.getD "threats" (.list [])),
    ("risk_assessment", ← res.getD "risk_assessment" (.record []))]

def batchFile (nms file : Value) : Outcome Value := do
  let r ← resultOf file
  let succeeded := (← file.get "success").truthy
  let fnds ←
    if succeeded then r.getD "static_results" (.record []) else pure (.record [])
  let p ← file.get "file_path"
  let nm ← if nms.truthy then nms.entry p else pure .null
  let score ←
    if succeeded then do (← r.getD "risk_assessment" (.record [])).getD "risk_score" (.int 0)
    else pure (.int 0)
  let ths ←
    if succeeded then do (← r.getD "threats" (.list [])).length else pure 0
  return .record [("file_path", p), ("display_name", nm), ("risk_score", score),
    ("threat_count", .ofNat ths), ("static_summary", ← staticSummaryOf r),
    ("dynamic_summary", ← dynamicSummaryOf r),
    ("cve_matches", (← fnds.getD "cve_matches" (.list [])).orElse (.list []))]

def batchData (batch nms : Value) : Outcome Value := do
  let files ← (← (← batch.getD "file_results" (.list [])).items).mapM (batchFile nms)
  return .record [("analysis_type", .text "batch"),
    ("summary", ← batch.getD "summary" (.record [])),
    ("overall_risk", ← batch.getD "overall_risk" (.record [])),
    ("aggregated_threats", ← batch.getD "aggregated_threats" (.list [])),
    ("ai_threats", ← batch.getD "ai_threats" (.list [])),
    ("ai_summary", ← batch.getD "ai_summary" (.record [])), ("file_results", .list files)]

def isBatch (data : Value) : Outcome Bool := do
  return (← data.get "analysis_type").same (.text "batch")

end SourceAudit.Report
