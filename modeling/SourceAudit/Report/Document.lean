import SourceAudit.Json.Writer
import SourceAudit.Outside.Session
import SourceAudit.Report.Wording

/-!
# Reports as documents

A report as a document with everything that was found, and the saving of reports of any form.
-/

namespace SourceAudit.Report

open Outside

def summaryEntry (p sum : Value) : Outcome Value :=
  match sum with
  | .record fs =>
    .ok (.record (fs.foldl (fun known (k, v) => Value.setField k v known) [("file_path", p)]))
  | other => .error (.mistyped s!"'{other.kind.name}' object is not a mapping")

def fileSummaries (file : Value) : Outcome (Value × Value) := do
  let r ← resultOf file
  let static ← summaryFor file r "static_summary" staticSummaryOf
  let dynamic ← summaryFor file r "dynamic_summary" dynamicSummaryOf
  let p ← file.get "file_path"
  return (← summaryEntry p static, ← summaryEntry p dynamic)

def sections (data : Value) : Outcome Value := do
  if ← isBatch data then
    let files ← (← data.getD "file_results" (.list [])).items
    let summaries ← files.mapM fileSummaries
    return .record [("static_summary_by_file", .list (summaries.map Prod.fst)),
      ("dynamic_summary_by_file", .list (summaries.map Prod.snd))]
  else
    let agg := (← data.getD "aggregated_results" (.record [])).orElse (.record [])
    let srcs ← sourcesOf data agg
    return .record [("static_summary", srcs.staticSummary),
      ("dynamic_summary", srcs.dynamicSummary)]

def document (m : Moment) (data : Value) : Outcome String := do
  let sections ← sections data
  Json.indented (.record [
    ("report_metadata", .record [("generated_at", .text m.iso), ("tool", .text toolName),
      ("version", .text "1.0")]), ("analysis_results", data), ("report_sections", sections)])

def save (c : Value) (p form : String) : Audit String := do
  let directory := Path.directory p
  if !directory.isEmpty then Audit.makeDirectories directory
  let p := if Str.endsWith ("." ++ form) p then p else p ++ "." ++ form
  match c with
  | .text c => Audit.writeText p c
  | other =>
    Audit.writeText p ""
    throw (.notWritable other.kind)
  return p

end SourceAudit.Report
