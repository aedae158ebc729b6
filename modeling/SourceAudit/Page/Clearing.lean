import SourceAudit.Page.Upload

/-!
# Clearing up

What visits leave behind: the file of the last analysis, the uploads, the reports and the results
that the page remembers.
-/

namespace SourceAudit.Page

open Outside

def forgetAnalysis : Audit Unit := do
  remember "analysis_results" .null
  remember "source_code" .null
  remember "current_file_path" .null
  remember "scroll_to_results" (.bool false)
  remember "selected_files" (.list [])
  forgetAll "file_checkbox_"

def clearDirectory (p : String) : Audit Unit := do
  if ← Audit.isDirectory p then Audit.removeTree p

def clearUp (cfg : Value) : Audit Unit := do
  match ← stateOrNull "current_file_path" with
  | .text p => if ← Audit.isFile p then Audit.remove p
  | _ => pure ()
  clearDirectory Upload.directory
  let reports ← Audit.ofOutcome do
    (← cfg.getD "settings" (.record [])).getD "report_path" (.text "data/reports/")
  match reports with
  | .text p => clearDirectory p
  | _ => pure ()
  forgetAnalysis

end SourceAudit.Page
