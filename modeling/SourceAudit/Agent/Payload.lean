import SourceAudit.Agent.Settings
import SourceAudit.Agent.Sources
import SourceAudit.Hash.Sha256
import SourceAudit.Json.Writer

/-!
# The data of a request

What a model is asked to analyse: the files, as far as they fit, and what was seen when they ran.
-/

namespace SourceAudit.Agent

def sentFile (lim : Int) (e : SourceEntry) : Value :=
  let chars := e.content.toList
  let cut := lim != 0 && decide (lim < Int.ofNat chars.length)
  let c := if cut then String.ofList (Slice.upTo lim chars) else e.content
  .record [("path", .text e.path), ("language", Value.ofText? e.language),
    ("content", .text c), ("truncated", .bool cut)]

def fitting (lim : Int) (used : Nat) : List Value → Outcome (List Value)
  | [] => .ok []
  | file :: tl => do
    let size := (← Json.line file).length
    if lim != 0 && decide (lim < Int.ofNat (used + size)) then fitting lim used tl
    else return file :: (← fitting lim (used + size) tl)

def projectPayload (es : List SourceEntry) (sum settings : Value) : Outcome Value := do
  let total ← integerSetting settings "max_chars" 12000
  let each ← integerSetting settings "max_file_chars" 4000
  let files ← fitting total 0 (es.map (sentFile each))
  let required ← settings.getD "evidence_required" (.bool true)
  let fnds ← integerSetting settings "max_findings" 10
  return .record [("task", .text "analyze_project"),
    ("project", .record [("files_count", .ofNat es.length)]), ("files", .list files),
    ("dynamic_summary", sum), ("constraints", .record [("evidence_required", .bool required.truthy),
      ("max_findings", .int fnds), ("output_language", .text "zh-CN")])]

def documentKey (doc : Value) : Outcome String := do
  let written ← Json.line (Json.sortFields doc)
  return String.join ((Hash.sha256 (Text.Utf8.encode written)).map Text.Utf8.hexDigits)

end SourceAudit.Agent
