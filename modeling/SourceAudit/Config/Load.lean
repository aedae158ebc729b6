import SourceAudit.Config.Yaml
import SourceAudit.Outside.Session
import SourceAudit.Rules.Standard

/-!
# Configuration

A configuration has settings, rules and settings of the agent. Each of them comes from a file of the
configuration directory, or has standard values when that file is missing.
-/

namespace SourceAudit.Config

open Outside

def standardSettings : Value :=
  .record [("timeout", .int 30), ("log_path", .text "data/logs/"),
    ("report_path", .text "data/reports/"), ("enable_dynamic_analysis", .bool true),
    ("enable_static_analysis", .bool true), ("enable_sandbox", .bool true),
    ("dynamic_timeout", .int 2), ("dynamic_log_mode", .text "queue"),
    ("parallel_analysis", .bool true), ("parallel_workers", .null)]

def noRules : Value :=
  .record [("rules", .list [])]

def agentBounds : List (String × Value) :=
  [("max_findings", .int 10), ("max_candidates", .int 24), ("max_candidates_per_call", .int 6),
    ("max_snippets", .int 24), ("max_snippet_lines", .int 6), ("max_chars", .int 12000),
    ("max_file_chars", .int 4000), ("select_max_tokens", .int 256),
    ("analyze_max_tokens", .int 2048), ("max_execution_log_chars", .int 2000),
    ("max_dynamic_targets", .int 3), ("select_preview_lines", .int 120)]

def agentTimes : List (String × Value) :=
  [("timeout", .int 60), ("max_retries", .int 5), ("timeout_connect", .int 10),
    ("timeout_read", .int 60), ("timeout_write", .int 20)]

def agentCache : Value :=
  .record [("enabled", .bool true), ("path", .text "data/agent_cache"), ("ttl_seconds", .int 86400)]

def standardAgent : Value :=
  .record ([("enabled", .bool false), ("provider", .text "openai"),
    ("model", .text "qwen-plus-latest"), ("api_key", .text ""),
    ("base_url", .text "https://aihubmix.com/v1")] ++ agentTimes ++
    [("network_enabled", .bool false), ("evidence_required", .bool true)] ++ agentBounds ++
    [("prompt_select_path", .text "config/agent_prompt_select.txt"),
      ("prompt_select_inline", .text ""), ("prompt_analyze_path", .text "config/agent_prompt.txt"),
      ("prompt_analyze_inline", .text ""),
      ("redaction", .record [("enabled", .bool true), ("patterns", .list [])]),
      ("cache", agentCache)])

def document? (dir nm : String) : Audit (Option Value) := do
  let path := Path.join dir nm
  if !(← Audit.exists? path) then return none
  match Yaml.read? (← Audit.readText path) with
  | some doc => return some doc
  | none => throw (.outside "ParserError" s!"malformed configuration: {path}")

def load (dir : String) : Audit Value := do
  let settings := (← document? dir "settings.yaml").getD standardSettings
  let rs := (← document? dir "rules.yaml").getD noRules
  let agent ← match ← document? dir "agent.yaml" with
    | some doc =>
      Audit.ofOutcome ((doc.orElse (.record [])).getD "agent" (.record []))
    | none => pure standardAgent
  return .record [("settings", settings), ("rules", rs), ("agent", agent)]

def shippedSettings : Value :=
  .record [("timeout", .int 30), ("dynamic_timeout", .int 8),
    ("dynamic_sample_interval", .float (Double.ofFloat 0.1)), ("dynamic_log_mode", .text "queue"),
    ("log_path", .text "data/logs/"), ("report_path", .text "data/reports/"),
    ("intermediate_path", .text "data/intermediate/"), ("upload_path", .text "data/uploads/"),
    ("max_file_size", .int 10485760), ("enable_dynamic_analysis", .bool true),
    ("enable_static_analysis", .bool true), ("log_level", .text "INFO"),
    ("java_dependency_mode", .text "online")]

def shippedAgent : Value :=
  .record ([("enabled", .bool true), ("provider", .text "openai"),
    ("model", .text "qwen-plus-latest"), ("api_key", .text ""), ("base_url", .text "")] ++
    agentTimes ++ [("network_enabled", .bool true), ("evidence_required", .bool true)] ++
    agentBounds ++ [("prompt_select_path", .text "config/agent_prompt_select.txt"),
      ("prompt_analyze_path", .text "config/agent_prompt.txt"),
      ("redaction", .record [("enabled", .bool true),
        ("patterns", Value.ofTexts ["sk-[A-Za-z0-9]\x7b16,\x7d", "AKIA[0-9A-Z]\x7b16\x7d",
          "https?://[^\\s\"']+"])]), ("cache", agentCache)])

def shipped : Value :=
  .record [("settings", shippedSettings), ("rules", Rules.standardFile), ("agent", shippedAgent)]

end SourceAudit.Config
