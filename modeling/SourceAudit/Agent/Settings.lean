import SourceAudit.Value.Arithmetic

/-!
# Settings of the agent

The agent has standard settings, and a configuration may override any of them.
-/

namespace SourceAudit.Agent

mutual

def override (cur : Option Value) : Value → Value
  | .record ovr =>
    match cur with
    | some (.record fs) => .record (overrideFields fs ovr)
    | _ => .record ovr
  | other => other

def overrideFields (fs : List (String × Value)) :
    List (String × Value) → List (String × Value)
  | [] => fs
  | (k, v) :: tl =>
    overrideFields (Value.setField k (override (Value.field? k fs) v) fs) tl

end

def standardSettings : List (String × Value) :=
  [("enabled", .bool false), ("provider", .text "openai"), ("model", .text "qwen-plus-latest"),
    ("api_key", .text ""), ("base_url", .text "https://aihubmix.com/v1"), ("timeout", .int 60),
    ("max_retries", .int 5), ("timeout_connect", .int 10), ("timeout_read", .int 60),
    ("timeout_write", .int 20), ("network_enabled", .bool false),
    ("evidence_required", .bool true), ("max_findings", .int 10), ("max_chars", .int 12000),
    ("max_file_chars", .int 4000), ("select_max_tokens", .int 256),
    ("analyze_max_tokens", .int 2048), ("max_execution_log_chars", .int 2000),
    ("max_dynamic_targets", .int 3), ("select_preview_lines", .int 120),
    ("prompt_select_path", .text "config/agent_prompt_select.txt"),
    ("prompt_select_inline", .text ""), ("prompt_analyze_path", .text "config/agent_prompt.txt"),
    ("prompt_analyze_inline", .text ""),
    ("redaction", .record [("enabled", .bool true), ("patterns", .list [])]),
    ("cache", .record [("enabled", .bool true), ("path", .text "data/agent_cache"),
      ("ttl_seconds", .int 86400)])]

def settingsOf (cfg : Value) : Outcome Value := do
  let ovr ← ((cfg.lookup? "agent").getD (.record [])).fields
  return .record (overrideFields standardSettings ovr)

def integerSetting (settings : Value) (k : String) (standard : Int) : Outcome Int := do
  (← settings.getD k (.int standard)).toInteger

end SourceAudit.Agent
