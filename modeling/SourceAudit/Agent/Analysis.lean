import SourceAudit.Agent.Payload
import SourceAudit.Agent.Selection
import SourceAudit.Agent.Targets
import SourceAudit.Agent.Threats
import SourceAudit.Project.Cache

/-!
# Analysis by the agent

The agent selects files and runs them, then asks a model about the project and what was seen.
-/

namespace SourceAudit.Agent

open Outside
open SourceAudit.Project (Cache.load Cache.save)

structure Report where
  threats : List ModelThreat := []
  summary : Value := .record []
  notes : Value

namespace Report

def skipped (reason : String) : Report :=
  { notes := .record [("skipped", .bool true), ("reason", .text reason)] }

def toValue (rep : Report) : Value :=
  .tuple [.list (rep.threats.map (·.toValue)), rep.summary, rep.notes]

end Report

def serviceKey (settings : Value) : Audit Value := do
  let stated ← Audit.ofOutcome (settings.get "api_key")
  if stated.truthy then return stated
  let env := (← get).script.environment
  let given (nm : String) : Value :=
    Value.ofText? ((env.find? fun e => e.1 == nm).map Prod.snd)
  return (given "AIHUBMIX_API_KEY").orElse (given "OPENAI_API_KEY")

def providerOf (settings key : Value) : Outcome Provider := do
  return { key
           address := ← settings.getD "base_url" (.text "")
           model := ← settings.getD "model" (.text "")
           timeout := .int (← integerSetting settings "timeout" 60)
           retries := .int (← integerSetting settings "max_retries" 5)
           connect := ← settings.get "timeout_connect"
           read := ← settings.get "timeout_read"
           write := ← settings.get "timeout_write" }

def entriesIn (es : List SourceEntry) (lang : String) : List SourceEntry :=
  es.filter fun e => e.isIn lang

def presentLanguages (es : List SourceEntry) : List String :=
  runnableLanguages.filter fun lang => !(entriesIn es lang).isEmpty

def selectAll (prov : Provider) (settings : Value) (es : List SourceEntry)
    (lim : Int) : Audit (List SourceEntry) := do
  let sels ← (presentLanguages es).mapM fun lang =>
    selectTargets prov settings (entriesIn es lang) lim lang
  return shareBudget lim.toNat sels

structure CacheOptions where
  enabled : Bool
  path : Value
  lifetime : Int

def cacheOptionsOf (settings : Value) : Outcome CacheOptions := do
  let cache := (← settings.getD "cache" (.record [])).orElse (.record [])
  return { enabled := (← cache.getD "enabled" (.bool false)).truthy
           path := ← cache.getD "path" (.text "data/agent_cache")
           lifetime := ← integerSetting cache "ttl_seconds" 0 }

def askModel (prov : Provider) (cache : CacheOptions) (k : String) (msgs bound : Value) :
    Audit Value := do
  let answer := readReply (← prov.chat msgs bound)
  if cache.enabled then Cache.save cache.path (.text k) answer
  return answer

def answerFor (prov : Provider) (settings pay : Value) : Audit (Value × String) := do
  let cache ← Audit.ofOutcome (cacheOptionsOf settings)
  let k ← Audit.ofOutcome (documentKey pay)
  let kept ←
    if cache.enabled then Cache.load cache.path (.text k) (.int cache.lifetime) else pure .null
  match kept with
  | .null =>
    let setting (nm : String) (standard : Value) : Audit Value :=
      Audit.ofOutcome (settings.getD nm standard)
    let msgs ← messages pay (← setting "prompt_analyze_path" (.text ""))
      (← setting "prompt_analyze_inline" (.text ""))
    let bound ← setting "analyze_max_tokens" .null
    match ← Audit.attempt (askModel prov cache k msgs bound) with
    | .ok answer => return (answer, "")
    | .error err => return (.record [], err.message)
  | answer => return (answer, "")

def findingsIn (answer : Value) : Value :=
  match answer with
  | .record fs => (Value.field? "findings" fs).getD (.list [])
  | .list fnds => .list fnds
  | _ => .list []

def fileLines (es : List SourceEntry) : FileLines :=
  (es.map fun e => (e.path, e.lines)).reverse

def observe (prov : Provider) (cfg settings : Value) (es : List SourceEntry) :
    Audit (List SourceEntry × Value) := do
  let general ← Audit.ofOutcome ((cfg.orElse (.record [])).getD "settings" (.record []))
  let enabled ← Audit.ofOutcome (general.getD "enable_dynamic_analysis" (.bool true))
  let lim ← Audit.ofOutcome (integerSetting settings "max_dynamic_targets" 3)
  if !enabled.truthy || lim ≤ 0 then return ([], nothingRun)
  let tgts ← selectAll prov settings es lim
  if tgts.isEmpty then return ([], nothingRun)
  return (tgts, (← runTargets tgts cfg settings).toValue)

def analyze (paths cfg : Value) : Audit Report := do
  let settings ← Audit.ofOutcome (settingsOf (cfg.orElse (.record [])))
  let flag (key : String) : Outcome Bool := do return (← settings.getD key (.bool false)).truthy
  if !(← Audit.ofOutcome (flag "enabled")) then return Report.skipped "agent_disabled"
  if !(← Audit.ofOutcome (flag "network_enabled")) then return Report.skipped "network_disabled"
  let key ← serviceKey settings
  if !key.truthy then return Report.skipped "missing_api_key"
  let prov ← Audit.ofOutcome (providerOf settings key)
  let es ← collectFiles (← Audit.ofOutcome paths.items)
  let (tgts, summary) ← observe prov cfg settings es
  let pay ← Audit.ofOutcome (projectPayload es summary settings)
  let (answer, problem) ← answerFor prov settings pay
  let required ← Audit.ofOutcome (settings.getD "evidence_required" (.bool true))
  let threats ← Audit.ofOutcome
    (threatsOf (findingsIn answer) (fileLines es) required.truthy)
  let notes := [("selected_dynamic_targets", Value.ofTexts (tgts.map (·.path))),
    ("files_count", .ofNat es.length)]
  let problemNote := if problem.isEmpty then [] else [("analysis_error", Value.text problem)]
  return { threats, summary, notes := .record (notes ++ problemNote) }

end SourceAudit.Agent
