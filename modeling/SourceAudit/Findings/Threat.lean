import SourceAudit.Findings.Aggregate
import SourceAudit.Pattern.Parser

/-!
# Threats

Findings become threats of a few kinds. Each kind has a rule that selects its evidence among the
aggregated findings; a kind without evidence is not reported.
-/

namespace SourceAudit.Findings

open SourceAudit.Pattern (Pattern)

structure Threat where
  kind : String
  severity : Severity
  description : String
  evidence : Value
  lines : List Value

namespace Threat

def toValue (th : Threat) : Value :=
  .record [("threat_type", .text th.kind), ("severity", .text th.severity.name),
    ("description", .text th.description), ("evidence", th.evidence),
    ("line_numbers", .list th.lines)]

end Threat

def distinct (vs : List Value) : List Value :=
  (vs.foldl (fun kept v => if v.among kept then kept else v :: kept) []).reverse

def positiveLines (ls : List Value) : Outcome (List Value) := do
  let positive ← ls.filterM fun ln => ln.greater (.int 0)
  Value.sorted (distinct positive)

def threatOf (kind : String) (severity : Severity) (description : String)
    (evidence : Value) (ls : List Value) : Outcome (List Threat) := do
  if evidence.truthy then
    return [{ kind, severity, description, evidence, lines := ← positiveLines ls }]
  else return []

def stackPlace : Pattern :=
  Pattern.ofText "([A-Za-z]:\\\\[^:]+|/[^:]+):(\\d+)"

def stackLines (t : String) : List Value :=
  (stackPlace.findAll t.toList).filterMap fun f =>
    (Value.readInteger (f.group 2)).map .int

abbrev Evidence := List Value × List Value

def Evidence.empty : Evidence := ([], [])

def ruleEvidence (w : String) : List Value → Outcome Evidence
  | [] => .ok Evidence.empty
  | f :: tl => do
    let rl ← f.getD "rule_id" (.text "")
    if ← rl.holdsWord w then
      let ln ← f.getD "line" (.int 0)
      let (ev, ls) ← ruleEvidence w tl
      return (f :: ev, ln :: ls)
    else ruleEvidence w tl

def executionMatches : List Value → Outcome Evidence
  | [] => .ok Evidence.empty
  | f :: tl => do
    let rl ← f.getD "rule_id" (.text "")
    let chosen ←
      if ← rl.holdsWord "rce_" then pure true
      else (← f.getD "matched_text" (.text "")).holdsWord "os.system"
    if chosen then
      let ln ← f.getD "line" (.int 0)
      let (ev, ls) ← executionMatches tl
      return (f :: ev, ln :: ls)
    else executionMatches tl

def executionFlows : List Value → Outcome Evidence
  | [] => .ok Evidence.empty
  | fl :: tl => do
    let sink ← fl.getD "sink" (.text "")
    let chosen ←
      if Str.startsWith "os.system" (← sink.asText "startswith") then pure true
      else sink.holdsWord "subprocess"
    if chosen then
      let ln ← fl.getD "sink_line" (.int 0)
      let (ev, ls) ← executionFlows tl
      return (fl :: ev, ln :: ls)
    else executionFlows tl

def startsProgram (t : String) : Bool :=
  Str.occurs "os.system" t || Str.occurs "subprocess" t

def executionCalls (syscalls : List Value) : Evidence :=
  let each := syscalls.map fun e =>
    match e with
    | .text log =>
      if startsProgram log then ([Value.record [("log_entry", e)]], stackLines log)
      else Evidence.empty
    | other =>
      if other.isRecord && startsProgram other.plain then ([other], []) else Evidence.empty
  (each.flatMap Prod.fst, each.flatMap Prod.snd)

def commandFlows : List Value → Outcome Evidence
  | [] => .ok Evidence.empty
  | fl :: tl => do
    let src ← (← fl.getD "source" (.text "")).asText "startswith"
    let chosen ←
      if Str.startsWith "sys.argv" src then do
        let sink ← (← fl.getD "sink" (.text "")).asText "startswith"
        pure (Str.startsWith "os.system" sink)
      else pure false
    if chosen then
      let ln ← fl.getD "sink_line" (.int 0)
      let (ev, ls) ← commandFlows tl
      return (fl :: ev, ln :: ls)
    else commandFlows tl

def activityLines (activity : Value) : Outcome (List Value) :=
  match activity.lookup? "line" with
  | none => .ok []
  | some (.text log) => .ok (stackLines log)
  | some (.bytes _) => .error (.mistyped "cannot use a string pattern on a bytes-like object")
  | some other => .error (.notSearchable other.kind)

def networkEvidence : List Value → Outcome Evidence
  | [] => .ok Evidence.empty
  | activity :: tl => do
    let own ← activityLines activity
    let (ev, ls) ← networkEvidence tl
    return (activity :: ev, own ++ ls)

def networkAlerts (syscalls : List Value) : Evidence :=
  let each := syscalls.map fun e =>
    match e with
    | .text log =>
      if Str.occurs "[ALERT] NETWORK:" log then
        ([Value.record [("line", e)]], stackLines log)
      else Evidence.empty
    | _ => Evidence.empty
  (each.flatMap Prod.fst, each.flatMap Prod.snd)

def ownLines : List Value → Outcome (List Value)
  | [] => .ok []
  | fnd :: tl => do
    let ls ← ((← fnd.getD "line_numbers" (.list [])).orElse (.list [])).items
    return ls ++ (← ownLines tl)

def anyMemoryInterface : List Value → Outcome Bool
  | [] => .ok false
  | fnd :: tl => do
    if (← fnd.get "type").same (.text "memory_api") then return true
    else anyMemoryInterface tl

structure Observations where
  patternMatches : Value
  taintFlows : Value
  networkActivities : Value
  syscalls : Value
  fuzzResults : Value
  fileActivities : Value
  memoryFindings : Value

def Observations.ofAggregated (agg : Value) : Outcome Observations := do
  let staticPart ← agg.getD "static" (.record [])
  let dynamicPart ← agg.getD "dynamic" (.record [])
  return {
    patternMatches := ← staticPart.getD "pattern_matches" (.list [])
    taintFlows := ← staticPart.getD "taint_flows" (.list [])
    networkActivities := ← dynamicPart.getD "network_activities" (.list [])
    syscalls := ← dynamicPart.getD "syscalls" (.list [])
    fuzzResults := ← dynamicPart.getD "fuzz_results" (.list [])
    fileActivities := ← dynamicPart.getD "file_activities" (.list [])
    memoryFindings := ← dynamicPart.getD "memory_findings" (.list []) }

namespace Observations

def remoteExecution (seen : Observations) : Outcome (List Threat) := do
  let (matchEvidence, matchLines) ← executionMatches (← seen.patternMatches.items)
  let (flowEvidence, flowLines) ← executionFlows (← seen.taintFlows.items)
  let (callEvidence, callLines) := executionCalls (← seen.syscalls.items)
  threatOf "RCE" .critical "Remote code execution detected via os.system/subprocess calls"
    (.list (matchEvidence ++ flowEvidence ++ callEvidence)) (matchLines ++ flowLines ++ callLines)

def commandInjection (seen : Observations) : Outcome (List Threat) := do
  let (ev, ls) ← commandFlows (← seen.taintFlows.items)
  threatOf "Command Injection" .critical
    ("Command injection detected: user input (sys.argv) flows to os.system without " ++
      "sanitization")
    (.list ev) ls

def byRule (seen : Observations) (w k : String) (sev : Severity)
    (desc : String) : Outcome (List Threat) := do
  let (ev, ls) ← ruleEvidence w (← seen.patternMatches.items)
  threatOf k sev desc (.list ev) ls

def networkExfiltration (seen : Observations) : Outcome (List Threat) := do
  let (ruleFound, ruleLines) ← ruleEvidence "network_" (← seen.patternMatches.items)
  let (activities, activityLines) ← networkEvidence (← seen.networkActivities.items)
  let (alerts, alertLines) ←
    if seen.networkActivities.truthy then pure Evidence.empty
    else do
      let es ← seen.syscalls.items
      pure (networkAlerts es)
  threatOf "Network Exfiltration" .medium
    "Network connection activity detected: potential data exfiltration"
    (.list (ruleFound ++ activities ++ alerts)) (ruleLines ++ activityLines ++ alertLines)

def sensitiveFiles (seen : Observations) : Outcome (List Threat) := do
  let ev ← (← seen.fileActivities.items).filterM fun activity =>
    return (← activity.get "is_sensitive").truthy
  if ev.isEmpty then return []
  threatOf "Sensitive File Access" .high "Sensitive file activity detected during execution"
    (.list ev) (← ownLines ev)

def crashes (seen : Observations) : Outcome (List Threat) := do
  let ev ← (← seen.fuzzResults.items).filterM fun r => do
    if (← r.getD "crashed" (.bool false)).truthy then
      return !(← r.getD "timed_out" (.bool false)).truthy
    else return false
  if ev.isEmpty then return []
  threatOf "Runtime Vulnerability" .medium
    "Runtime crashes detected during fuzzing (may indicate input validation issues)"
    (.list ev) (← ownLines ev)

def memoryInjection (seen : Observations) : Outcome (List Threat) := do
  if !seen.memoryFindings.truthy then return []
  let fnds ← seen.memoryFindings.items
  let isInterface ← anyMemoryInterface fnds
  threatOf "Memory Injection" (if isInterface then .high else .medium)
    "Runtime code execution or memory API usage detected"
    seen.memoryFindings (← ownLines fnds)

def threats (seen : Observations) : Outcome (List Threat) := do
  let execution ← seen.remoteExecution
  let injection ← seen.commandInjection
  let shells ← seen.byRule "webshell_" "WebShell" .critical
    "WebShell detected: usage of eval/exec/__import__/compile functions"
  let backdoors ← seen.byRule "backdoor_" "Backdoor" .high
    "Backdoor detected: hardcoded passwords, secret keys, or obfuscated code"
  let queries ← seen.byRule "sql_injection" "SQL Injection" .high
    "SQL injection vulnerability detected: unsafe string concatenation in SQL queries"
  let network ← seen.networkExfiltration
  let fileRisks ← seen.byRule "file_" "File Operation Risk" .medium
    "Risky file operations detected: path traversal or sensitive file access"
  let sensitive ← seen.sensitiveFiles
  let crashed ← seen.crashes
  let memory ← seen.memoryInjection
  return execution ++ injection ++ shells ++ backdoors ++ queries ++ network ++ fileRisks ++
    sensitive ++ crashed ++ memory

end Observations

def identify (agg : Value) : Outcome (List Threat) := do
  (← Observations.ofAggregated agg).threats

def mergeKey (th : Value) : Outcome Value := do
  let k ← th.get "threat_type"
  let file ← th.get "source_file"
  let ls ← ((← th.get "line_numbers").orElse (.list [])).items
  (Value.tuple [k, file, .tuple ls]).asKey

def appendNew (keyOf : Value → Outcome Value) (seen : List Value) :
    List Value → Outcome (List Value)
  | [] => .ok []
  | th :: tl => do
    let k ← keyOf th
    if k.among seen then appendNew keyOf seen tl
    else return th :: (← appendNew keyOf (k :: seen) tl)

def mergeBy (keyOf : Value → Outcome Value) (existing incoming : Value) :
    Outcome (List Value) := do
  let old ← (existing.orElse (.list [])).items
  let seen ← old.mapM keyOf
  let new ← (incoming.orElse (.list [])).items
  return old ++ (← appendNew keyOf seen new)

def merge (existing incoming : Value) : Outcome (List Value) :=
  mergeBy mergeKey existing incoming

end SourceAudit.Findings
