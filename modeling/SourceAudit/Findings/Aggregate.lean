import SourceAudit.Findings.Risk

/-!
# Aggregation

Static and dynamic results side by side, with a summary that counts every finding by severity.
-/

namespace SourceAudit.Findings

structure Results where
  patternMatches : Value
  taintFlows : Value
  cfgStructures : Value
  syntaxValid : Value
  symbols : Value
  advisories : Value
  syscalls : Value
  networkActivities : Value
  fuzzResults : Value
  fileActivities : Value
  memoryFindings : Value
  executionLog : Value

def nothingObserved : Value :=
  .record [("syscalls", .list []), ("network_activities", .list []), ("fuzz_results", .list []),
    ("file_activities", .list []), ("memory_findings", .list []), ("execution_log", .text "")]

def Results.ofValues (staticPart dynamicPart : Value) : Outcome Results := do
  let obs := if dynamicPart.kind == .null then nothingObserved else dynamicPart
  return {
    patternMatches := ← staticPart.getD "pattern_matches" (.list [])
    taintFlows := ← staticPart.getD "taint_flows" (.list [])
    cfgStructures := ← staticPart.getD "cfg_structures" (.list [])
    syntaxValid := ← staticPart.getD "syntax_valid" (.bool true)
    symbols := ← staticPart.getD "symbols" (.record [])
    advisories := ← staticPart.getD "cve_matches" (.list [])
    syscalls := ← obs.getD "syscalls" (.list [])
    networkActivities := ← obs.getD "network_activities" (.list [])
    fuzzResults := ← obs.getD "fuzz_results" (.list [])
    fileActivities := ← obs.getD "file_activities" (.list [])
    memoryFindings := ← obs.getD "memory_findings" (.list [])
    executionLog := ← obs.getD "execution_log" (.text "") }

def syscallSeverity (e : Value) : Option Severity :=
  let t := e.plain
  if Str.occurs "os.system" t || Str.occurs "subprocess" t then some .critical
  else if Str.occurs "socket" t then some .medium
  else none

def countSyscalls (counts : Breakdown) (es : List Value) : Breakdown :=
  es.foldl
    (fun counts e =>
      match syscallSeverity e with
      | some sev => counts.add sev 1
      | none => counts)
    counts

def countFiles (counts : Breakdown) : List Value → Outcome Breakdown
  | [] => .ok counts
  | activity :: tl => do
    let sensitive := (← activity.get "is_sensitive").truthy
    countFiles (counts.add (if sensitive then .high else .low) 1) tl

def countMemoryInterfaces : List Value → Outcome Nat
  | [] => .ok 0
  | fnd :: tl => do
    let isInterface := (← fnd.get "type").same (.text "memory_api")
    let others ← countMemoryInterfaces tl
    return others + if isInterface then 1 else 0

def countCrashes (counts : Breakdown) : List Value → Outcome Breakdown
  | [] => .ok counts
  | r :: tl => do
    let crashed := (← r.getD "crashed" (.bool false)).truthy
    countCrashes (if crashed then counts.add .medium 1 else counts) tl

namespace Results

def breakdown (res : Results) : Outcome Breakdown := do
  let counts ← countStated {} (← res.patternMatches.items)
  let counts := counts.add .critical (← res.taintFlows.length)
  let counts := countSyscalls counts (← res.syscalls.items)
  let counts := counts.add .medium (← res.networkActivities.length)
  let counts ← countFiles counts (← res.fileActivities.items)
  let interfaces ← countMemoryInterfaces (← res.memoryFindings.items)
  let fnds ← res.memoryFindings.length
  let counts := (counts.add .high interfaces).add .medium (Int.ofNat fnds - interfaces)
  countCrashes counts (← res.fuzzResults.items)

def staticValue (res : Results) : Value :=
  .record [("pattern_matches", res.patternMatches), ("taint_flows", res.taintFlows),
    ("cfg_structures", res.cfgStructures), ("syntax_valid", res.syntaxValid),
    ("symbols", res.symbols), ("cve_data", res.advisories)]

def dynamicValue (res : Results) : Value :=
  .record [("syscalls", res.syscalls), ("network_activities", res.networkActivities),
    ("fuzz_results", res.fuzzResults), ("file_activities", res.fileActivities),
    ("memory_findings", res.memoryFindings), ("execution_log", res.executionLog)]

end Results

def summaryValue (counts : Breakdown) : Value :=
  .record [("total_threats", .int counts.total), ("critical_count", .int counts.critical),
    ("high_count", .int counts.high), ("medium_count", .int counts.medium),
    ("low_count", .int counts.low)]

def aggregate (staticPart dynamicPart : Value) : Outcome Value := do
  let res ← Results.ofValues staticPart dynamicPart
  let counts ← res.breakdown
  return .record [("static", res.staticValue), ("dynamic", res.dynamicValue),
    ("summary", summaryValue counts)]

end SourceAudit.Findings
