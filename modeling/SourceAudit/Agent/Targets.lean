import SourceAudit.Agent.JavaProject
import SourceAudit.Agent.Settings
import SourceAudit.Monitor.Fuzz
import SourceAudit.Monitor.Memory
import SourceAudit.Monitor.ProcessRun

/-!
# Running targets

The selected files are run, each in the way of its language, and what was seen is gathered with the
name of the file it was seen in.
-/

namespace SourceAudit.Agent

open Outside

def truncate (text : Value) (lim : Int) : Outcome Value := do
  if !text.truthy then return .text ""
  if lim ≤ 0 then return text
  if Int.ofNat (← text.length) ≤ lim then return text
  match ← text.leading lim.toNat with
  | .text kept => return .text (kept ++ " [truncated]")
  | other => throw (.notOperable "+" other.kind .text)

def runGo (p : String) (lim : Value) : Audit Value := do
  if (← Audit.which "go").isNone then return Java.skipped "go_not_found"
  let dir := Path.directory (← Audit.absolute p)
  let cmd := ["go", "run", "."]
  let r ← Monitor.runSampled cmd (some dir) lim Monitor.usualInterval .null
  return ((r.set "command" (.text (" ".intercalate cmd))).set "cwd"
    (.text dir)).set "status" (.text "ran")

def libraryDirectories : Value :=
  Value.ofTexts ["lib", "libs", "target/dependency", "build/libs", "build/deps"]

def libraryDirectoriesOf (settings : Value) : Outcome Value := do
  match ← settings.getD "java_dependency_dirs" libraryDirectories with
  | .text c =>
    return Value.ofTexts
      (((Str.splitOn "," c).map Str.trim).filter fun part => !part.isEmpty)
  | other => return other

def fetchProblem (fetched : Value) : Outcome String := do
  if !(fetched.lookup "status").same (.text "dependency_failed") then return ""
  let problem := ((fetched.lookup "stderr").orElse (fetched.lookup "stdout")).orElse
    (.text "dependency_copy_failed")
  return (← truncate problem 2000).plain

def compileFailure (fs : List (String × Value)) (cmd : List String)
    (dir problem : String) : Value :=
  let r : Value := .record (fs ++ [("command", .text (" ".intercalate cmd)),
    ("cwd", .text dir), ("status", .text "compile_failed")])
  let reason := ((r.lookup "stderr").orElse (r.lookup "stdout")).orElse (.text "")
  let reason :=
    if problem.isEmpty then reason.plain
    else if reason.truthy then reason.plain ++ "\ndependency_resolution_failed: " ++ problem
    else problem
  if reason.isEmpty then r else r.set "reason" (.text reason)

def compileAndRun (root mainClass classPath tgt args problem : String)
    (lim compileLimit : Value) : Audit Value := do
  let cmd := ["javac", "@" ++ args]
  let fs ← Java.runCommand cmd root compileLimit
  let status := (Value.field? "return_code" fs).getD .null
  if !status.same (.int 0) then return compileFailure fs cmd root problem
  let runPath := if classPath.isEmpty then tgt else tgt ++ ":" ++ classPath
  let cmd := ["java", "-cp", runPath, mainClass]
  let r ← Monitor.runSampled cmd (some root) lim Monitor.usualInterval .null
  return ((r.set "command" (.text (" ".intercalate cmd))).set "cwd"
    (.text root)).set "status" (.text "ran")

def runJava (p : String) (lim settings : Value) : Audit Value := do
  if (← Audit.which "javac").isNone || (← Audit.which "java").isNone then
    return Java.skipped "java_not_found"
  let p ← Audit.absolute p
  let root ← Java.projectRoot p
  let mainClass ← Java.mainClass p
  if mainClass.isEmpty then return Java.skipped "no_main_class"
  let (srcs, _) ← Java.projectSources root
  let srcs := if srcs.isEmpty then [p] else srcs
  let fetchLimit ← Audit.ofOutcome (Monitor.atLeastNumber lim (.int 30))
  let compileLimit ← Audit.ofOutcome (Monitor.atLeastNumber lim (.int 10))
  let fetched ← Java.fetchLibraries root settings fetchLimit
  let problem ← Audit.ofOutcome (fetchProblem fetched)
  let dirs ← Audit.ofOutcome (libraryDirectoriesOf settings)
  let further ← Audit.ofOutcome (settings.get "java_extra_classpath")
  let classPath ← Java.classPath root dirs further
  let tgt ← Audit.temporaryDirectory "oss_guardian_java_"
  let args ← Java.writeArguments tgt classPath srcs
  let r ← Audit.attempt
    (compileAndRun root mainClass classPath tgt args problem lim compileLimit)
  Audit.removeTree args
  Audit.removeTree tgt
  Audit.ofOutcome r

structure TargetSummary where
  syscalls : List String := []
  network : List Value := []
  files : List Value := []
  memory : List Value := []
  fuzz : List Value := []
  logs : List Value := []

namespace TargetSummary

def toValue (sum : TargetSummary) : Value :=
  .record [("syscalls", Value.ofTexts sum.syscalls),
    ("network_activities", .list sum.network), ("file_activities", .list sum.files),
    ("memory_findings", .list sum.memory), ("fuzz_results", .list sum.fuzz),
    ("execution_log", .text ""), ("execution_logs", .list sum.logs)]

end TargetSummary

def nothingRun : Value :=
  .record [("syscalls", .list []), ("network_activities", .list []), ("file_activities", .list []),
    ("memory_findings", .list []), ("fuzz_results", .list []), ("execution_logs", .list [])]

def withSource (p : String) (fnd : Value) : Value :=
  match fnd with
  | .record fs =>
    match Value.field? "source_file" fs with
    | some _ => fnd
    | none => .record (fs ++ [("source_file", .text p)])
  | other => other

def runLog (p lang : String) (r : Value) (lim : Int) : Outcome Value := do
  return .record [("source_file", .text p), ("language", .text lang),
    ("command", ← r.getD "command" (.text "")), ("cwd", ← r.getD "cwd" (.text "")),
    ("status", ← r.getD "status" (.text "ran")), ("reason", ← r.getD "reason" (.text "")),
    ("return_code", ← r.getD "return_code" (.int (-1))),
    ("timed_out", ← r.getD "timed_out" (.bool false)),
    ("stdout", ← truncate (← r.getD "stdout" (.text "")) lim),
    ("stderr", ← truncate (← r.getD "stderr" (.text "")) lim),
    ("log_file", ← r.getD "log_file" (.text ""))]

def runPython (sum : TargetSummary) (p : String) (lim : Int) (mode : Value)
    (width : Int) : Audit TargetSummary := do
  let run ← Monitor.requestSandbox (.text p) (.list []) (.int lim) mode
  let log ← Audit.ofOutcome (Monitor.logOf run)
  let (network, files, memory) ←
    if log.truthy then do
      let network ← Monitor.analyzeNetwork log
      let files ← Monitor.analyzeFiles log
      let memory ← Monitor.analyzeMemory log
      pure (network.map (·.toValue), files.map (·.toValue), memory.map (·.toValue))
    else pure ([], [], [])
  let fuzz ← Monitor.fuzz (.text p) 3 (.int (min lim 2)) mode true
  let alerts := (← Audit.ofOutcome (Monitor.alertsOf run)).map fun alert => p ++ ": " ++ alert
  let run := (run.set "command" (.text ("python " ++ Path.name p))).set "cwd"
    (.text (Path.directory p))
  let run := if (run.lookup? "status").isSome then run else run.set "status" (.text "ran")
  let log ← Audit.ofOutcome (runLog p "python" run width)
  let from_ (fnds : List Value) : List Value := fnds.map (withSource p)
  return { syscalls := sum.syscalls ++ alerts, network := sum.network ++ from_ network
           files := sum.files ++ from_ files, memory := sum.memory ++ from_ memory
           fuzz := sum.fuzz ++ from_ fuzz, logs := sum.logs ++ [log] }

def addProcess (sum : TargetSummary) (p lang : String) (r : Value)
    (width : Int) : Outcome TargetSummary := do
  let listed (k : String) : Outcome (List Value) := do
    ((← r.getD k (.list [])).orElse (.list [])).items
  let syscalls := (← listed "syscalls").map fun e => p ++ ": " ++ e.plain
  let network := (← listed "network_activities").map (withSource p)
  let files := (← listed "file_activities").map (withSource p)
  let memory := (← listed "memory_findings").map (withSource p)
  let problem ← r.get "monitor_error"
  let r := if problem.truthy then r.set "reason" problem else r
  let log ← runLog p lang r width
  return { sum with
           syscalls := sum.syscalls ++ syscalls, network := sum.network ++ network
           files := sum.files ++ files, memory := sum.memory ++ memory
           logs := sum.logs ++ [log] }

structure RunOptions where
  settings : Value
  limit : Int
  mode : Value
  width : Int

def runTarget (opts : RunOptions) (sum : TargetSummary) (e : SourceEntry) :
    Audit TargetSummary := do
  if e.path.isEmpty then return sum
  match e.language with
  | some "python" => runPython sum e.path opts.limit opts.mode opts.width
  | some "go" =>
    let r ← runGo e.path (.int opts.limit)
    Audit.ofOutcome (addProcess sum e.path "go" r opts.width)
  | some "java" =>
    let r ← runJava e.path (.int opts.limit) opts.settings
    Audit.ofOutcome (addProcess sum e.path "java" r opts.width)
  | _ => return sum

def runTargets (es : List SourceEntry) (cfg settings : Value) : Audit TargetSummary := do
  let opts ← Audit.ofOutcome do
    let general ← (cfg.orElse (.record [])).getD "settings" (.record [])
    return ({ settings := general
              limit := ← integerSetting general "dynamic_timeout" 2
              mode := ← general.getD "dynamic_log_mode" (.text "queue")
              width := ← integerSetting settings "max_execution_log_chars" 2000 } : RunOptions)
  es.foldlM (runTarget opts) {}

end SourceAudit.Agent
