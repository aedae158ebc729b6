import SourceAudit.Monitor.Fuzz
import SourceAudit.Monitor.GoRun
import SourceAudit.Monitor.JavaRun
import SourceAudit.Monitor.Memory

/-!
# The dynamic pass

Everything that is found by running a file.
-/

namespace SourceAudit.Analysis

open Outside
open SourceAudit.Monitor (Signature)

structure DynamicOptions where
  enabled : Bool
  isolated : Bool
  limit : Value
  mode : Value
  interval : Value
  libraryDirectories : Value
  furtherLibraries : Value

def dynamicOff : Value :=
  .record [("syscalls", .list []), ("network_activities", .list []), ("file_activities", .list []),
    ("memory_findings", .list []), ("fuzz_results", .list []), ("execution_log", .text "")]

def runPython (opts : DynamicOptions) (p : String) : Audit Value := do
  let run ← Monitor.requestSandbox (.text p) (.list []) opts.limit opts.mode
  let log ← Audit.ofOutcome (Monitor.logOf run)
  let network ← if log.truthy then Monitor.analyzeNetwork log else pure []
  let files ← if log.truthy then Monitor.analyzeFiles log else pure []
  let memory ← if log.truthy then Monitor.analyzeMemory log else pure []
  let short ← Audit.ofOutcome ((Value.int 2).less "<" opts.limit)
  let fuzz ← Monitor.fuzz (.text p) 3 (if short then .int 2 else opts.limit) opts.mode true
  let alerts ← Audit.ofOutcome (Monitor.alertsOf run)
  let logFile ← Audit.ofOutcome (run.getD "log_file" (.text ""))
  let note := if opts.isolated then []
    else [("note", Value.text "Sandbox disabled; hooks enabled without isolation.")]
  return .record ([("syscalls", Value.ofTexts alerts),
    ("network_activities", .list (network.map (·.toValue))),
    ("file_activities", .list (files.map (·.toValue))),
    ("memory_findings", .list (memory.map (·.toValue))), ("fuzz_results", .list fuzz),
    ("execution_log", logFile), ("sandbox_result", run)] ++ note)

def dynamicPass (opts : DynamicOptions) (p lang : String) : Audit Value := do
  let common := [("file_path", Value.text p), ("args", .list []), ("timeout", opts.limit),
    ("sample_interval", opts.interval)]
  match lang with
  | "python" => runPython opts p
  | "go" => Monitor.Go.runDynamic (← Audit.ofOutcome (Monitor.Go.signature.bind [] common))
  | "java" =>
    let libraries := [("dependency_dirs", opts.libraryDirectories),
      ("extra_classpath", opts.furtherLibraries)]
    Monitor.Java.runDynamic
      (← Audit.ofOutcome (Monitor.Java.signature.bind [] (common ++ libraries)))
  | other =>
    return dynamicOff.set "note"
      (.text s!"Dynamic analysis not implemented for {other}")

end SourceAudit.Analysis
