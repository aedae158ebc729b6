import SourceAudit.Monitor.Sampling
import SourceAudit.Monitor.Sandbox

/-!
# Running Go programs

A Go program is built in its module, if it belongs to one, and then run and watched.
-/

namespace SourceAudit.Monitor.Go

open Outside

def signature : Signature :=
  { title := "run_go_dynamic"
    positional := [{ name := "file_path" }, { name := "args", fallback := some .null },
      { name := "timeout", fallback := some (.int 30) },
      { name := "sample_interval", fallback := some (.float (Double.ofFloat 0.1)) },
      { name := "project_root", fallback := some .null }] }

structure BuildPlan where
  target : String
  directory : String
deriving DecidableEq, Repr

def planBuild (p : String) (root : Value) : Audit BuildPlan := do
  let own := Path.directory p
  let root ← match root with
    | .text root => if root.isEmpty then resolve else pure root
    | _ => resolve
  if ← Audit.isDirectory root then
    if own.isEmpty then return { target := p, directory := own }
    let s ← get
    let inside := Path.relative s.here own root
    if Str.startsWith ".." inside then return { target := p, directory := own }
    else if inside == "." then return { target := ".", directory := root }
    else return { target := Path.join "." inside, directory := root }
  else return { target := p, directory := own }
where
  resolve : Audit String := do
    let start ← Audit.absolute (Path.directory p)
    Audit.nearestMarked start ["go.mod", "go.work"]

def build (given : Arguments) : Audit Preparation := do
  let p := (given.value "file_path").plain
  if !(← get).script.inspectable then
    return .stopped (.skipped "psutil is not installed; Go dynamic analysis skipped." [])
  match ← Audit.which "go" with
  | none | some "" =>
    return .stopped (.skipped "go toolchain not available; Go dynamic analysis skipped."
      [("go_result", .record [("go_path", .null)])])
  | some tool =>
    if !(← Audit.exists? p) then
      return .stopped (.skipped "Go file not found." [])
    Audit.makeDirectories logDirectory
    let log := Path.join logDirectory s!"go_dynamic_{Moment.current.compactFull}.log"
    let workspace ← Audit.temporaryDirectory "dir"
    let prog := Path.join workspace "go_target"
    let plan ← planBuild p (given.value "project_root")
    let built ← Audit.finish [tool, "build", "-o", prog, plan.target] (some plan.directory)
      .null
    if built.status ≠ 0 then
      let events := (buildEvents "go build" built).map stamped
      writeEvents log events
      return .stopped { events, log, further := [("go_result", .record [
          ("compile_stdout", .text built.output), ("compile_stderr", .text built.errors),
          ("compile_return_code", .int built.status), ("go_path", .text tool),
          ("source_path", .text p), ("build_target", .text plan.target),
          ("build_cwd", .text plan.directory)])] }
    let words ← Audit.ofOutcome (furtherWords 1 (given.value "args"))
    return .built {
      command := prog :: words, directory := plan.directory, log, workspace
      details := [("source_path", .text p), ("build_path", .text prog),
        ("go_path", .text tool), ("build_target", .text plan.target),
        ("build_cwd", .text plan.directory)] }

def runDynamic (given : Arguments) : Audit Value := do
  (← build given).run "go_result" (given.value "timeout") (given.value "sample_interval")

end SourceAudit.Monitor.Go
