import SourceAudit.Monitor.Hooking
import SourceAudit.Monitor.Log
import SourceAudit.Outside.Process

/-!
# The sandbox

Running a Python program with hooks, in a worker of its own or by a generated script, and running
it without hooks.
-/

namespace SourceAudit.Monitor

open Outside

def interpreter : String := "/PY"

def applicationRoot : String := "/T/app"

def logDirectory : String := Path.joinAll applicationRoot ["data", "logs"]

structure Run where
  status : Value
  output : Value
  errors : Value
  seconds : Value
  timedOut : Value

namespace Run

def fields (run : Run) : List (String × Value) :=
  [("return_code", run.status), ("stdout", run.output), ("stderr", run.errors),
    ("execution_time", run.seconds)]

end Run

structure WorkerRun where
  result : Value
  log : List String
  arguments : List Value
  directory : String

def exitCode (code : Value) : Value :=
  match code with
  | .int _ | .bool _ => code
  | _ => .int 0

def effectOutcome (effect : Effect) : Outcome Value :=
  match effect.exit, effect.raised with
  | some _, _ => .ok .null
  | none, some (nm, msg) => .error (.outside nm msg)
  | none, none => .ok .null

def runWorker (stack p : String) (args : Value) : Audit WorkerRun := do
  let file ← Audit.absolute p
  let given ← Audit.ofOutcome (args.orElse (.list [])).asAppended
  let (hooking, installed) := (({} : Hooking)).install
  let dir := Path.directory file
  if ← Audit.isDirectory dir then
    modify fun s => { s with here := dir }
  -- Opening the program is a hooked call itself.
  let opened ← Audit.attempt (Audit.readBytes file)
  let opening := Hook.openFile.invoke stack (fun _ => true) [.text file, .text "r"]
    [("encoding", .text "utf-8")] (opened.map fun _ => .null)
  let src : Outcome String := do
    match Text.Utf8.decode (← opened) with
    | .ok t => .ok t
    | .error error => .error (.decoding error)
  let effect := ((← get).script.effect).getD {}
  let (status, output, errors, executed) : Value × String × String × List String :=
    match src with
    | .error fault => (.int (-1), "", s!"{fault.family.label}: {fault.message}\n", [])
    | .ok _ =>
      let execution := Hook.execute.invoke stack (fun _ => true) [.code file, .record []] []
        (effectOutcome effect)
      match effect.exit, execution.outcome with
      | some code, _ => (exitCode code, effect.output, "", execution.messages)
      | none, .ok _ => (.int 0, effect.output, "", execution.messages)
      | none, .error fault =>
        (.int (-1), effect.output, s!"{fault.family.label}: {fault.message}\n", execution.messages)
  let (_, uninstalled) := hooking.uninstall
  let run : Run :=
    { status, output := .text output, errors := .text errors
      seconds := .float (Double.ofNat 0), timedOut := .bool false }
  return {
    result := .record run.fields
    log := (installed ++ opening.messages ++ executed ++ uninstalled).map entry
    arguments := .text file :: given
    directory := (← get).here }

def runnerScript (tgt log : String) (args : Value) : String :=
  "#!/usr/bin/env python\n" ++
  "# -*- coding: utf-8 -*-\n" ++
  "# Auto-generated hook runner script\n" ++
  "\n" ++
  "import sys\n" ++
  "import os\n" ++
  "import traceback\n" ++
  "\n" ++
  "# Add engines directory to path\n" ++
  "sys.path.insert(0, r'" ++ applicationRoot ++ "')\n" ++
  "\n" ++
  "# Import and install hooks\n" ++
  "from engines.dynamic.syscall_monitor import install_hooks\n" ++
  "\n" ++
  "# Install hooks before importing target\n" ++
  "install_hooks(r'" ++ log ++ "')\n" ++
  "log_file = r'" ++ log ++ "'\n" ++
  "\n" ++
  "# Now run the target file\n" ++
  "target_file = r'" ++ tgt ++ "'\n" ++
  "sys.argv = [target_file] + " ++ args.quoted ++ "\n" ++
  "target_dir = os.path.dirname(target_file)\n" ++
  "if target_dir and os.path.isdir(target_dir):\n" ++
  "    sys.path.insert(0, target_dir)\n" ++
  "    os.chdir(target_dir)\n" ++
  "\n" ++
  "# Execute target file\n" ++
  "with open(target_file, 'r', encoding='utf-8') as f:\n" ++
  "    code = f.read()\n" ++
  "\n" ++
  "try:\n" ++
  "    exec(compile(code, target_file, 'exec'), \x7b'__name__': '__main__', " ++
    "'__file__': target_file\x7d)\n" ++
  "except Exception as exc:\n" ++
  "    try:\n" ++
  "        with open(log_file, 'a', encoding='utf-8') as f:\n" ++
  "            f.write(f\"[ERROR] Unhandled exception: \x7bexc\x7d\\n\")\n" ++
  "            traceback.print_exc(file=f)\n" ++
  "    except Exception:\n" ++
  "        pass\n" ++
  "    raise\n"

def writeRunner (tgt : String) (args : Value) (log : String) : Audit String := do
  let tgt ← Audit.absolute tgt
  let log ← Audit.absolute log
  let p ← Audit.temporaryFile "hook_runner_" ".py"
  Audit.writeText p (runnerScript tgt log args)
  return p

def timeoutText (limit : Value) : String :=
  s!"Execution timed out after {limit.plain} seconds"

def sandboxSignature : Signature :=
  { title := "run_in_sandbox"
    positional := [{ name := "file_path" }, { name := "args", fallback := some .null },
      { name := "timeout", fallback := some (.int 30) },
      { name := "log_file", fallback := some .null },
      { name := "log_mode", fallback := some (.text "queue") }] }

def directSignature : Signature :=
  { title := "run_direct"
    positional := [{ name := "file_path" }, { name := "args", fallback := some .null },
      { name := "timeout", fallback := some (.int 30) }] }

def runQueued (p args lim : Value) : Audit Value := do
  Audit.record (.record [("process", p), ("args", args.orElse (.list []))])
  Audit.record (.record [("join", lim)])
  let script := (← get).script
  let timedOut := script.workerAlive
  if timedOut then
    Audit.record (.text "terminate")
    Audit.record (.record [("join", .int 1)])
  let r := script.workerResult.getD (.record [])
  let errors := if timedOut then timeoutText lim else ""
  Audit.ofOutcome do
    let status ← r.getD "return_code" (.int (-1))
    let output ← r.getD "stdout" (.text "")
    let errors ← r.getD "stderr" (.text errors)
    let elapsed ← if timedOut then lim.toDouble else pure (Double.ofNat 0)
    let seconds ← r.getD "execution_time" (.float elapsed)
    let run : Run := { status, output, errors, seconds, timedOut := .bool timedOut }
    return .record (run.fields ++ [("log_file", .text ""), ("log_entries", .list script.workerLog),
      ("timed_out", run.timedOut)])

def logHead (path arguments limit : Value) : String :=
  s!"[INFO] Sandbox execution started at {Moment.current.full}\n" ++
    s!"[INFO] Target file: {path.plain}\n" ++
    s!"[INFO] Arguments: {arguments.plain}\n" ++
    s!"[INFO] Timeout: {limit.plain}s\n\n"

def readLog (p : String) : Audit (List Value) := do
  match ← Audit.attempt (Audit.readText p) with
  | .ok t => return (Str.readLines t).map .text
  | .error fault => return [.text s!"[ERROR] Failed to read log file: {fault.message}\n"]

def runLimited (cmd : List String) (dir : Option String) (lim : Value) :
    Audit (Except (Option String × Option String) Audit.Finished) := do
  match ← Audit.runCommand cmd dir lim with
  | .finished status output errors => return .ok { status, output, errors }
  | .timedOut output errors => return .error (output, errors)
  | .failed nm msg => throw (.outside nm msg)

def runLogged (p args lim log : Value) : Audit Value := do
  let log := match log with
    | .null => Path.join logDirectory s!"sandbox_{Moment.current.compactFull}.log"
    | other => other.plain
  Audit.makeDirectories (Path.directory log)
  Audit.writeText log (logHead p args lim)
  let runner ← writeRunner p.plain args log
  let started ← Audit.now
  let ended ← Audit.attempt (runLimited [interpreter, runner] none lim)
  let run : Outcome Run ← match ended with
    | .error err => pure (.error err)
    | .ok (.ok finished) => do
      pure (.ok { status := .int finished.status, output := .text finished.output
                  errors := .text finished.errors, seconds := ← Audit.since started
                  timedOut := .bool false })
    | .ok (.error _) =>
      pure (.ok { status := .int (-1), output := .text "", errors := .text (timeoutText lim)
                  seconds := lim, timedOut := .bool true })
  let es ← readLog log
  Audit.removeTree runner
  let run ← Audit.ofOutcome run
  return .record (run.fields ++ [("log_file", .text log), ("log_entries", .list es),
    ("timed_out", run.timedOut)])

def runInSandbox (given : Arguments) : Audit Value := do
  let v := given.value
  let args := match v "args" with
    | .null => .list []
    | other => other
  if (v "log_mode").same (.text "queue") then
    runQueued (v "file_path") args (v "timeout")
  else runLogged (v "file_path") args (v "timeout") (v "log_file")

def runDirect (given : Arguments) : Audit Value := do
  let lim := given.value "timeout"
  let args ← match given.value "args" with
    | .null => pure []
    | other => Audit.ofOutcome other.asAppended
  let file ← Audit.absolute (given.value "file_path").plain
  let started ← Audit.now
  let run : Run ←
    match ← runLimited (interpreter :: file :: args.map Value.plain)
        (some (Path.directory file)) lim with
    | .ok finished => do
      pure { status := .int finished.status, output := .text finished.output
             errors := .text finished.errors, seconds := ← Audit.since started
             timedOut := .bool false }
    | .error (output, errors) =>
      pure { status := .int (-1), output := .text (output.getD "")
             errors := (Audit.optionalText errors).orElse (.text (timeoutText lim))
             seconds := lim, timedOut := .bool true }
  return .record (run.fields ++ [("timed_out", run.timedOut)])

def nextRun (usual : List (String × Value)) : Audit Value := do
  let s ← get
  match s.script.sandbox with
  | [] => return .record usual
  | x :: tl =>
    set { s with script := { s.script with sandbox := tl } }
    match x.lookup? "raise" with
    | some msg => throw (.runtime msg.plain)
    | none =>
      match x with
      | .record fs =>
        return .record (fs.foldl (fun r (k, v) => Value.setField k v r) usual)
      | _ => return .record usual

def usualRun : List (String × Value) :=
  [("return_code", .int 0), ("stdout", .text ""), ("stderr", .text ""),
    ("execution_time", .float (Double.ofFloat 0.5))]

def requestSandbox (p args lim mode : Value) : Audit Value := do
  Audit.record (.record [("sandbox", p), ("args", args), ("timeout", lim), ("log_mode", mode)])
  nextRun (usualRun ++ [("log_file", .text ""), ("log_entries", .list []),
    ("timed_out", .bool false)])

def requestDirect (p args lim : Value) : Audit Value := do
  Audit.record (.record [("direct", p), ("args", args), ("timeout", lim)])
  nextRun (usualRun ++ [("timed_out", .bool false)])

end SourceAudit.Monitor
