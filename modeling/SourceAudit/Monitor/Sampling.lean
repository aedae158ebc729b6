import SourceAudit.Monitor.Memory
import SourceAudit.Monitor.Network
import SourceAudit.Outside.Process

/-!
# Sampling a process

While a built program runs, the watcher looks again and again at its memory, and at the open files
and connections of the process and of the processes it started.
-/

namespace SourceAudit.Monitor

open Outside

def systemPaths : List String :=
  ["\\windows\\system32", "\\windows\\syswow64", "\\users\\", "/etc/", "/var/", "/root/",
    "/home/", "/usr/"]

def isSystemPath (p : String) : Bool :=
  let p := Str.lower p
  systemPaths.any fun marker => Str.occurs marker p

def isSystemValue (p : Value) : Outcome Bool := do
  if p.truthy then return isSystemPath (← p.lower) else return false

def endpointText (addr : Option Address) : String :=
  match addr with
  | some addr => addr.endpoint
  | none => ""

def addressValueText (addr : Value) : String :=
  if addr.truthy then
    match addr with
    | .tuple (host :: port :: _) => host.plain ++ ":" ++ port.plain
    | other => other.plain
  else ""

structure Observations where
  seenFiles : List (Int × String × String) := []
  seenConnections : List (Int × String × String × String) := []
  files : List FileActivity := []
  network : List NetworkActivity := []
  events : List String := []
  peakResident : Int := 0
  peakVirtual : Int := 0

namespace Observations

def noteMemory (seen : Observations) (memory : Observed (Int × Int)) : Observations :=
  match memory with
  | .ok (resident, virtual) =>
    { seen with
      peakResident := max seen.peakResident resident
      peakVirtual := max seen.peakVirtual virtual }
  | .error _ => seen

def processLabel (number : Int) (name : Observed String) : String :=
  let label := match name with
    | .ok "" => s!"pid={number}"
    | .ok name => s!"pid={number} name={name}"
    | .error _ => s!"pid={number}"
  if number = Audit.processNumber then label else "child " ++ label

def noteFile (n : Int) (label : String) (seen : Observations) (file : OpenFile) : Observations :=
  let k := (n, file.path, file.mode)
  if seen.seenFiles.contains k then seen
  else
    { seen with
      seenFiles := seen.seenFiles ++ [k]
      files := seen.files ++ [{ operation := "open", path := file.path, mode := file.mode,
                                sensitive := isSystemPath file.path, lines := [] }]
      events := seen.events ++ [s!"file_open: {label} path={file.path} mode={file.mode}"] }

def noteConnection (n : Int) (label : String) (seen : Observations)
    (conn : Connection) : Observations :=
  let near := endpointText conn.near
  let far := endpointText conn.far
  let k := (n, near, far, conn.status)
  if seen.seenConnections.contains k then seen
  else
    let (kind, target) := if far.isEmpty then ("bind", near) else ("connect", far)
    { seen with
      seenConnections := seen.seenConnections ++ [k]
      network := seen.network ++ [{ kind, target, timestamp := Moment.current.iso
                                    line := s!"NETWORK {kind} {target}"
                                    address := .record [("laddr", .text near),
                                      ("raddr", .text far), ("status", .text conn.status)] }]
      events := seen.events ++ [s!"socket_{kind}: {label} target={target}"] }

def noteProcess (seen : Observations) (process : Int × Snapshot) : Observations :=
  let (n, snapshot) := process
  let label := processLabel n snapshot.name
  let seen := (snapshot.files.toOption.getD []).foldl (noteFile n label) seen
  (snapshot.connections.toOption.getD []).foldl (noteConnection n label) seen

def noteSample (seen : Observations) (sample : Sample) : Observations :=
  let seen := seen.noteMemory sample.resident
  ((Audit.processNumber, sample.toSnapshot) :: sample.children.toOption.getD []).foldl
    noteProcess seen

def memoryFindings (seen : Observations) : List MemoryFinding :=
  if seen.peakResident ≠ 0 ∨ seen.peakVirtual ≠ 0 then
    [{ kind := "memory_usage"
       detail := s!"peak_rss={seen.peakResident} bytes, peak_vms={seen.peakVirtual} bytes"
       lines := [] }]
  else []

end Observations

def isOverdue (started : Double) (lim : Value) : Audit Bool := do
  Audit.ofOutcome ((← Audit.since started).greater lim)

def watch (started : Double) (lim iv : Value) :
    (rem : Nat) → Observations → Audit (Observations × Bool)
  | rem, seen => do
    match ← Audit.poll with
    | some _ => return (seen, false)
    | none =>
      match rem with
      | 0 => return (seen, false)
      | rem + 1 =>
        if ← isOverdue started lim then
          Audit.terminate
          return (seen, true)
        let seen := seen.noteSample (← Audit.sample)
        Audit.sleep iv
        watch started lim iv rem seen

structure WatchedRun where
  status : Option Int
  output : String
  errors : String
  timedOut : Bool
  seen : Observations

namespace WatchedRun

def events (run : WatchedRun) (cmd : List String) : List String :=
  let status := match run.status with
    | some status => toString status
    | none => "None"
  let timedOut := if run.timedOut then "True" else "False"
  ["process_start: cmd=" ++ " ".intercalate cmd] ++ run.seen.events ++
    [s!"process_exit: return_code={status} timed_out={timedOut}"]

def statusValue (run : WatchedRun) : Value :=
  match run.status with
  | some status => .int status
  | none => .null

end WatchedRun

def runWatched (cmd : List String) (dir : String) (lim iv : Value) :
    Audit WatchedRun := do
  Audit.startProcess cmd (some dir)
  Audit.inspect
  let started ← Audit.now
  let (seen, timedOut) ← watch started lim iv (← Audit.pollsLeft) {}
  let (output, errors) ← Audit.orElse Audit.collect fun _ => return ("", "")
  if timedOut then Audit.kill
  return { status := (← get).exitStatus, output, errors, timedOut, seen }

structure DynamicReport where
  events : List String := []
  network : List Value := []
  files : List Value := []
  memory : List Value := []
  fuzz : List Value := []
  log : String := ""
  further : List (String × Value) := []

namespace DynamicReport

def toValue (rep : DynamicReport) : Value :=
  .record ([("syscalls", Value.ofTexts rep.events), ("network_activities", .list rep.network),
    ("file_activities", .list rep.files), ("memory_findings", .list rep.memory),
    ("fuzz_results", .list rep.fuzz), ("execution_log", .text rep.log)] ++ rep.further)

def skipped (note : String) (further : List (String × Value)) : DynamicReport :=
  { further := ("note", .text note) :: further }

end DynamicReport

def stamped (event : String) : String :=
  s!"[{Moment.current.seconds}] {event}"

def outputEvents (title t : String) : List String :=
  (((Str.splitLines t).filter fun line => !Str.isBlank line).take 6).map fun line =>
    s!"{title}: {line}"

def buildEvents (tool : String) (finished : Audit.Finished) : List String :=
  s!"compile_failed: {tool} returned non-zero" ::
    outputEvents "compile_stderr" finished.errors ++ outputEvents "compile_stdout" finished.output

def writeEvents (log : String) (events : List String) : Audit Unit := do
  let _ ← Audit.attempt (Audit.appendText log (String.join (events.map (· ++ "\n"))))

def WatchedRun.report (run : WatchedRun) (cmd : List String) (log : String)
    (further : List (String × Value)) : DynamicReport :=
  { events := (run.events cmd).map stamped
    network := run.seen.network.map (·.toValue)
    files := run.seen.files.map (·.toValue)
    memory := run.seen.memoryFindings.map (·.toValue)
    log, further }

structure BuiltProgram where
  command : List String
  directory : String
  log : String
  workspace : String
  details : List (String × Value)

inductive Preparation where
  | stopped (rep : DynamicReport)
  | built (prog : BuiltProgram)

def furtherWords (own : Nat) (args : Value) : Outcome (List String) := do
  let xs ← match args with
    | .null => .ok []
    | other => other.asAppended
  xs.zipIdx.mapM fun (x, pos) =>
    match x with
    | .text w => .ok w
    | other => .error (.notText (own + pos) other.kind)

def BuiltProgram.run (prog : BuiltProgram) (title : String) (lim iv : Value) :
    Audit Value := do
  let run ← runWatched prog.command prog.directory lim iv
  Audit.removeTree prog.workspace
  let rep := run.report prog.command prog.log [(title, .record ([
    ("return_code", run.statusValue), ("stdout", .text run.output), ("stderr", .text run.errors),
    ("timed_out", .bool run.timedOut), ("command", Value.ofTexts prog.command)] ++ prog.details))]
  writeEvents prog.log rep.events
  return rep.toValue

def Preparation.run (preparation : Preparation) (title : String) (lim iv : Value) : Audit Value :=
  match preparation with
  | .stopped rep => return rep.toValue
  | .built prog => prog.run title lim iv

end SourceAudit.Monitor
