import SourceAudit.Monitor.Sampling
import SourceAudit.Monitor.Sandbox

/-!
# Running processes

Any command can be run as a process and sampled. At most a given number of samples is taken; the run
itself goes on until the process ends or its time is up.
-/

namespace SourceAudit.Monitor

open Outside

structure ProcessObservations where
  network : List NetworkActivity := []
  files : List FileActivity := []
  spawned : List Int := []
  events : List String := []
  maxResident : Int := 0
  maxVirtual : Int := 0
  error : String := ""

namespace ProcessObservations

def refuse (seen : ProcessObservations) (refusal : Refusal) : ProcessObservations :=
  match refusal with
  | .denied message =>
    if seen.error.isEmpty then { seen with error := s!"psutil_access_denied: {message}" }
    else seen
  | .failed _ => seen

def noteConnection (seen : ProcessObservations) (conn : Connection) : ProcessObservations :=
  match conn.far, conn.near with
  | some addr, _ => add "connect" addr
  | none, some addr => add "bind" addr
  | none, none => seen
where
  add (kind : String) (addr : Address) : ProcessObservations :=
    let target := addr.endpoint
    if seen.network.any fun activity => activity.kind == kind && activity.target == target then
      seen
    else
      { seen with
        network := seen.network ++ [{ kind, target, timestamp := Moment.current.milliseconds
                                      line := "", address := .text addr.pair.plain }] }

def noteFile (seen : ProcessObservations) (file : OpenFile) : ProcessObservations :=
  if file.path.isEmpty || seen.files.any fun activity => activity.path == file.path then seen
  else
    { seen with
      files := seen.files ++ [{ operation := "open", path := file.path, mode := ""
                                sensitive := isSensitive file.path, lines := [] }] }

def noteChild (seen : ProcessObservations) (child : Int × Snapshot) : ProcessObservations :=
  if seen.spawned.contains child.1 then seen
  else
    let program := match child.2.program with
      | .ok program => program
      | .error _ => ""
    { seen with
      spawned := seen.spawned ++ [child.1]
      events := seen.events ++ [s!"process_spawn: pid={child.1} exe={program}"] }

def noteAll {α : Type} (note : ProcessObservations → α → ProcessObservations)
    (seen : ProcessObservations) (obs : Observed (List α)) : ProcessObservations :=
  match obs with
  | .ok xs => xs.foldl note seen
  | .error refusal => seen.refuse refusal

def noteMemory (seen : ProcessObservations) (memory : Observed (Int × Int)) : ProcessObservations :=
  match memory with
  | .ok (resident, virtual) =>
    { seen with
      maxResident := max seen.maxResident resident
      maxVirtual := max seen.maxVirtual virtual }
  | .error refusal => seen.refuse refusal

def noteSample (seen : ProcessObservations) (sample : Sample) : ProcessObservations :=
  let seen := noteAll noteConnection seen sample.connections
  let seen := noteAll noteFile seen sample.files
  noteAll noteChild (seen.noteMemory sample.resident) sample.children

def memoryFindings (seen : ProcessObservations) : List MemoryFinding :=
  if seen.maxResident ≠ 0 ∨ seen.maxVirtual ≠ 0 then
    [{ kind := "memory_usage"
       detail := s!"rss={seen.maxResident} bytes, vms={seen.maxVirtual} bytes", lines := [] }]
  else []

end ProcessObservations

def atLeastNumber (v n : Value) : Outcome Value := do
  if ← n.greater v then return n else return v

def sampleBudget (lim iv : Value) : Outcome Int := do
  let lim ← (← atLeastNumber lim (.int 1)).toDouble
  let iv ← (← atLeastNumber iv (.float (Double.ofFloat 0.1))).toDouble
  let n ← Value.toInteger (.float (Double.ofFloat (lim.toFloat / iv.toFloat)))
  return max 1 (n + 1)

def watchProcess (started : Double) (lim iv : Value) (visible : Bool) :
    (rem : Nat) → (budget : Nat) → ProcessObservations → Audit (ProcessObservations × Bool)
  | rem, budget, seen => do
    match ← Audit.poll with
    | some _ => return (seen, false)
    | none =>
      match rem with
      | 0 => return (seen, false)
      | rem + 1 =>
        if ← isOverdue started lim then return (seen, true)
        let sample ← Audit.sample
        let seen := if visible && budget > 0 then seen.noteSample sample else seen
        Audit.sleep iv
        watchProcess started lim iv visible rem (budget - 1) seen

def processResult (run : Run) (seen : ProcessObservations) (error : String) : Value :=
  .record (run.fields ++ [("timed_out", run.timedOut),
    ("network_activities", .list (seen.network.map (·.toValue))),
    ("file_activities", .list (seen.files.map (·.toValue))),
    ("memory_findings", .list (seen.memoryFindings.map (·.toValue))),
    ("syscalls", Value.ofTexts seen.events), ("monitor_error", .text error)])

def inspectionMissing : String :=
  "psutil_not_installed: import of psutil halted; None in sys.modules"

def sampleCount (lim iv samples : Value) : Outcome Int :=
  match samples with
  | .int n => .ok n
  | _ => sampleBudget lim iv

def runWaiting (cmd : List String) (dir : Option String) (lim : Value)
    (started : Double) : Audit Value := do
  let finished ← Audit.finish cmd dir lim
  let run : Run :=
    { status := .int finished.status, output := .text finished.output
      errors := .text finished.errors, seconds := ← Audit.since started, timedOut := .bool false }
  return processResult run {} inspectionMissing

def concludeRun (started : Double) (seen : ProcessObservations) (timedOut : Bool) :
    Audit Value := do
  let (output, errors) ← Audit.orElse Audit.collect fun _ => return ("", "")
  let run : Run :=
    { status := .int (((← get).exitStatus).getD (-1)), output := .text output
      errors := .text errors, seconds := ← Audit.since started, timedOut := .bool timedOut }
  return processResult run seen seen.error

def followProcess (lim iv : Value) (started : Double) (n : Int) (visible : Bool)
    (error : String) : Audit Value := do
  let (seen, timedOut) ← watchProcess started lim iv visible (← Audit.pollsLeft)
    n.toNat { error }
  if timedOut then
    if (← Audit.poll).isNone then Audit.terminate
  concludeRun started seen timedOut

def runLooking (cmd : List String) (dir : Option String) (lim iv : Value)
    (started : Double) (n : Int) : Audit Value := do
  Audit.startProcess cmd dir
  match ← Audit.attempt Audit.inspect with
  | .ok _ => followProcess lim iv started n true ""
  | .error fault =>
    followProcess lim iv started n false s!"psutil_process_error: {fault.message}"

def runSampled (cmd : List String) (dir : Option String) (lim iv samples : Value) :
    Audit Value := do
  let started ← Audit.now
  let n ← Audit.ofOutcome (sampleCount lim iv samples)
  if (← get).script.inspectable then runLooking cmd dir lim iv started n
  else runWaiting cmd dir lim started

def usualInterval : Value := .float (Double.ofFloat 0.2)

def processSignature : Signature :=
  { title := "run_process_with_monitor"
    positional := [{ name := "command" }, { name := "cwd" }, { name := "timeout" },
      { name := "poll_interval", fallback := some usualInterval },
      { name := "max_samples", fallback := some .null }] }

end SourceAudit.Monitor
