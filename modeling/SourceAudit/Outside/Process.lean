import SourceAudit.Outside.Session

/-!
# Watched processes

Starting a process and looking at it while it runs, as the script of the session has it.
-/

namespace SourceAudit.Outside.Audit

def processNumber : Int := 4242

def startProcess (cmd : List String) (dir : Option String) : Audit Unit := do
  record (.record [("popen", Value.ofTexts cmd), ("cwd", optionalText dir)])
  modify fun s =>
    { s with polled := 0, exitStatus := none, terminated := false }

def statusToCome (s : Session) : Int :=
  if s.terminated then -15 else s.script.target.status

def poll : Audit (Option Int) := do
  let s ← get
  if s.polled < s.script.target.polls then
    set { s with polled := s.polled + 1 }
    return none
  else
    let status := statusToCome s
    set { s with polled := s.polled + 1, exitStatus := some status }
    return some status

def pollsLeft : Audit Nat := do
  let s ← get
  return s.script.target.polls - s.polled

def terminate : Audit Unit := do
  record (.text "terminate")
  modify fun s => { s with terminated := true }

def kill : Audit Unit :=
  record (.text "kill")

def collect : Audit (String × String) := do
  let s ← get
  let tgt := s.script.target
  if tgt.unresponsive then throw (.timedOut [] (.int 2))
  set { s with exitStatus := some (statusToCome s) }
  return (tgt.output, tgt.errors)

def inspect : Audit Unit := do
  match (← get).script.target.vanished with
  | some msg => throw (.runtime msg)
  | none => return ()

def sample : Audit Sample := do
  let s ← get
  let samples := s.script.target.samples
  return (samples[min s.sleeps (samples.length - 1)]?).getD {}

end SourceAudit.Outside.Audit
