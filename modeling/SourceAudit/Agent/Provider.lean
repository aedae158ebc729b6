import SourceAudit.Monitor.Signature
import SourceAudit.Outside.Session

/-!
# The chat service

A provider holds what is needed to reach the chat service. Every request is on record before it is
answered.
-/

namespace SourceAudit.Agent

open Outside
open SourceAudit.Monitor (Signature Arguments)

structure Provider where
  key : Value
  address : Value
  model : Value
  timeout : Value := .int 30
  retries : Value := .int 2
  connect : Value := .null
  read : Value := .null
  write : Value := .null

namespace Provider

def signature : Signature :=
  { title := "OpenAIProvider.__init__"
    positional := [{ name := "api_key" }, { name := "base_url" }, { name := "model" },
      { name := "timeout", fallback := some (.int 30) },
      { name := "max_retries", fallback := some (.int 2) },
      { name := "timeout_connect", fallback := some .null },
      { name := "timeout_read", fallback := some .null },
      { name := "timeout_write", fallback := some .null }] }

def ofArguments (given : Arguments) : Provider :=
  { key := given.value "api_key", address := given.value "base_url", model := given.value "model"
    timeout := given.value "timeout", retries := given.value "max_retries"
    connect := given.value "timeout_connect", read := given.value "timeout_read"
    write := given.value "timeout_write" }

def limits (prov : Provider) : Audit Value := do
  let total ← Audit.ofOutcome prov.timeout.toDouble
  let phases := [prov.connect, prov.read, prov.write]
  let separate := phases.any fun phase => !phase.same .null
  if separate && (← get).script.timeoutObjects then
    return .record [("timeout", .float total), ("connect", prov.connect),
      ("read", prov.read), ("write", prov.write)]
  return .float total

def temperature : Value := .float (Double.ofFloat 0.2)

def receive : Audit String := do
  let s ← get
  match s.script.replies with
  | [] => throw (.runtime "no scripted reply")
  | reply :: tl =>
    set { s with script := { s.script with replies := tl } }
    match reply with
    | .content v => return (v.orElse (.text "")).plain
    | .failed msg => throw (.runtime msg)
    | .nothing | .noChoices | .noMessage => return ""

def chat (prov : Provider) (msgs lim : Value) : Audit String := do
  if !(← get).script.chatLibrary then
    throw (.runtime "OpenAI SDK not available: import of openai halted; None in sys.modules")
  let limits ← prov.limits
  let bound := if lim.same .null then [] else [("max_tokens", lim)]
  Audit.record (.record [("chat", .record ([("model", prov.model), ("messages", msgs),
      ("temperature", temperature)] ++ bound)),
    ("client", .record [("api_key", prov.key), ("base_url", prov.address),
      ("timeout", limits), ("max_retries", prov.retries)])])
  receive

end Provider

end SourceAudit.Agent
