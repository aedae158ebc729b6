import SourceAudit.Source.Assignment
import SourceAudit.Source.Comments
import SourceAudit.Source.Reader
import SourceAudit.Pattern.Parser

/-!
# Taint by lines

Taint analysis of Go and Java, line by line. A line that mentions a source of outside data taints
the variables it assigns; so does a line whose new value mentions a tainted variable, which hands on
the origin of the first such variable.
-/

namespace SourceAudit.Source

open Outside
open SourceAudit.Pattern (Pattern)

structure SinkRule where
  pattern : Pattern
  id : String
  name : String
  severity : String

structure TaintRules where
  sources : List Pattern
  sinks : List SinkRule
  assignment? : List Char → Option Assignment

structure Origin where
  line : Nat
  code : List Char
deriving DecidableEq, Repr

abbrev Environment := List (List Char × Origin)

namespace Environment

def taint (env : Environment) (nm : List Char) (origin : Origin) : Environment :=
  match env with
  | [] => [(nm, origin)]
  | e :: tl =>
    if e.1 = nm then (nm, origin) :: tl else e :: taint tl nm origin

def origin? (env : Environment) (t : List Char) : Option Origin :=
  (env.find? fun e => Text.occursWhole e.1 t).map Prod.snd

def taintAll (env : Environment) (nms : List (List Char)) (origin : Origin) : Environment :=
  nms.foldl (fun env nm => env.taint nm origin) env

end Environment

structure LineFlow where
  origin : Origin
  sink : Origin
  carrier : List Char
  rule : SinkRule
  found : String

namespace LineFlow

def direct : List Char := "direct".toList

def isDirect (fl : LineFlow) : Bool :=
  fl.carrier == direct && fl.origin.line == fl.sink.line

def toValue (flow : LineFlow) : Value :=
  let desc :=
    if flow.isDirect then
      s!"Taint source on line {flow.origin.line} flows to sink on line {flow.sink.line}"
    else s!"Taint data from line {flow.origin.line} flows to sink at line {flow.sink.line}"
  .record [("source_line", .ofNat flow.origin.line),
    ("source_code", .text (String.ofList flow.origin.code)),
    ("sink_line", .ofNat flow.sink.line), ("sink_code", .text (String.ofList flow.sink.code)),
    ("rule_id", .text flow.rule.id), ("rule_name", .text flow.rule.name),
    ("severity", .text flow.rule.severity), ("line", .ofNat flow.sink.line),
    ("matched_text", .text flow.found), ("description", .text desc)]

end LineFlow

namespace TaintRules

def hasSource (rs : TaintRules) (ln : List Char) : Bool :=
  rs.sources.any fun pat => (pat.search? ln).isSome

def sink? (rs : TaintRules) (ln : List Char) : Option (SinkRule × String) :=
  rs.sinks.findSome? fun rl =>
    (rl.pattern.search? ln).map fun f => (rl, f.content)

def step (rs : TaintRules) (env : Environment) (pl : Origin) : Environment :=
  match rs.assignment? pl.code with
  | none => env
  | some asg =>
    if asg.targets.isEmpty then env
    else if rs.hasSource pl.code then env.taintAll asg.targets pl
    else
      match env.origin? asg.value with
      | some origin => env.taintAll asg.targets origin
      | none => env

def flowsAt (rs : TaintRules) (env : Environment) (pl : Origin) : List LineFlow :=
  match rs.sink? pl.code with
  | none => []
  | some (rule, found) =>
    let own : List LineFlow :=
      if rs.hasSource pl.code then
        [{ origin := pl, sink := pl, carrier := LineFlow.direct, rule, found }]
      else []
    let carried : List LineFlow :=
      (env.filter fun e => Text.occursWhole e.1 pl.code).map
        fun (nm, origin) => { origin, sink := pl, carrier := nm, rule, found }
    own ++ carried.filter fun flow => !flow.isDirect

def flowsFrom (rs : TaintRules) (env : Environment) (n : Nat) :
    List (List Char) → List LineFlow
  | [] => []
  | ln :: tl =>
    let pl : Origin := { line := n, code := Text.trim ln }
    if pl.code.isEmpty then flowsFrom rs env (n + 1) tl
    else
      let env := rs.step env pl
      rs.flowsAt env pl ++ flowsFrom rs env (n + 1) tl

def flows (rs : TaintRules) (src : List Char) : List LineFlow :=
  rs.flowsFrom [] 1 (stripLines (Text.splitNewline src))

end TaintRules

namespace Go

def taintRules : TaintRules :=
  { sources :=
      ["os\\.Args", "flag\\.String\\(", "flag\\.Int\\(", "flag\\.Bool\\(",
        "http\\.Request\\.FormValue\\(", "http\\.Request\\.PostFormValue\\(",
        "http\\.Request\\.Header\\.Get\\(", "c\\.Query\\(", "c\\.Param\\("].map Pattern.ofText
    sinks :=
      [{ pattern := Pattern.ofText "exec\\.CommandContext\\(", id := "go_rce_exec_command",
         name := "Go RCE - exec.CommandContext", severity := "critical" },
       { pattern := Pattern.ofText "exec\\.Command\\(", id := "go_rce_exec_command",
         name := "Go RCE - exec.Command", severity := "critical" },
       { pattern := Pattern.ofText "exec\\.Run\\(", id := "go_rce_exec_command",
         name := "Go RCE - exec.Run", severity := "critical" },
       { pattern := Pattern.ofText "(os|syscall)\\.Exec\\(", id := "go_os_exec",
         name := "Go RCE - os/exec Usage", severity := "critical" },
       { pattern := Pattern.ofText "sql\\.DB\\.(Query|Exec)\\(", id := "go_sql_injection",
         name := "Go SQL Injection - String Concatenation", severity := "high" },
       { pattern := Pattern.ofText "os\\.(OpenFile|Create|WriteFile)\\(", id := "go_file_write",
         name := "Go File Write Operation", severity := "medium" },
       { pattern := Pattern.ofText "net\\.Dial\\(", id := "go_network_dial",
         name := "Go Network - net.Dial()", severity := "medium" }]
    assignment? := assignment? }

def taintFlows (p : String) : Audit (List LineFlow) := do
  match ← Audit.attempt (readStrict "Go" p) with
  | .ok t => return taintRules.flows t.toList
  | .error _ => return []

end Go

namespace Java

def taintRules : TaintRules :=
  { sources :=
      ["System\\.in", "args\\s*\\[", "request\\.getParameter\\(", "request\\.getHeader\\(",
        "request\\.getQueryString\\(", "request\\.getCookies\\(",
        "session\\.getAttribute\\("].map Pattern.ofText
    sinks :=
      [{ pattern := Pattern.ofText "Runtime\\.getRuntime\\(\\)\\.exec\\(",
         id := "java_rce_runtime_exec", name := "Java RCE - Runtime.exec()",
         severity := "critical" },
       { pattern := Pattern.ofText "new\\s+ProcessBuilder\\(|ProcessBuilder\\(",
         id := "java_rce_processbuilder", name := "Java RCE - ProcessBuilder",
         severity := "critical" },
       { pattern := Pattern.ofText "(Statement|PreparedStatement)\\.execute(Query|Update|)\\(",
         id := "java_sql_injection", name := "Java SQL Injection - String Concatenation",
         severity := "high" },
       { pattern := Pattern.ofText "(FileWriter|FileOutputStream|PrintWriter)\\(",
         id := "java_file_operation", name := "Java File Operation", severity := "medium" },
       { pattern := Pattern.ofText "(Socket|URL|HttpURLConnection)\\s*\\(|\\.connect\\s*\\(",
         id := "java_network_connection", name := "Java Network Connection", severity := "medium" },
       { pattern := Pattern.ofText "(ObjectInputStream|readObject|readUnshared)\\s*\\(",
         id := "java_deserialization", name := "Java Deserialization Risk", severity := "high" }]
    assignment? := assignment? }

def taintFlows (p : String) : Audit (List LineFlow) := do
  match ← Audit.attempt (readStrict "Java" p) with
  | .ok t => return taintRules.flows t.toList
  | .error _ => return []

end Java

end SourceAudit.Source
