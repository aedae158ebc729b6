import SourceAudit.Monitor.FileActivity

/-!
# Memory findings

Signs that a monitored run injected code: it executed text as code, or used memory directly.
-/

namespace SourceAudit.Monitor

open Outside

structure MemoryFinding where
  kind : String
  detail : String
  lines : List Int
deriving DecidableEq, Repr

namespace MemoryFinding

def toValue (fnd : MemoryFinding) : Value :=
  .record [("type", .text fnd.kind), ("detail", .text fnd.detail),
    ("line_numbers", Value.ofInts fnd.lines)]

end MemoryFinding

def codeMark : String := "[ALERT] CODE_EXEC:"

def memoryMark : String := "[ALERT] MEMORY:"

def memoryFindings : List Value → List MemoryFinding
  | [] => []
  | ln :: tl =>
    match ln.holdsWord codeMark, ln.holdsWord memoryMark with
    | .ok code, .ok memory =>
      if code || memory then
        match ln with
        | .text c =>
          { kind := if memory then "memory_api" else "code_exec"
            detail := Str.trim c, lines := frameLines c } ::
            memoryFindings tl
        | _ => []
      else memoryFindings tl
    | _, _ => []

def analyzeMemory (src : Value) : Audit (List MemoryFinding) :=
  return memoryFindings (← logLines src)

end SourceAudit.Monitor
