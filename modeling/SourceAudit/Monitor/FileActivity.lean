import SourceAudit.Monitor.Log
import SourceAudit.Pattern.Parser

/-!
# File activity

Files that a monitored run opened or removed. Some files are sensitive by their names: those of
accounts, keys and credentials.
-/

namespace SourceAudit.Monitor

open Outside
open SourceAudit.Pattern (Pattern)

def sensitiveNames : List String :=
  ["/etc/passwd", "/etc/shadow", ".env", ".git/config", "config.json", "secrets.json",
    "credentials.json", "private_key", "id_rsa", "id_dsa"]

def isSensitive (p : String) : Bool :=
  sensitiveNames.any fun nm => Str.occurs nm p

def isSensitiveValue (p : Value) : Outcome Bool :=
  sensitiveNames.anyM fun nm => p.holdsWord nm

structure FileActivity where
  operation : String
  path : String
  mode : String
  sensitive : Bool
  lines : List Int
deriving DecidableEq, Repr

namespace FileActivity

def toValue (activity : FileActivity) : Value :=
  .record [("operation", .text activity.operation), ("file_path", .text activity.path),
    ("mode", .text activity.mode), ("is_sensitive", .bool activity.sensitive),
    ("line_numbers", Value.ofInts activity.lines)]

end FileActivity

def framePattern : Pattern :=
  Pattern.ofText "([A-Za-z]:\\\\\\\\[^:]+|/[^:]+):(\\\\d+)"

def frameLines (ln : String) : List Int :=
  if Str.occurs "stack=" ln then
    (framePattern.findAll ln.toList).filterMap fun frame => Value.readInteger (frame.group 2)
  else []

def modeMark : String := "(mode:"

def reportedPath (tl : String) : String :=
  match Str.cut? modeMark tl with
  | some (p, _) => Str.trim p
  | none => Str.trim tl

def reportedMode (rep : String) : String :=
  match Str.splitOn modeMark rep with
  | _ :: mode :: _ => Str.trim ((Str.splitOn ")" mode).headD "")
  | _ => ""

def fileActivity? (ln : String) : Option FileActivity :=
  match Str.splitOn "FILE" (Str.trim ln) with
  | [_, rep] =>
    let rep := Str.trim rep
    match Str.cut? ":" rep with
    | none => none
    | some (op, tl) =>
      some { operation := Str.lower (Str.trim op), path := reportedPath tl
             mode := reportedMode rep, sensitive := Str.occurs "[ALERT]" ln
             lines := frameLines ln }
  | _ => none

def fileActivities : List Value → List FileActivity
  | [] => []
  | ln :: tl =>
    match ln.holdsWord "FILE" with
    | .error _ => []
    | .ok false => fileActivities tl
    | .ok true =>
      match ln with
      | .text c => (fileActivity? c).toList ++ fileActivities tl
      | _ => []

def analyzeFiles (src : Value) : Audit (List FileActivity) :=
  return fileActivities (← logLines src)

structure FileOperation where
  timestamp : String
  operation : Value
  path : Value
  mode : Value
  sensitive : Bool

namespace FileOperation

def toValue (op : FileOperation) : Value :=
  .record [("timestamp", .text op.timestamp), ("operation", op.operation),
    ("file_path", op.path), ("mode", op.mode), ("is_sensitive", .bool op.sensitive)]

def line (operation : FileOperation) : Outcome String := do
  let level := if operation.sensitive then "[ALERT]" else "[INFO]"
  let title ← operation.operation.upper
  return s!"[{operation.timestamp}] {level} FILE {title}: {operation.path.plain} " ++
    s!"(mode: {operation.mode.plain})\n"

end FileOperation

structure FileRecorder where
  log : Option String
  operations : List FileOperation := []

namespace FileRecorder

def record (recorder : FileRecorder) (operation path mode : Value) :
    Audit (FileRecorder × FileOperation) := do
  let sensitive ← Audit.ofOutcome (isSensitiveValue path)
  let e : FileOperation :=
    { timestamp := Moment.current.milliseconds, operation, path, mode, sensitive }
  match recorder.log with
  | some log =>
    let _ ← Audit.attempt do
      Audit.appendText log ""
      Audit.appendText log (← Audit.ofOutcome e.line)
  | none => pure ()
  return ({ recorder with operations := recorder.operations ++ [e] }, e)

def sensitiveOnly (recorder : FileRecorder) : List FileOperation :=
  recorder.operations.filter (·.sensitive)

end FileRecorder

end SourceAudit.Monitor
