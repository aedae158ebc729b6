import SourceAudit.Monitor.Network
import SourceAudit.Monitor.Sandbox
import SourceAudit.Value.Arithmetic

/-!
# Fuzzing

Runs of a program with random and with hostile arguments.
-/

namespace SourceAudit.Monitor

open Outside
open SourceAudit.Pattern (Pattern)

def fuzzAlphabet : List Char :=
  ("abcdefghijklmnopqrstuvwxyzABCDEFGHIJKLMNOPQRSTUVWXYZ0123456789" ++ ";|&><$\x60\"'\\").toList

def drawBetween (low high : Int) : Audit Int := do
  let n ← Audit.draw
  let width := high - low + 1
  if width = 0 then throw (.outside "ZeroDivisionError" "integer modulo by zero")
  return low + n.fmod width

def drawChar : Audit Char := do
  let n ← Audit.draw
  return (fuzzAlphabet[(n.emod fuzzAlphabet.length).toNat]?).getD 'a'

def drawChars : Nat → Audit (List Char)
  | 0 => return []
  | n + 1 => do
    let c ← drawChar
    return c :: (← drawChars n)

def randomText (low high : Int) : Audit String := do
  let length ← drawBetween low high
  return String.ofList (← drawChars length.toNat)

def hostileArguments : List String :=
  ["; ls", "| cat /etc/passwd", "& whoami", "\x60id\x60", "$(whoami)", "\"> /tmp/test",
    "' || 1=1 --", "; rm -rf /", "| nc -l 1234"]

def randomTexts : Nat → Audit (List String)
  | 0 => return []
  | n + 1 => do
    let t ← randomText 1 50
    return t :: (← randomTexts n)

def fuzzCases (n : Int) : Audit (List String) := do
  let random ← randomTexts n.toNat
  let hostile := Slice.upTo (min n hostileArguments.length) hostileArguments
  return Slice.upTo (n * 2) (random ++ hostile)

def tracebackPattern : Pattern := Pattern.ofText "File \\\"[^\\\"]+\\\", line (\\\\d+)"

def tracebackLines (errors : Value) : Outcome (List Int) :=
  if errors.truthy then
    match errors with
    | .text c =>
      .ok ((tracebackPattern.findAll c.toList).filterMap fun f =>
        Value.readInteger (f.group 1))
    | other => .error (.notSearchable other.kind)
  else .ok []

def crashed (run : Value) : Outcome Bool := do
  let status ← run.need "return_code"
  if !status.same (.int 0) && !(← run.get "timed_out").truthy then return true
  let errors ← run.need "stderr"
  if ← errors.holdsWord "Traceback" then return true
  errors.holdsWord "Error"

def runActivity (run : Value) : Audit (List NetworkActivity) := do
  let es ← Audit.ofOutcome (run.getD "log_entries" (.list []))
  if es.truthy then analyzeNetwork es
  else
    let file ← Audit.ofOutcome (run.get "log_file")
    if file.truthy then analyzeNetwork file else return []

def fuzzOnce (p lim mode : Value) (sandboxed : Bool) (input : String) : Audit Value := do
  let args := Value.ofTexts [input]
  let run ←
    if sandboxed then requestSandbox p args lim mode
    else requestDirect p args lim
  let crashed ← Audit.ofOutcome (crashed run)
  let ls ← Audit.ofOutcome (do tracebackLines (← run.get "stderr"))
  let activities ← if sandboxed then runActivity run else pure []
  Audit.ofOutcome do
    return .record [("test_input", .text input), ("return_code", ← run.need "return_code"),
      ("crashed", .bool crashed), ("stdout", ← run.need "stdout"),
      ("stderr", ← run.need "stderr"), ("execution_time", ← run.need "execution_time"),
      ("log_file", ← run.getD "log_file" (.text "")),
      ("network_activities", .list (activities.map (·.toValue))),
      ("timed_out", ← run.getD "timed_out" (.bool false)), ("line_numbers", Value.ofInts ls)]

def failedRun (input : String) (err : Fault) : Value :=
  .record [("test_input", .text input), ("return_code", .int (-1)), ("crashed", .bool true),
    ("stdout", .text ""), ("stderr", .text err.message),
    ("execution_time", .float (Double.ofNat 0)), ("log_file", .text ""),
    ("network_activities", .list []), ("timed_out", .bool false), ("error", .text err.message)]

def fuzz (p : Value) (n : Int) (lim mode : Value) (sandboxed : Bool) :
    Audit (List Value) := do
  (← fuzzCases n).mapM fun input =>
    Audit.orElse (fuzzOnce p lim mode sandboxed input) fun err =>
      return failedRun input err

end SourceAudit.Monitor
