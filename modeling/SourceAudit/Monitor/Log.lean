import SourceAudit.Outside.Session

/-!
# Logs of monitored runs

A monitored run writes a log of entries. Each entry is a line with the time and a message; an entry
that reports something dangerous is marked as an alert, and entries about calls end with the stack
of the caller.
-/

namespace SourceAudit.Monitor

open Outside

def entryAt (m : Moment) (msg : String) : String :=
  "[" ++ m.milliseconds ++ "] " ++ msg ++ "\n"

def entry (msg : String) : String :=
  entryAt Moment.current msg

inductive Delivery where
  | queue
  | broken
  | file (p : String)
  | output
deriving DecidableEq, Repr

namespace Delivery

def pieces (es : List String) : List String :=
  Str.splitLinesKeep (String.join es)

def deliver (delivery : Delivery) (es : List String) : Audit (List String) := do
  match delivery with
  | .queue => return es
  | .broken => return []
  | .output => return pieces es
  | .file p =>
    match ← Audit.attempt (Audit.appendText p (String.join es)) with
    | .ok _ => return pieces es
    | .error _ => return []

end Delivery

def logLines (src : Value) : Audit (List Value) := do
  match src with
  | .list xs => return xs
  | .text p =>
    match ← Audit.attempt (Audit.loadBytes p) with
    | .error _ => return []
    | .ok bytes =>
      match Text.Utf8.decode bytes with
      | .ok t => return (Str.readLines (Audit.unify t)).map .text
      | .error _ => return []
  | _ => return []

def logOf (run : Value) : Outcome Value := do
  let es ← run.getD "log_entries" (.list [])
  if es.truthy then return es else run.get "log_file"

def alertsIn (es : List Value) : Outcome (List String) := do
  let f ← es.mapM fun e => do
    let alert ←
      if ← e.holdsWord "[ALERT] SYSCALL:" then pure true
      else e.holdsWord "[ALERT] NETWORK:"
    if alert then return some (← e.strip) else return none
  return f.filterMap id

def alertsOf (run : Value) : Outcome (List String) := do
  let es ← run.get "log_entries"
  if es.truthy then alertsIn (← es.items) else return []

end SourceAudit.Monitor
