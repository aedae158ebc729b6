import SourceAudit.Json.Writer
import SourceAudit.Outside.Session

/-!
# The cache

Documents in files, one for each key. A document that cannot be read counts as missing, and one that
cannot be written leaves behind what was written of it.
-/

namespace SourceAudit.Project.Cache

open Outside

def fileOf (dir k : Value) : String :=
  Path.join dir.plain (k.plain ++ ".json")

def ageOf (p : String) : Audit Value := do
  let s ← get
  let e := s.ages.find? fun e => e.1 == Audit.key s p
  return (e.map Prod.snd).getD (.int 0)

def setAge (p : String) (seconds : Value) : Audit Unit :=
  modify fun s =>
    let k := Audit.key s p
    { s with ages := (k, seconds) :: s.ages.filter fun e => e.1 != k }

def load (directory key lifetime : Value) : Audit Value := do
  if !directory.truthy || !key.truthy then return .null
  let p := fileOf directory key
  if !(← Audit.exists? p) then return .null
  if ← Audit.ofOutcome (lifetime.greater (.int 0)) then
    if ← Audit.ofOutcome ((← ageOf p).greater lifetime) then return .null
  match ← Audit.attempt (Audit.readText p) with
  | .ok t => return (Json.read? t).getD .null
  | .error _ => return .null

def save (directory key pay : Value) : Audit Unit := do
  if !directory.truthy || !key.truthy then return ()
  Audit.makeDirectories directory.plain
  let written := Json.write .indented 0 pay
  let _ ← Audit.attempt (Audit.writeText (fileOf directory key) written.text)

end SourceAudit.Project.Cache
