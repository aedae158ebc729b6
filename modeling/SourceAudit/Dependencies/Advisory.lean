import SourceAudit.Outside.Session

/-!
# Advisories

Known vulnerabilities of dependencies, as the advisory service reports them.
-/

namespace SourceAudit.Dependencies

open Outside

def batchAddress : String := "https://api.osv.dev/v1/querybatch"

def ecosystem (lang : String) : String :=
  match lang with
  | "java" => "Maven"
  | "go" => "Go"
  | "javascript" | "typescript" => "npm"
  | _ => "PyPI"

def questions (system : String) (deps : List Value) : Outcome (List (Value × Value)) := do
  let asked ← deps.mapM fun dep => do
    let nm ← dep.get "name"
    let version ← dep.get "version"
    if nm.truthy && version.truthy && !version.same (.text "unknown") then
      return some (dep, Value.record [
        ("package", .record [("name", nm), ("ecosystem", .text system)]), ("version", version)])
    else return none
  return asked.filterMap id

def ask (questions : List Value) : Audit Value := do
  Audit.record (.record [("post", .text batchAddress),
    ("json", .record [("queries", .list questions)])])
  match (← get).script.advisories.batch with
  | none => throw (.runtime "network down")
  | some reply =>
    if reply.status ≥ 400 then throw (.runtime s!"HTTP {reply.status}")
    Audit.ofOutcome (reply.body.getD "results" (.list []))

def identifiers (res : List Value) : Outcome (List Value) := do
  let listed ← res.mapM fun r => do
    let f ← (← r.getD "vulns" (.list [])).items
    let ids ← f.mapM fun e => do
      let id ← e.get "id"
      if id.truthy then return some (← id.asKey) else return none
    return ids.filterMap id
  return listed.flatten.foldl
    (fun known id => if id.among known then known else known ++ [id]) []

def detail? (advs : Advisories) (id : Value) : Option Value :=
  match advs.details.find? fun e => e.1 == id.plain with
  | some (_, reply) =>
    if reply.status = 200 ∧ reply.body.truthy then some reply.body else none
  | none => none

def keepDetail (id detail : Value) : List (Value × Value) → List (Value × Value)
  | [] => [(id, detail)]
  | e :: tl =>
    if e.1.alike id then (e.1, detail) :: tl else e :: keepDetail id detail tl

def gather (advs : Advisories) (arrived : List Value) : List (Value × Value) :=
  arrived.foldl
    (fun details id => match detail? advs id with
      | some detail => keepDetail id detail details
      | none => details)
    []

def gathered? (details : List (Value × Value)) (id : Value) : Option Value :=
  (details.find? fun e => e.1.alike id).map Prod.snd

def numberOf (detail : Value) : Outcome Value := do
  let own ← detail.get "id"
  if ← detail.holdsWord "aliases" then
    let aliases ← (← detail.need "aliases").items
    for e in aliases do
      let nm ← e.asText "startswith"
      if Str.startsWith "CVE-" nm then return e
    return own
  else return own

def severityOf (detail : Value) : Outcome String := do
  if ← detail.holdsWord "database_specific" then
    let sev ← (← detail.need "database_specific").get "severity"
    if sev.truthy then sev.lower else return "medium"
  else return "medium"

def finding (dep detail : Value) : Outcome Value := do
  let n ← numberOf detail
  let sev ← severityOf detail
  let sum ← detail.get "summary"
  let desc ←
    if sum.truthy then pure sum
    else do (← detail.getD "details" (.text "")).leading 200
  let own ← detail.get "id"
  return .record [("dependency", dep), ("cve_id", n), ("description", desc),
    ("severity", .text sev), ("fixed_version", .text "See report"), ("source", .text "OSV-Live"),
    ("reference_url", .text s!"https://osv.dev/vulnerability/{own.plain}")]

def severeOnly (fnds : List Value) : Outcome (List Value) :=
  fnds.filterM fun f => do
    let sev ← f.get "severity"
    if sev.truthy then
      let sev ← sev.lower
      return sev == "high" || sev == "critical"
    else return false

def findingsFor (detailOf : Value → Option Value) (dep r : Value) :
    Outcome (List Value) := do
  let es ← (← r.getD "vulns" (.list [])).items
  let f ← es.mapM fun e => do
    let id ← (← e.get "id").asKey
    match detailOf id with
    | none => return none
    | some detail => return some (← finding dep detail)
  return f.filterMap id

def findingsOf (detailOf : Value → Option Value) (deps res : List Value) :
    Outcome (List Value) := do
  let f ← (deps.zip res).mapM fun (dep, r) =>
    findingsFor detailOf dep r
  severeOnly f.flatten

def query (deps lang : Value) : Audit (List Value) := do
  let system := ecosystem (← Audit.ofOutcome lang.lower)
  let asked ← Audit.ofOutcome (do questions system (← deps.items))
  if asked.isEmpty then return []
  match ← Audit.attempt (ask (asked.map Prod.snd)) with
  | .error fault =>
    Audit.say s!"[ERROR] OSV API request failed: {fault.message}"
    return []
  | .ok answered =>
    let res ← Audit.ofOutcome answered.items
    let ids ← Audit.ofOutcome (identifiers res)
    if !ids.isEmpty then
      Audit.say s!"[INFO] Fetching details for {ids.length} vulnerabilities..."
    let advs := (← get).script.advisories
    let details := gather advs (advs.arrival ids)
    Audit.ofOutcome (findingsOf (gathered? details) (asked.map Prod.fst) res)

def advise (deps lang : Value) : Audit Value := do
  Audit.say "[INFO] Querying official OSV database..."
  match ← Audit.attempt (query deps lang) with
  | .ok [] => return .null
  | .ok fnds => return .list fnds
  | .error fault =>
    Audit.say (s!"[WARN] Online CVE check failed: {fault.message}. " ++
      "Switching to local database.")
    return .null

end SourceAudit.Dependencies
