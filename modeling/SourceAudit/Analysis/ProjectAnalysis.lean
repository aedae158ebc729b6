import SourceAudit.Agent.Analysis
import SourceAudit.Analysis.FileAnalysis

/-!
# Analysis of a project

Several files are analysed together by the agent. Its findings join the threats that rules find in
what was seen when the project ran.
-/

namespace SourceAudit.Analysis

open Outside

def namedParts (p : String) : List String :=
  (Str.splitOn "/" p).filter fun part => !part.isEmpty && part != "."

def commonPath? (paths : List String) : Option String :=
  match paths with
  | [] => none
  | a :: tl =>
    let absolute := Path.isAbsolute a
    if tl.any fun p => Path.isAbsolute p != absolute then none
    else
      let shared := tl.foldl (fun shared p => Path.commonStart shared (namedParts p))
        (namedParts a)
      some ((if absolute then "/" else "") ++ "/".intercalate shared)

def projectLabel (paths : List Value) : String :=
  match paths.mapM Value.text? with
  | none => "zip_project"
  | some paths =>
    match commonPath? paths with
    | none => "zip_project"
    | some shared => if (Path.name shared).isEmpty then shared else Path.name shared

def languagesOf : List Value → Audit (List (String × Value))
  | [] => return []
  | p :: tl => do
    let lang := (← Source.detectValue p).name
    let others ← languagesOf tl
    return (lang, p) :: others.filter fun e => e.1 != lang

def projectDependencies (lang : String) (p : Value) :
    Audit (List Value × List Value) := do
  if !Agent.runnableLanguages.contains lang then return ([], [])
  match ← Audit.attempt (Dependencies.ofFile p.plain lang) with
  | .error _ => return ([], [])
  | .ok f =>
    let deps := f.map (·.toValue)
    if deps.isEmpty then return ([], [])
    match ← Audit.attempt (Dependencies.advise (.list deps) (.text lang)) with
    | .error _ => return (deps, [])
    | .ok f => return (deps, f.itemsOrNone)

def projectKey (th : Value) : Outcome Value := do
  let k ← th.get "threat_type"
  let sev ← th.get "severity"
  let desc ← th.get "description"
  let ls ← ((← th.get "line_numbers").orElse (.list [])).items
  let ev ← ((← th.get "evidence").orElse (.list [])).items
  let pls := (ev.filter Value.isRecord).map fun x =>
    Value.tuple [x.lookup "file", x.lookup "line"]
  (Value.tuple [k, sev, desc, .tuple ls, .tuple pls]).asKey

def combinedCounts (sum : Value) (ths : List Agent.ModelThreat) : Outcome Value := do
  let n (sev : Findings.Severity) : Outcome (String × Value) := do
    let stated ← (← sum.getD (sev.name ++ "_count") (.int 0)).toInteger
    let own := (ths.filter fun th => th.severity == sev).length
    return (sev.name, .int (stated + own))
  return .record (← [.critical, .high, .medium, .low].mapM n)

def noFiles : FileResults :=
  { path := "", language := "unknown", error := some "no files provided" }

def saveReports (dir stem : String) (res : FileResults) :
    List ReportKind → Audit (List (ReportKind × String))
  | [] => return []
  | k :: tl => do
    let c ← Audit.ofOutcome (k.render Moment.current res.reportData)
    let p ← Report.save (.text c) (reportPath dir stem k) k.name
    return (k, p) :: (← saveReports dir stem res tl)

def analyzeProject (paths : Value) (cfg : Option Value) : Audit FileResults := do
  let cfg ← configOr cfg
  if !paths.truthy then return noFiles
  let files ← Audit.ofOutcome paths.items
  let label := projectLabel files
  let langs ← languagesOf files
  let f ← langs.mapM fun (language, p) => projectDependencies language p
  let rep ← Agent.analyze paths cfg
  let static := ({ dependencies := f.flatMap Prod.fst
                   vulnerabilities := .list (f.flatMap Prod.snd) } : StaticFindings).toValue
  let aggregated ← Audit.ofOutcome (Findings.aggregate static rep.summary)
  let ruled ← Audit.ofOutcome (Findings.identify aggregated)
  let ths ← Audit.ofOutcome (Findings.mergeBy projectKey
    (.list (ruled.map (·.toValue))) (.list (rep.threats.map (·.toValue))))
  let sum := (aggregated.lookup "summary").orElse (.record [])
  let counts ← Audit.ofOutcome (combinedCounts sum rep.threats)
  let risk ← Audit.ofOutcome (Findings.assessCounts counts)
  let language := match langs with
    | [(language, _)] => language
    | [] => "unknown"
    | _ => "mixed"
  let res : FileResults :=
    { path := label, language, static, dynamic := rep.summary, aggregated
      threats := .list ths, risk := risk.toValue }
  let dir ← Audit.ofOutcome do
    asPath (← (← cfg.getD "settings" (.record [])).getD "report_path" (.text "data/reports/"))
  Audit.makeDirectories dir
  let stem := if (Path.name label).isEmpty then "zip_project" else Path.name label
  return { res with reports := ← saveReports dir stem res [.json, .html, .markdown] }

end SourceAudit.Analysis
