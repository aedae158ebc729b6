import SourceAudit.Analysis.DynamicPass
import SourceAudit.Analysis.StaticPass
import SourceAudit.Config.Load
import SourceAudit.Findings.Aggregate
import SourceAudit.Findings.Threat
import SourceAudit.Report.Html
import SourceAudit.Report.Markdown

/-!
# Analysis of a file

A file is analysed in stages. Each stage adds to the results; when one fails, the results of the
stages before it stay as they are and the failure is noted.
-/

namespace SourceAudit.Analysis

open Outside

inductive ReportKind where
  | json
  | html
  | markdown
deriving DecidableEq, Repr

namespace ReportKind

def name : ReportKind → String
  | .json => "json"
  | .html => "html"
  | .markdown => "markdown"

def extension : ReportKind → String
  | .json => "json"
  | .html => "html"
  | .markdown => "md"

def render (k : ReportKind) (m : Moment) (data : Value) : Outcome String :=
  match k with
  | .json => Report.document m data
  | .html => Report.Html.page m data
  | .markdown => Report.Markdown.text m data

end ReportKind

structure FileResults where
  path : String
  language : String
  static : Value := .record []
  dynamic : Value := .record []
  aggregated : Value := .record []
  threats : Value := .list []
  risk : Value := .record []
  reports : List (ReportKind × String) := []
  error : Option String := none
  skipped : Option String := none

namespace FileResults

def toValue (res : FileResults) : Value :=
  let reports := res.reports.map fun (k, p) => (k.name, Value.text p)
  let skipped := match res.skipped with
    | some reason => [("skipped", .bool true), ("reason", .text reason)]
    | none => []
  let error := match res.error with
    | some msg => [("error", .text msg)]
    | none => []
  .record ([("file_path", .text res.path), ("language", .text res.language),
    ("static_results", res.static), ("dynamic_results", res.dynamic),
    ("aggregated_results", res.aggregated), ("threats", res.threats),
    ("risk_assessment", res.risk), ("reports", .record reports)] ++ skipped ++ error)

def reportData (res : FileResults) : Value :=
  .record [("file_path", .text res.path), ("static_results", res.static),
    ("dynamic_results", res.dynamic), ("aggregated_results", res.aggregated),
    ("threats", res.threats), ("risk_assessment", res.risk)]

end FileResults

structure Options where
  static : StaticOptions
  dynamic : DynamicOptions
  reports : Value

def optionsOf (cfg : Value) : Outcome Options := do
  let settings ← cfg.getD "settings" (.record [])
  let rules ← cfg.getD "rules" (.record [])
  let flag (k : String) : Outcome Bool := do return (← settings.getD k (.bool true)).truthy
  let static ← flag "enable_static_analysis"
  let dynamic ← flag "enable_dynamic_analysis"
  let isolated ← flag "enable_sandbox"
  let total ← settings.getD "timeout" (.int 30)
  let own ← settings.getD "dynamic_timeout" (.int 2)
  let limit := if ← total.less "<" own then total else own
  return {
    static := { rules, enabled := static }
    dynamic :=
      { enabled := dynamic, isolated, limit
        mode := ← settings.getD "dynamic_log_mode" (.text "queue")
        interval := ← settings.getD "dynamic_sample_interval" (.float (Double.ofFloat 0.1))
        libraryDirectories := ← settings.get "java_dependency_dirs"
        furtherLibraries := ← settings.get "java_extra_classpath" }
    reports := ← settings.getD "report_path" (.text "data/reports/") }

def isIdleLine (ln : String) : Bool :=
  let t := Str.trim ln
  t.isEmpty || ["#", "//", "/*", "*", "*/"].any fun mark => Str.startsWith mark t

def isIdle (p : String) : Audit Bool := do
  match ← Audit.lookup p with
  | none => return false
  | some (.file []) => return true
  | some _ =>
    match ← Audit.attempt (Audit.readTextSkipping p) with
    | .ok t => return (Str.readLines t).all isIdleLine
    | .error _ => return false

abbrev Stage := FileResults → Audit FileResults

def runStages : List Stage → FileResults → Audit FileResults
  | [], res => return res
  | stage :: tl, res => do
    match ← Audit.attempt (stage res) with
    | .ok res => runStages tl res
    | .error fault =>
      Audit.say s!"[ERROR] Analysis failed: {fault.message}"
      return { res with error := some fault.message }

def staticStage (opts : Options) (reqs : Bool) : Stage := fun results => do
  Audit.say s!"[INFO] Reading file: {results.path}"
  Audit.say s!"[INFO] Detected language: {results.language}"
  let static ← staticPass opts.static results.path results.language reqs
  return { results with static }

def dynamicStage (options : Options) (reqs : Bool) : Stage := fun res => do
  if !options.dynamic.enabled || reqs then return { res with dynamic := dynamicOff }
  Audit.say "[INFO] Performing dynamic analysis..."
  return { res with dynamic := ← dynamicPass options.dynamic res.path res.language }

def aggregateStage : Stage := fun res => do
  Audit.say "[INFO] Aggregating results..."
  let aggregated ← Audit.ofOutcome (Findings.aggregate res.static res.dynamic)
  return { res with aggregated }

def threatStage : Stage := fun res => do
  Audit.say "[INFO] Identifying threats..."
  let ths ← Audit.ofOutcome (Findings.identify res.aggregated)
  return { res with threats := .list (ths.map (·.toValue)) }

def riskStage : Stage := fun res => do
  Audit.say "[INFO] Assessing risk..."
  let risk ← Audit.ofOutcome (Findings.assess res.threats)
  return { res with risk := risk.toValue }

def asPath (p : Value) : Outcome String :=
  match p with
  | .text p => .ok p
  | other =>
    .error (.mistyped s!"expected str, bytes or os.PathLike object, not {other.kind.name}")

def reportPath (dir stem : String) (k : ReportKind) : String :=
  Path.join dir (stem ++ "_" ++ Moment.current.compact ++ "." ++ k.extension)

def reportStage (opts : Options) (k : ReportKind) : Stage := fun res => do
  if k = .json then Audit.say "[INFO] Generating reports..."
  let c ← Audit.ofOutcome (k.render Moment.current res.reportData)
  let dir ← Audit.ofOutcome (asPath opts.reports)
  if k = .json then Audit.makeDirectories dir
  let p ← Report.save (.text c)
    (reportPath dir (Path.stem res.path) k) k.name
  return { res with reports := res.reports ++ [(k, p)] }

def successStage : Stage := fun res => do
  let score ← Audit.ofOutcome (res.risk.need "risk_score")
  Audit.say s!"[SUCCESS] Analysis complete. Risk score: {score.plain}/100"
  return res

def stages (opts : Options) (reqs : Bool) : List Stage :=
  [staticStage opts reqs, dynamicStage opts reqs, aggregateStage,
    threatStage, riskStage, reportStage opts .json, reportStage opts .html,
    reportStage opts .markdown, successStage]

def configOr (cfg : Option Value) : Audit Value :=
  match cfg with
  | some cfg => pure cfg
  | none => Config.load "config"

def idleResults (path : String) : FileResults :=
  { path, language := "unknown", skipped := some "empty or comment-only file" }

def supportedLanguage (p : String) : Audit String := do
  let language ← Source.detect p
  if !language.isSupported then
    throw (.invalid (s!"Unsupported language: {language.name}. " ++
      "Supported languages: Python, Go, Java"))
  return language.name

def analyzeFile (path : String) (cfg : Option Value) : Audit FileResults := do
  let cfg ← configOr cfg
  if ← isIdle path then
    Audit.say s!"[INFO] Skipping empty/comment-only file: {path}"
    return idleResults path
  let opts ← Audit.ofOutcome (optionsOf cfg)
  let reqs := Str.lower (Path.name path) == "requirements.txt"
  let language ← if reqs then pure "python" else supportedLanguage path
  runStages (stages opts reqs) { path, language }

def commandLine (args : List String) : Audit Unit := do
  match args with
  | [] => Audit.say "Usage: python main_controller.py <file_path>"
  | p :: _ =>
    let res ← analyzeFile p none
    let score ← Audit.ofOutcome (res.risk.need "risk_score")
    Audit.say s!"\nRisk Score: {score.plain}/100"
    let threats ← Audit.ofOutcome res.threats.length
    Audit.say s!"Threats Found: {threats}"

end SourceAudit.Analysis
