import SourceAudit.Dependencies.Advisory
import SourceAudit.Dependencies.Manifest
import SourceAudit.Rules.Matching
import SourceAudit.Source.Blocks
import SourceAudit.Source.LineTaint
import SourceAudit.Source.ToolCheck
import SourceAudit.Source.Validity
import SourceAudit.Tree.ControlFlow
import SourceAudit.Tree.Operations
import SourceAudit.Tree.Symbols
import SourceAudit.Tree.Taint

/-!
# The static pass

Everything that is found without running a file: matches of rules, flows of outside data, control
structures, and known vulnerabilities of the dependencies.
-/

namespace SourceAudit.Analysis

open Outside

structure StaticFindings where
  matched : List Value := []
  flows : List Value := []
  structures : List Value := []
  valid : Bool := true
  errors : List Value := []
  symbols : Value := .record []
  operations : List Value := []
  dependencies : List Value := []
  vulnerabilities : Value := .list []

namespace StaticFindings

def toValue (fnds : StaticFindings) : Value :=
  .record [("pattern_matches", .list fnds.matched), ("taint_flows", .list fnds.flows),
    ("cfg_structures", .list fnds.structures), ("syntax_valid", .bool fnds.valid),
    ("syntax_errors", .list fnds.errors), ("symbols", fnds.symbols),
    ("ir", .list fnds.operations), ("dependencies", .list fnds.dependencies),
    ("cve_matches", fnds.vulnerabilities)]

end StaticFindings

def staticOff : Value :=
  .record [("pattern_matches", .list []), ("taint_flows", .list []), ("cfg_structures", .list []),
    ("syntax_valid", .bool true), ("symbols", .record []), ("ir", .list [])]

def dependenciesOf (p lang : String) : Audit (List Value × Value) := do
  let deps := (← Dependencies.ofFile p lang).map (·.toValue)
  if deps.isEmpty then return ([], .list [])
  let f ← Dependencies.advise (.list deps) (.text lang)
  return (deps, f)

def matchedRules (rs : Value) (lang src : String) : Outcome (List Value) := do
  Rules.matchDocuments src (← Rules.forLanguage (Rules.listOf rs) (.text lang))

structure StaticOptions where
  rules : Value
  enabled : Bool

def pythonPass (options : StaticOptions) (p src : String) : Audit Value := do
  Audit.say "[INFO] Building AST..."
  let facts := (← get).script.facts
  let parsed := match Source.SourceError.ofValue? facts.parseError with
    | some error => .error error
    | none => .ok (facts.tree.getD .null)
  let t := Tree.ofDocument (← Audit.ofOutcome (Source.buildTree (.text src) p parsed))
  Audit.say "[INFO] Extracting symbols..."
  let symbols := Tree.symbolsOf t
  Audit.say "[INFO] Generating IR..."
  let operations := Tree.operationsOf t
  if !options.enabled then return staticOff
  Audit.say "[INFO] Performing static analysis..."
  let problem ← (Source.SourceError.ofValue? facts.compileError).mapM fun error =>
    error.completed p
  let rep ← Audit.ofOutcome (Source.checkSyntax (.text src) problem)
  let matched ← Audit.ofOutcome (matchedRules options.rules "python" src)
  let flows := (Tree.flowsOf t).map (·.toValue)
  let structures := (Tree.structuresOf t).map (·.toValue)
  let (dependencies, vulnerabilities) ← dependenciesOf p "python"
  return ({ matched, flows, structures, valid := rep.valid, errors := rep.errors
            symbols, operations, dependencies, vulnerabilities } : StaticFindings).toValue

def goPass (options : StaticOptions) (p src : String) : Audit Value := do
  Audit.say "[INFO] Building Go AST..."
  let symbols := (← Source.Go.readOutline p).symbols
  if !options.enabled then return staticOff
  Audit.say "[INFO] Performing static analysis..."
  let rep ← Source.Go.checkFile p
  let matched ← Audit.ofOutcome (matchedRules options.rules "go" src)
  let flows := (← Source.Go.taintFlows p).map (·.toValue)
  let structures := (Source.Go.blocks src).map (·.toValue)
  let (dependencies, vulnerabilities) ← dependenciesOf p "go"
  return ({ matched := matched ++ flows, flows, structures, valid := rep.valid
            errors := rep.errors.map .text, symbols, dependencies
            vulnerabilities } : StaticFindings).toValue

def javaPass (options : StaticOptions) (p src : String) : Audit Value := do
  Audit.say "[INFO] Building Java AST..."
  let symbols := (← Source.Java.readOutline p).symbols
  if !options.enabled then return staticOff
  Audit.say "[INFO] Performing static analysis..."
  let rep ← Source.Java.checkFile p
  let matched ← Audit.ofOutcome (matchedRules options.rules "java" src)
  let flows := (← Source.Java.taintFlows p).map (·.toValue)
  let structures := (Source.Java.blocks src).map (·.toValue)
  let (dependencies, vulnerabilities) ← dependenciesOf p "java"
  return ({ matched := matched ++ flows, flows, structures, valid := rep.valid
            errors := rep.errors.map .text, symbols, dependencies
            vulnerabilities } : StaticFindings).toValue

def requirementsPass (options : StaticOptions) (p : String) : Audit Value := do
  if !options.enabled then return staticOff
  Audit.say "[INFO] Performing static analysis..."
  let (dependencies, vulnerabilities) ← dependenciesOf p "python"
  return ({ dependencies, vulnerabilities } : StaticFindings).toValue

def staticPass (opts : StaticOptions) (p lang : String) (reqs : Bool) :
    Audit Value := do
  if reqs then requirementsPass opts p
  else
    let src ← Source.readSource p
    match lang with
    | "python" => pythonPass opts p src
    | "go" => goPass opts p src
    | "java" => javaPass opts p src
    | other => throw (.invalid s!"Unsupported language: {other}")

end SourceAudit.Analysis
