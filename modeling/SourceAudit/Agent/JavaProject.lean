import SourceAudit.Agent.Sources
import SourceAudit.Monitor.JavaRun

/-!
# Java projects

A Java file is run together with its project: all sources are compiled, with the libraries that the
project has or that its build tool fetches.
-/

namespace SourceAudit.Agent.Java

open Outside
open SourceAudit.Pattern (Pattern)

def projectRoot (p : String) : Audit String := do
  let dir ← Audit.absolute (Path.directory p)
  Audit.nearestMarked dir Monitor.Java.projectMarkers

def sourcesBelow (dir : String) : Audit (List String) := do
  return (← Audit.walk dir).flatMap fun (p, _, nms) =>
    (nms.filter fun nm => Str.endsWith ".java" (Str.lower nm)).map (Path.join p)

def firstDirectory : List String → Audit (Option String)
  | [] => return none
  | dir :: tl => do
    if ← Audit.isDirectory dir then return some dir else firstDirectory tl

def projectSources (root : String) : Audit (List String × String) := do
  let usual := [Path.joinAll root ["src", "main", "java"], Path.join root "src"]
  let dir := (← firstDirectory usual).getD root
  let f ← sourcesBelow dir
  if f.isEmpty && dir != root then return (← sourcesBelow root, dir)
  return (f, dir)

def classPath (root : String) (dirs further : Value) : Audit String := do
  let nms ← Audit.ofOutcome dirs.items
  Monitor.Java.classPath root (.list nms) further

def packagePattern : Pattern :=
  Pattern.ofTextLines "^\\s*package\\s+([A-Za-z0-9_\\.]+)\\s*;"

def mainClass (p : String) : Audit String := do
  match ← Audit.attempt (Audit.readTextSkipping p) with
  | .error _ => return ""
  | .ok code =>
    if !javaMainPattern.occursIn code then return ""
    match packagePattern.search code with
    | some f => return f.group 1 ++ "." ++ Path.stem p
    | none => return Path.stem p

def quoteArgument (arg : String) : String :=
  let chars := arg.toList
  if chars.any Text.isBlank || chars.contains '(' || chars.contains ')' then
    "\"" ++ arg ++ "\""
  else arg

def argumentLines (tgt classPath : String) (srcs : List String) : List String :=
  let libraries := if classPath.isEmpty then [] else ["-cp", quoteArgument classPath]
  ["-encoding", "UTF-8", "-d", quoteArgument tgt] ++ libraries ++ srcs.map quoteArgument

def writeArguments (tgt classPath : String) (srcs : List String) : Audit String := do
  let p ← Audit.temporaryFile "oss_guardian_javac_" ".args"
  Audit.writeText p ("\n".intercalate (argumentLines tgt classPath srcs))
  return p

def runCommand (cmd : List String) (dir : String) (limit : Value) :
    Audit (List (String × Value)) := do
  let pl := if dir.isEmpty then none else some dir
  match ← Monitor.runLimited cmd pl limit with
  | .ok finished =>
    return [("return_code", .int finished.status), ("stdout", .text finished.output),
      ("stderr", .text finished.errors), ("timed_out", .bool false)]
  | .error (output, errors) =>
    return [("return_code", .int (-1)), ("stdout", .text (output.getD "")),
      ("stderr", (Value.ofText? errors).orElse
        (.text s!"Execution timed out after {limit.plain} seconds")), ("timed_out", .bool true)]

def skipped (reason : String) : Value :=
  .record [("status", .text "skipped"), ("reason", .text reason)]

inductive FetchMode where
  | off
  | offline
  | online
deriving DecidableEq, Repr

def FetchMode.ofValue (v : Value) : FetchMode :=
  match Str.lower v.plain with
  | "offline" => .offline
  | "online" => .online
  | _ => .off

def fetchCommand (mode : FetchMode) : List String :=
  ["mvn"] ++ (if mode = .offline then ["-o"] else []) ++
    ["-q", "-DskipTests", "dependency:copy-dependencies", "-DoutputDirectory=target/dependency"]

def fetchLibraries (root : String) (settings lim : Value) : Audit Value := do
  let mode := FetchMode.ofValue
    (← Audit.ofOutcome (settings.getD "java_dependency_mode" (.text "off")))
  if mode = .off then return skipped "dependency_mode_off"
  if !(← Audit.exists? (Path.join root "pom.xml")) then return skipped "pom_not_found"
  if (← Audit.which "mvn").isNone then return skipped "maven_not_found"
  let cmd := fetchCommand mode
  let fs ← runCommand cmd root lim
  let r : Value := .record (fs ++ [("command", .text (" ".intercalate cmd)), ("cwd", .text root)])
  if (r.lookup "return_code").same (.int 0) then
    return r.set "status" (.text "dependencies_copied")
  let r := r.set "status" (.text "dependency_failed")
  if (r.lookup "stderr").truthy then return r
  return r.set "stderr" (r.lookup "stdout")

end SourceAudit.Agent.Java
