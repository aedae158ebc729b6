import SourceAudit.Monitor.Sampling
import SourceAudit.Monitor.Sandbox

/-!
# Running Java programs

A Java program is compiled with the libraries of its project and then run and watched.
-/

namespace SourceAudit.Monitor.Java

open Outside
open SourceAudit.Pattern (Pattern)

def signature : Signature :=
  { title := "run_java_dynamic"
    positional := [{ name := "file_path" }, { name := "args", fallback := some .null },
      { name := "timeout", fallback := some (.int 30) },
      { name := "sample_interval", fallback := some (.float (Double.ofFloat 0.1)) },
      { name := "project_root", fallback := some .null },
      { name := "dependency_dirs", fallback := some .null },
      { name := "extra_classpath", fallback := some .null }] }

def packagePattern : Pattern :=
  Pattern.ofTextLines "^\\s*package\\s+([a-zA-Z_][\\w\\.]*)\\s*;"

def classPattern : Pattern :=
  Pattern.ofTextLines "^\\s*(public\\s+)?(final\\s+|abstract\\s+)?class\\s+([A-Za-z_]\\w*)"

def packageOf? (code : String) : Option String :=
  (packagePattern.search code).map fun f => f.group 1

def classOf (p code : String) : String :=
  match classPattern.search code with
  | some f => f.group 3
  | none => Path.stem p

def entryPoint (p : String) : Audit String := do
  let code ← Audit.readTextSkipping p
  let nm := classOf p code
  match packageOf? code with
  | some package => return package ++ "." ++ nm
  | none => return nm

def filePackage (p : String) : Audit String := do
  match ← Audit.attempt (Audit.readTextSkipping p) with
  | .ok code => return (packageOf? code).getD ""
  | .error _ => return ""

def librariesBelow (dir : String) : Audit (List String) := do
  if !(← Audit.isDirectory dir) then return []
  return (← Audit.walk dir).flatMap fun (p, _, nms) =>
    (nms.filter fun nm => Str.endsWith ".jar" (Str.lower nm)).map (Path.join p)

def projectLibraries (root : String) (directories : Value) : Audit (List String) := do
  if !directories.truthy then return []
  let nms ← Audit.ofOutcome directories.items
  let f ← nms.mapM fun name => do
    if !name.truthy then return []
    match name with
    | .text name => librariesBelow (Path.join root name)
    | other => throw (.mistyped ("join() argument must be str, bytes, or os.PathLike object, " ++
        s!"not '{other.kind.name}'"))
  return f.flatten

def furtherEntries (further : Value) : List String :=
  match further with
  | .text c => ((Str.splitOn ":" c).map Str.trim).filter fun part => !part.isEmpty
  | .list xs => (xs.filter Value.truthy).map Value.plain
  | _ => []

def distinctExisting (es : List String) : Audit (List String) := do
  let s ← get
  let there (path : String) : Bool :=
    (s.files.at? (Audit.key s path)).isSome && !path.isEmpty
  return (es.filter there).eraseDups

def classPath (root : String) (dirs further : Value) : Audit String := do
  let libraries ← projectLibraries root dirs
  let es ← distinctExisting (libraries ++ furtherEntries further)
  return ":".intercalate es

def projectMarkers : List String :=
  ["pom.xml", "build.gradle", "build.gradle.kts", "settings.gradle", "gradlew", "mvnw"]

def placeSource (p dir package simple : String) : Audit String := do
  let code ← Audit.readTextReplacing p
  let pl ←
    if !package.isEmpty then do
      let folder := Path.joinAll dir ("src" :: Str.splitOn "." package)
      Audit.makeDirectories folder
      pure (Path.join folder (simple ++ ".java"))
    else if Path.stem p != simple then pure (Path.join dir (simple ++ ".java"))
    else pure p
  if pl != p then Audit.writeText pl code
  return pl

def build (given : Arguments) : Audit Preparation := do
  let p := (given.value "file_path").plain
  if !(← get).script.inspectable then
    return .stopped (.skipped "psutil is not installed; Java dynamic analysis skipped." [])
  let compiler := (← Audit.which "javac").getD ""
  let machine := (← Audit.which "java").getD ""
  let shown (tool : String) : Value := if tool.isEmpty then .null else .text tool
  if compiler.isEmpty || machine.isEmpty then
    return .stopped (.skipped "javac/java not available; Java dynamic analysis skipped."
      [("java_result", .record [("javac_path", shown compiler), ("java_path", shown machine)])])
  if !(← Audit.exists? p) then
    return .stopped (.skipped "Java file not found." [])
  Audit.makeDirectories logDirectory
  let log := Path.join logDirectory s!"java_dynamic_{Moment.current.compactFull}.log"
  let root ← match given.value "project_root" with
    | .text root => if root.isEmpty then resolve p else pure root
    | _ => resolve p
  let rooted ← Audit.isDirectory root
  let libraries ←
    if rooted then classPath root (given.value "dependency_dirs") (given.value "extra_classpath")
    else pure ""
  let workspace ← Audit.temporaryDirectory "dir"
  let e ← entryPoint p
  let package ← filePackage p
  let simple := ((Str.splitOn "." e).getLast?).getD ""
  let className := if package.isEmpty then simple else package ++ "." ++ simple
  let src ← placeSource p workspace package simple
  let cmd := [compiler, "-d", workspace] ++ (if rooted then ["-sourcepath", root] else []) ++
    (if libraries.isEmpty then [] else ["-cp", libraries]) ++ [src]
  let built ← Audit.finish cmd (some (if rooted then root else workspace)) .null
  let details : List (String × Value) := [("class_name", .text className),
    ("package_name", .text package), ("source_path", .text src),
    ("sourcepath_root", if rooted then .text root else .null), ("javac_path", .text compiler),
    ("java_path", .text machine)]
  if built.status ≠ 0 then
    let events := (buildEvents "javac" built).map stamped
    writeEvents log events
    return .stopped { events, log, further := [("java_result", .record ([
        ("compile_stdout", .text built.output), ("compile_stderr", .text built.errors),
        ("compile_return_code", .int built.status)] ++ details))] }
  let runPath := if libraries.isEmpty then workspace else workspace ++ ":" ++ libraries
  let words ← Audit.ofOutcome (furtherWords 4 (given.value "args"))
  return .built {
    command := [machine, "-cp", runPath, className] ++ words
    directory := if rooted then root else Path.directory p
    log, workspace, details }
where
  resolve (p : String) : Audit String := do
    let start ← Audit.absolute (Path.directory p)
    Audit.nearestMarked start projectMarkers

def runDynamic (given : Arguments) : Audit Value := do
  (← build given).run "java_result" (given.value "timeout") (given.value "sample_interval")

end SourceAudit.Monitor.Java
