import SourceAudit.Outside.Session
import SourceAudit.Pattern.Parser

/-!
# Dependency manifests

The dependencies that a project declares, read from the manifests of its language: requirement lists
and setup scripts, module files, and the build files of Maven and Gradle.
-/

namespace SourceAudit.Dependencies

open Outside
open SourceAudit.Pattern (Pattern)

structure Dependency where
  name : String
  version : String
  constraint : Option String := none
  source : String
deriving DecidableEq, Repr

namespace Dependency

def toValue (dep : Dependency) : Value :=
  let constraint := match dep.constraint with
    | some constraint => [("constraint", Value.text constraint)]
    | none => []
  .record ([("name", .text dep.name), ("version", .text dep.version)] ++
    constraint ++ [("source", .text dep.source)])

end Dependency

def unknown : String := "unknown"

def requirementPattern : Pattern :=
  Pattern.ofText "^([\\w\\-_\\.]+)(?:([><=!]+)([\\d\\.\\w]+))?"

def requirement? (source : String) (t : List Char) : Option Dependency :=
  (requirementPattern.matchStart? t).map fun f =>
    { name := f.group 1
      version := (f.group? 3).getD unknown
      constraint := some ((f.group? 2).getD "==")
      source }

def requirementList (ls : List (List Char)) : List Dependency :=
  ls.filterMap fun ln =>
    let ln := Text.trim ln
    if ln.isEmpty || ln.head? == some '#' then none
    else requirement? "requirements.txt" ln

def requirementBlockPattern : Pattern :=
  Pattern.ofText "(?s)install_requires\\s*=\\s*\\[(.*?)\\]"

def quotedPattern : Pattern := Pattern.ofText "[\"']([^\"']+)[\"']"

def setupScript (t : List Char) : List Dependency :=
  match requirementBlockPattern.search? t with
  | none => []
  | some block =>
    (quotedPattern.findAll (block.group 1).toList).filterMap fun f =>
      requirement? "setup.py" (f.group 1).toList

def moduleLine? (ln : List Char) : Option Dependency :=
  match Text.words (Text.replace "require".toList [] ln) with
  | [] => none
  | p :: tl =>
    some { name := String.ofList p
           version := (tl.head?.map String.ofList).getD unknown
           source := "go.mod" }

def moduleFileFrom (block : Bool) : List (List Char) → List Dependency
  | [] => []
  | ln :: tl =>
    let ln := Text.trim ln
    if ln = "require (".toList then moduleFileFrom true tl
    else if block ∧ ln = [')'] then moduleFileFrom false tl
    else if block ∨ Text.startsWith "require ".toList ln then
      (moduleLine? ln).toList ++ moduleFileFrom block tl
    else moduleFileFrom block tl

def moduleFile (ls : List (List Char)) : List Dependency :=
  moduleFileFrom false ls

def projectPattern : Pattern :=
  Pattern.ofText ("(?s)<dependency>.*?<groupId>(.*?)</groupId>.*?<artifactId>(.*?)</artifactId>" ++
    ".*?<version>(.*?)</version>.*?</dependency>")

def projectFile (t : List Char) : List Dependency :=
  (projectPattern.findAll t).map fun f =>
    { name := Str.trim (f.group 1) ++ ":" ++ Str.trim (f.group 2)
      version := Str.trim (f.group 3)
      source := "pom.xml" }

def buildBlockPattern : Pattern := Pattern.ofText "dependencies\\s*\\\x7b([^\x7d]+)\\\x7d"

def coordinatesPattern : Pattern :=
  Pattern.ofText "[\"']([^\"']+):([^\"']+):([^\"']+)[\"']"

def buildScript (t : List Char) : List Dependency :=
  match buildBlockPattern.search? t with
  | none => []
  | some block =>
    (Text.splitNewline (block.group 1).toList).filterMap fun ln =>
      (coordinatesPattern.search? ln).map fun f =>
        { name := f.group 1 ++ ":" ++ f.group 2
          version := f.group 3
          source := "build.gradle" }

structure Manifest where
  name : String
  read : List Char → List Dependency

def manifestsOf (lang : String) : List String × List Manifest :=
  match lang with
  | "python" =>
    (["requirements.txt", "setup.py", "pyproject.toml"],
      [⟨"requirements.txt", fun t => requirementList (Text.splitNewline t)⟩,
       ⟨"setup.py", setupScript⟩])
  | "go" =>
    (["go.mod", "go.sum"], [⟨"go.mod", fun t => moduleFile (Text.splitNewline t)⟩])
  | "java" =>
    (["pom.xml", "build.gradle", "build.gradle.kts", "settings.gradle", "settings.gradle.kts"],
      [⟨"pom.xml", projectFile⟩, ⟨"build.gradle", buildScript⟩])
  | _ => ([], [])

def readManifest (dir : String) (manifest : Manifest) : Audit (List Dependency) := do
  match ← Audit.attempt (Audit.loadBytes (Path.join dir manifest.name)) with
  | .error _ => return []
  | .ok bytes =>
    match Text.Utf8.decode bytes with
    | .ok t => return manifest.read (Audit.unify t).toList
    | .error _ => return []

def ofFile (p lang : String) : Audit (List Dependency) := do
  let (markers, manifests) := manifestsOf lang
  let start := Path.directory (← Audit.absolute p)
  let root ← Audit.nearestMarked start markers
  return (← manifests.mapM (readManifest root)).flatten

end SourceAudit.Dependencies
