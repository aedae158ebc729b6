import SourceAudit.Project.Context

/-!
# Evidence

Findings of a model are kept only as far as their evidence is really in the project: it has to name
a file of the index and a line of that file, and what it quotes has to stand there.
-/

namespace SourceAudit.Project

def severities : List String := ["critical", "high", "medium", "low"]

def window (ls ln : Value) : Outcome (List Value) := do
  let a ← (← ln.minus (.int 2)).raisedTo 0
  let last ← (← ln.plus (.int 1)).loweredTo (Int.ofNat (← ls.length))
  return linesFromTo (a + 1) last (← ls.items)

def quotes (ls ln snippet : Value) : Outcome Bool := do
  if !snippet.truthy then return true
  if ← snippet.holdsWord blackout then return true
  if ← ln.atMost (.int 0) then return false
  if ← ln.greater (.ofNat (← ls.length)) then return false
  let t ← Value.joinTexts "\n" (← window ls ln)
  return Str.occurs (← snippet.strip) t

structure Evidence where
  file : Value
  line : Value
  snippet : Value

namespace Evidence

def toValue (ev : Evidence) : Value :=
  .record [("file", ev.file), ("line", ev.line), ("snippet", ev.snippet)]

end Evidence

def checkItem (files fnd x : Value) : Outcome (Option Evidence) := do
  let named ← x.get "file"
  let file ← if named.truthy then pure named else fnd.get "source_file"
  let stated ← x.get "line"
  let line ← if stated.truthy then pure stated else x.get "line_number"
  let snippet ← x.getD "snippet" (.text "")
  if !file.truthy || !line.truthy then return none
  let info ← files.entry file
  if !info.truthy then return none
  let ls ← info.getD "lines" (.list [])
  if ← line.atMost (.int 0) then return none
  if ← line.greater (.ofNat (← ls.length)) then return none
  if snippet.truthy && !(← quotes ls line snippet) then return none
  return some { file, line, snippet }

def distinct (vs : List Value) : List Value :=
  vs.foldl (fun known v => if v.among known then known else known ++ [v]) []

def severityOf (fnd : Value) : Outcome String := do
  let sev ← ((← fnd.get "severity").orElse (.text "medium")).lower
  return if severities.contains sev then sev else "medium"

def checkFinding (files : Value) (required : Bool) (fnd : Value) : Outcome (Option Value) := do
  let xs ← ((← fnd.getD "evidence" (.list [])).orElse (.list [])).items
  let ev := (← xs.mapM (checkItem files fnd)).filterMap id
  if required && ev.isEmpty then return none
  let sev ← severityOf fnd
  let sum ← fnd.get "summary"
  let desc ← if sum.truthy then pure sum else fnd.get "description"
  let src ← fnd.get "source_file"
  let a := (ev.head?.map (·.file)).getD (.text "")
  return some (.record [("threat_type", (← fnd.get "threat_type").orElse (.text "Unknown")),
    ("severity", .text sev), ("description", desc.orElse (.text "")), ("source_file", src.orElse a),
    ("line_numbers", .list (← Value.sorted (distinct (ev.map (·.line))))),
    ("evidence", .list (ev.map (·.toValue))), ("ai_generated", .bool true),
    ("confidence", ← fnd.getD "confidence" (.float (Double.ofNat 0))),
    ("chain_id", ← fnd.get "chain_id")])

def validate (fnds i : Value) (required : Bool) : Outcome (List Value) := do
  let files ← i.getD "files" (.record [])
  let checked ← (← fnds.items).mapM (checkFinding files required)
  return checked.filterMap id

end SourceAudit.Project
