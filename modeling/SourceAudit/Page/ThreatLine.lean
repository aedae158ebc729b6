import SourceAudit.Value.Arithmetic

/-!
# Lines with threats

Which lines of a source the threats name, and the pieces of evidence as the rows of a table.
-/

namespace SourceAudit.Page

structure Mark where
  title : Value
  severity : Value

namespace Mark

def toValue (mark : Mark) : Value :=
  .record [("type", mark.title), ("severity", mark.severity)]

end Mark

abbrev MarkedLines := List (Int × List Mark)

namespace MarkedLines

def add (ln : Int) (mark : Mark) : MarkedLines → MarkedLines
  | [] => [(ln, [mark])]
  | e :: tl =>
    if e.1 = ln then (ln, e.2 ++ [mark]) :: tl else e :: add ln mark tl

def at? (ln : Int) (marked : MarkedLines) : Option (List Mark) :=
  (marked.find? fun e => e.1 == ln).map Prod.snd

def toValue (marked : MarkedLines) : Value :=
  .table (marked.map fun (ln, marks) => (.int ln, .list (marks.map (·.toValue))))

end MarkedLines

def lineOf (v : Value) : Outcome (Option Int) :=
  match v.toInteger with
  | .ok ln => .ok (if ln ≤ 0 then none else some ln)
  | .error err =>
    if err.family == .type || err.family.isValue then .ok none else .error err

def markLines (marked : MarkedLines) (th : Value) : Outcome MarkedLines := do
  let severity ← th.getD "severity" (.text "medium")
  let title ← th.getD "threat_type" (.text "未知")
  let ns ← ((← th.getD "line_numbers" (.list [])).orElse (.list [])).items
  ns.foldlM (fun marked n => do
    match ← lineOf n with
    | some ln => return MarkedLines.add ln { title, severity } marked
    | none => return marked) marked

def markedLines (ths : Value) : Outcome MarkedLines := do
  (← ths.items).foldlM markLines []

def evidenceRow (title sev ev : Value) : Outcome Value := do
  return .record [("Threat", title), ("Severity", sev),
    ("File", ← ev.getD "file" (.text "")), ("Line", ← ev.getD "line" (.text "")),
    ("Snippet", ← ev.getD "snippet" (.text ""))]

def rowsOfThreat (most : Int) (title sev : Value) (rows : List Value) :
    List Value → Outcome (List Value × Bool)
  | [] => .ok (rows, false)
  | ev :: tl => do
    let rows := rows ++ [← evidenceRow title sev ev]
    if Int.ofNat rows.length ≥ most then return (rows, true)
    rowsOfThreat most title sev rows tl

def rowsOfThreats (most : Int) (rows : List Value) : List Value → Outcome (List Value)
  | [] => .ok rows
  | th :: tl => do
    let title ← th.getD "threat_type" (.text "Unknown")
    let sev ← th.getD "severity" (.text "medium")
    let ev ← ((← th.getD "evidence" (.list [])).orElse (.list [])).items
    let (rows, full) ← rowsOfThreat most title sev rows ev
    if full then return rows
    rowsOfThreats most rows tl

def usualRows : Int := 200

def evidenceRows (most : Int) (ths : Value) : Outcome (List Value) := do
  rowsOfThreats most [] (← ths.items)

end SourceAudit.Page
