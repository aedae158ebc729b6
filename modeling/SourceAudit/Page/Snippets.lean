import SourceAudit.Page.LineRange
import SourceAudit.Page.Markup
import SourceAudit.Page.Screen
import SourceAudit.Page.ThreatLine

/-!
# Reading the lines around threats

The lines of a source that threats name are shown with some lines around them, numbered, and with
the titles of the threats at each line.
-/

namespace SourceAudit.Page

open Outside

structure ReaderOptions where
  reach : Int := 4
  most : Int := 50

def severityRank (sev : Value) : Outcome Nat := do
  let ranks : List (String × Value) :=
    [("critical", .int 4), ("high", .int 3), ("medium", .int 2), ("low", .int 1)]
  return ((← (Value.record ranks).entry sev).whole?.getD 0).toNat

def gravest (best : Value) (rank : Nat) : List Mark → Outcome Value
  | [] => .ok best
  | mark :: tl => do
    let own ← severityRank mark.severity
    if own > rank then gravest mark.severity own tl else gravest best rank tl

def titles (marks : List Mark) : Outcome String := do
  let distinct ← marks.foldlM (fun (known : List Value) mark => do
    let title ← mark.title.asKey return if title.among known then known else known ++ [title]) []
  Value.joinTexts ", " (← Value.sorted distinct)

structure LegendEntry where
  background : String
  border : String
  word : String

def legend : List LegendEntry :=
  [{ background := "#FFE6E6", border := "#E74C3C", word := "严重" },
    { background := "#FFE8D6", border := "#E67E22", word := "高危" },
    { background := "#FFF4E6", border := "#F39C12", word := "中危" },
    { background := "#E6F7E6", border := "#27AE60", word := "低危" }]

namespace LegendEntry

def render (e : LegendEntry) : String :=
  "        <div class=\"doc-legend-item\" style=\"background:" ++ e.background ++
    ";border-color:" ++ e.border ++ ";\">" ++ e.word ++ "</div>\n"

end LegendEntry

def legendText : String :=
  "\n    <div class=\"doc-reader-legend\">\n" ++ String.join (legend.map (·.render)) ++
    "    </div>\n    "

def padded (n : Nat) : String :=
  let digits := toString n
  String.ofList (List.replicate (4 - digits.length) ' ') ++ digits

def lineText (opening : String) (n : Nat) (c : String) : String :=
  opening ++ "<span class=\"doc-line-number\">" ++ padded n ++ "</span>" ++
    "<span class=\"doc-line-content\">" ++ c ++ "</span></div>"

def snippetLine (src : List String) (marked : MarkedLines) (n : Nat) : Outcome String := do
  let c := match src[n - 1]? with
    | some ln => Markup.escape ln
    | none => ""
  match marked.at? n with
  | none => return lineText "<div class=\"doc-line\">" n c
  | some marks =>
    let sev := (← gravest (.text "low") 0 marks).plain
    let title := Markup.escape (← titles marks)
    return lineText ("<div class=\"doc-line threat-" ++ sev ++ "\" title=\"威胁: " ++ title ++
      "\">") n c

def snippetText (src : List String) (marked : MarkedLines) (number : Nat) (range : LineRange) :
    Outcome String := do
  let ls ← range.lines.mapM (snippetLine src marked)
  return s!"<div class=\"doc-snippet\"><div class=\"doc-snippet-header\">片段 {number}：" ++
    s!"第 {range.first} 行 - 第 {range.last} 行</div>" ++
    "<div class=\"doc-code\">" ++ String.join ls ++ "</div></div>"

def readerText (options : ReaderOptions) (src : List String) (marked : MarkedLines) :
    Outcome String := do
  let ls := (marked.map Prod.fst).mergeSort fun a b => decide (a ≤ b)
  let ranges := LineRange.around src.length options.reach ls
  let shown := (Slice.upTo options.most ranges).zipIdx 1
  let pieces ← shown.mapM fun (range, n) => snippetText src marked n range
  let tl := if Int.ofNat ranges.length > options.most then
      s!"<div style=\"color:#7F8C8D;font-size:12px;\">仅显示前 {options.most} 个片段。</div>"
    else ""
  return "<div class=\"doc-reader\">" ++ legendText ++ String.join pieces ++ tl ++ "</div>"

def showSnippets (opts : ReaderOptions) (source threats : Value) : Audit Unit := do
  if !source.truthy then info "未找到可展示的源代码。"
  else if !threats.truthy then info "未检测到威胁，暂无片段可显示。"
  else
    let t ← Audit.ofOutcome (source.asText "splitlines")
    let marked ← Audit.ofOutcome (markedLines threats)
    if marked.isEmpty then info "未检测到有效的威胁行号。"
    else markup (← Audit.ofOutcome (readerText opts (Str.splitLines t) marked))

end SourceAudit.Page
