import SourceAudit.Analysis.FileAnalysis
import SourceAudit.Page.Snippets

/-!
# The results of an analysis

The part of the page that shows results: the risk, the threats with their evidence and their places
in the source, what static and dynamic analysis saw, and the reports to download.
-/

namespace SourceAudit.Page

open Outside Analysis

def scrollScript : String :=
  "\n            <script>\n" ++
  "            const anchor = window.parent.document.getElementById(\"analysis-result\");\n" ++
  "            if (anchor) \x7b\n" ++
  "                setTimeout(() => \x7b\n" ++
  "                    anchor.scrollIntoView(\x7b behavior: \"smooth\", block: \"start\" \x7d);\n" ++
  "                \x7d, 50);\n" ++
  "            \x7d\n" ++
  "            </script>\n            "

def showAnchor : Audit Unit := do
  markup "<div id=\"analysis-result\"></div>"
  if (← stateOrNull "scroll_to_results").truthy then
    present .body "components.v1.html" [.text scrollScript] [("height", .int 0)]
    remember "scroll_to_results" (.bool false)

structure RiskShown where
  score : Value
  level : Value
  count : Value

def riskOf (risk : Value) : Outcome RiskShown := do
  return { score := ← risk.getD "risk_score" (.int 0)
           level := ← risk.getD "risk_level" (.text "low")
           count := ← risk.getD "threat_count" (.int 0) }

def showRisk (risk : RiskShown) : Audit Unit := do
  rule
  markdown "### 📊 风险评估概览"
  columns 3
  inColumn 1 (metric .body "风险分数" (.text (risk.score.plain ++ "/100")))
  inColumn 2 do
    let w ← Audit.ofOutcome (Report.wordOrCapitals Report.levelWords risk.level)
    markup ("### <span class='risk-" ++ risk.level.plain ++ "'>风险等级：" ++ w ++ "</span>")
  inColumn 3 (metric .body "发现威胁" risk.count)

def showBreakdown (breakdown : Value) : Audit Unit := do
  markdown "### 🎯 威胁分类统计"
  columns 4
  let n (num : Nat) (title k : String) : Audit Unit := do
    metric (.column num) title (← Audit.ofOutcome (breakdown.getD k (.int 0)))
  n 1 "严重" "critical"
  n 2 "高危" "high"
  n 3 "中危" "medium"
  n 4 "低危" "low"

def threatRow (th : Value) : Outcome Value := do
  let sev ← th.getD "severity" (.text "medium")
  let title ← th.getD "threat_type" (.text "未知")
  let w ← Report.wordOrCapitals Report.severityWords sev
  let desc ← th.getD "description" (.text "")
  let ns ← (← th.getD "line_numbers" (.list [])).items
  let ls := Str.join ", " (ns.map Value.plain)
  return .record [("威胁类型", title), ("严重程度", .text w), ("描述", desc),
    ("行号", .text (if ls.isEmpty then "N/A" else ls))]

def sourceFor (path : Value) : Audit Value := do
  if !path.truthy then needState "source_code"
  else
    let path ← Audit.ofOutcome (asLocation path)
    if ← Audit.exists? path then
      match ← Audit.attempt (Audit.readTextSkipping path) with
      | .ok t => return .text t
      | .error _ => needState "source_code"
    else needState "source_code"
where
  asLocation (p : Value) : Outcome String :=
    match p with
    | .text p => .ok p
    | other => .error (.mistyped
        s!"stat: path should be string, bytes, os.PathLike or integer, not {other.kind.name}")

def showThreats (ths p : Value) : Audit Unit := do
  rule
  markdown "### 🚨 已识别的威胁"
  let rows ← Audit.ofOutcome do (← ths.items).mapM threatRow
  dataTable rows
  let evidence ← Audit.ofOutcome (evidenceRows usualRows ths)
  if !evidence.isEmpty then
    folded "Evidence details" do
      dataTable evidence
      if Int.ofNat evidence.length ≥ usualRows then
        present .body "caption" [.text "Showing first 200 evidence rows."] []
  let src ← sourceFor p
  if src.truthy then
    folded "📖 文档阅读器（威胁片段）" (showSnippets {} src ths)

def countLine (fnds : Value) (title k unit : String) : Outcome String := do
  let count ← (← fnds.getD k (.list [])).length
  return s!"**{title}：** {count} {unit}"

def firstItems (n : Nat) (v : Value) : Outcome (List Value) := do
  (← v.leading n).items

def showMatch (f : Value) : Audit Unit := do
  let name ← Audit.ofOutcome (Report.shown f "rule_name" (.text "未知规则"))
  let line ← Audit.ofOutcome (Report.shown f "line" (.text "N/A"))
  write s!"- **{name}** (第 {line} 行)"

def matchesShown : Nat := 10

def showStatic (agg : Value) : Audit Unit := do
  let f ← Audit.ofOutcome do
    (← agg.getD "static" (.record [])).get "pattern_matches"
  if f.truthy then
    rule
    folded "📊 静态分析结果" do
      let static := agg.lookup "static"
      write (← Audit.ofOutcome (countLine static "模式匹配" "pattern_matches" "项"))
      write (← Audit.ofOutcome (countLine static "污点流" "taint_flows" "条"))
      write (← Audit.ofOutcome (countLine static "CFG 结构" "cfg_structures" "个"))
      let valid ← Audit.ofOutcome (static.getD "syntax_valid" (.bool true))
      write ("**语法检查：** " ++ (if valid.truthy then "通过" else "失败"))
      markdown "#### 模式匹配详情"
      (← Audit.ofOutcome (firstItems matchesShown f)).forM showMatch

def showRun (run : Value) : Audit Unit := do
  let status ← Audit.ofOutcome (Report.shown run "status" (.text "ran"))
  let reason ← Audit.ofOutcome (run.getD "reason" (.text ""))
  let file ← Audit.ofOutcome (Report.shown run "source_file" (.text ""))
  let cmd ← Audit.ofOutcome (run.getD "command" (.text ""))
  write (s!"{file} ({status})" ++ (if reason.truthy then ": " ++ reason.plain else ""))
  if cmd.truthy then code cmd

def showNetwork (activity : Value) : Audit Unit := do
  let k ← Audit.ofOutcome (activity.getD "type" (.text "unknown"))
  let word := match k with
    | .text "connect" => "连接"
    | .text "bind" => "绑定"
    | other => other.plain
  let target ← Audit.ofOutcome (Report.shown activity "target" (.text "N/A"))
  write s!"- **{word}** 到 {target}"

def showFuzz (trial : Value) : Audit Unit := do
  let input ← Audit.ofOutcome (Report.shown trial "test_input" (.text ""))
  let status ← Audit.ofOutcome (Report.shown trial "return_code" (.text ""))
  let late ← Audit.ofOutcome (Report.shown trial "timed_out" (.bool false))
  let crashed ← Audit.ofOutcome (Report.shown trial "crashed" (.bool false))
  write s!"- 输入: \x60{input}\x60 | 返回码: {status} | 超时: {late} | 崩溃: {crashed}"

def callsShown : Nat := 20

def trialsShown : Nat := 10

structure DynamicShown where
  calls : Value
  networks : Value
  trials : Value
  files : Value
  memory : Value
  runs : Value

def dynamicOf (dynamic runs : Value) : Outcome DynamicShown := do
  return { calls := ← dynamic.getD "syscalls" (.list [])
           networks := ← dynamic.getD "network_activities" (.list [])
           trials := ← dynamic.getD "fuzz_results" (.list [])
           files := ← dynamic.getD "file_activities" (.list [])
           memory := ← dynamic.getD "memory_findings" (.list [])
           runs }

namespace DynamicShown

def isEmpty (seen : DynamicShown) : Bool :=
  [seen.calls, seen.networks, seen.trials, seen.files, seen.memory, seen.runs].all fun value =>
    !value.truthy

end DynamicShown

def showCounts (seen : DynamicShown) : Audit Unit := do
  columns 5
  let n (num : Nat) (title : String) (v : Value) : Audit Unit := do
    metric (.column num) title (.ofNat (← Audit.ofOutcome v.length))
  n 1 "系统调用" seen.calls
  n 2 "网络活动" seen.networks
  n 3 "文件活动" seen.files
  n 4 "内存检测" seen.memory
  n 5 "模糊测试" seen.trials

def showDynamic (seen : DynamicShown) : Audit Unit := do
  if seen.isEmpty then return
  rule
  folded "🌐 动态分析结果" do
    showCounts seen
    if seen.runs.truthy then
      folded "Dynamic monitor details" do
        (← Audit.ofOutcome seen.runs.items).forM showRun
    if seen.networks.truthy then
      markdown "#### 网络活动详情"
      (← Audit.ofOutcome seen.networks.items).forM showNetwork
    if seen.calls.truthy then
      markdown "#### 系统调用（前20条）"
      (← Audit.ofOutcome (firstItems callsShown seen.calls)).forM code
    if seen.trials.truthy then
      markdown "#### 模糊测试结果（前10条）"
      (← Audit.ofOutcome (firstItems trialsShown seen.trials)).forM showFuzz

def reportName (k : ReportKind) : String :=
  "report." ++ k.extension

def freshReport (res p : Value) (k : ReportKind) : Outcome (String × String) := do
  let data ← Report.singleData (← res.getD "file_path" (.text "unknown")) res
  let c ← k.render Moment.current data
  let nm ← if p.truthy then Report.nameOf p else .ok (reportName k)
  return (c, nm)

def reportFor (res reports : Value) (k : ReportKind) : Audit (Option (String × String)) := do
  let p ← Audit.ofOutcome (reports.get k.name)
  let saved ← if p.truthy then Audit.exists? (← Audit.ofOutcome (sourceFor.asLocation p))
    else pure false
  if saved then return some (← Audit.readText p.plain, Path.name p.plain)
  match freshReport res p k with
  | .ok rep => return some rep
  | .error _ => return none

def mediaType : ReportKind → String
  | .json => "application/json"
  | .html => "text/html"
  | .markdown => "text/markdown"

def downloadTitle : ReportKind → String
  | .json => "Download JSON report"
  | .html => "Download HTML report"
  | .markdown => "Download Markdown report"

def offerReport (res reports : Value) (col : Nat) (k : ReportKind) : Audit Unit := do
  match ← reportFor res reports k with
  | none => return
  | some (c, nm) =>
    if c.isEmpty then return
    present (.column col) "download_button" []
      [("label", .text (downloadTitle k)), ("data", .text c),
        ("file_name", .text nm), ("mime", .text (mediaType k))]

def showReports (res : Value) : Audit Unit := do
  rule
  markdown "### 📥 下载报告"
  let reports ← Audit.ofOutcome (res.getD "reports" (.record []))
  columns 3
  offerReport res reports 1 .json
  offerReport res reports 2 .html
  offerReport res reports 3 .markdown

def showResults (res p : Value) : Audit Unit := do
  showAnchor
  let risk ← Audit.ofOutcome (res.getD "risk_assessment" (.record []))
  let ths ← Audit.ofOutcome (res.getD "threats" (.list []))
  let agg ← Audit.ofOutcome (res.getD "aggregated_results" (.record []))
  showRisk (← Audit.ofOutcome (riskOf risk))
  showBreakdown (← Audit.ofOutcome (risk.getD "breakdown" (.record [])))
  if ths.truthy then showThreats ths p
  else present .body "success" [.text "✅ 未检测到威胁！代码相对安全。"] []
  showStatic agg
  let dynamic ← Audit.ofOutcome (agg.getD "dynamic" (.record []))
  let details ← Audit.ofOutcome (res.getD "dynamic_results" (.record []))
  let runs ← Audit.ofOutcome ((details.orElse (.record [])).getD "execution_logs" (.list []))
  showDynamic (← Audit.ofOutcome (dynamicOf dynamic (runs.orElse (.list []))))
  showReports res

end SourceAudit.Page
