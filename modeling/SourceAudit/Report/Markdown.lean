import SourceAudit.Report.Document

/-!
# Reports in Markdown

A report on one file in Markdown. For a batch there are only the sections before the one on the
findings of models; that one refers to findings which this form of report does not carry, so that no
such report is ever completed.
-/

namespace SourceAudit.Report.Markdown

open Outside

def cellText (v : Value) : String :=
  match v with
  | .null => ""
  | other =>
    Str.replace "\r" " " (Str.replace "\n" " " (Str.replace "|" "\\|" other.plain))

def row (cells : List String) : String :=
  "| " ++ " | ".intercalate cells ++ " |\n"

def link (addr : Value) : String :=
  if addr.truthy then "[" ++ addr.plain ++ "](" ++ addr.plain ++ ")" else ""

def vulnerabilityCells (f addr : Value) : Outcome (List String) := do
  let nm ← f.getD "cve_id" (.text "N/A")
  let desc ← f.getD "description" (.text "")
  let sev ← f.getD "severity" (.text "unknown")
  let fixed ← f.getD "fixed_version" (.text "")
  let src ← f.getD "source" (.text "")
  return [nm, desc, sev, fixed, src].map cellText ++ [link addr]

def vulnerabilityTitles : List String :=
  ["CVE ID", "描述", "严重程度", "修复版本", "来源", "参考链接"]

def staticRow (file : Value) : Outcome String := do
  let sum ← summaryFor file (← resultOf file) "static_summary" staticSummaryOf
  let label ← labelOf file
  let counts ← ["pattern_matches", "taint_flows", "cfg_structures", "cve_matches"].mapM
    (shownCount sum)
  return row (label :: counts ++ [← syntaxWord sum])

def dynamicRow (file : Value) : Outcome String := do
  let sum ← summaryFor file (← resultOf file) "dynamic_summary" dynamicSummaryOf
  let label ← labelOf file
  let counts ← ["syscalls", "network_activities", "file_activities", "memory_findings",
    "fuzz_results"].mapM (shownCount sum)
  return row (label :: counts)

def batchVulnerabilities (files : List Value) : Outcome (List String) := do
  let rows ← files.mapM fun file => do
    (← vulnerabilities file).mapM fun f => do
      let addr ← f.getD "reference_url" (.text "")
      let label ← labelOf file
      return row (cellText (.text label) :: (← vulnerabilityCells f addr))
  return rows.flatten

def byFile (ths : List Value) : Outcome (List (Value × List Value)) :=
  ths.foldlM
    (fun known th => do
      let file ← (← th.getD "source_file" (.text "unknown")).asKey
      if known.any fun e => e.1.alike file then
        return known.map fun e =>
          if e.1.alike file then (e.1, e.2 ++ [th]) else e
      else return known ++ [(file, [th])])
    []

def threatLine (th : Value) : Outcome String := do
  let sev ← th.getD "severity" (.text "medium")
  let word ← wordFor severityWords sev sev
  let lines ← lineList th
  let kind ← shown th "threat_type" (.text "unknown")
  return s!"- {kind} ({word}) 行号: {lines}\n"

def batchThreats (nms : List (Value × Value)) (threats : Value) : Outcome String := do
  if !threats.truthy then return "未发现威胁。\n"
  let groups ← byFile (← threats.items)
  let blocks ← groups.mapM fun (file, xs) => do
    let label ← labelIn nms file
    return "### " ++ label ++ "\n" ++ String.join (← xs.mapM threatLine) ++ "\n"
  return String.join blocks

def batchSections (data : Value) : Outcome String := do
  let sum ← data.getD "summary" (.record [])
  let risk ← data.getD "overall_risk" (.record [])
  let files ← data.getD "file_results" (.list [])
  let ths ← data.getD "aggregated_threats" (.list [])
  let (score, level) ← averages risk
  let total ← shownCount sum "total_files"
  let successful ← shownCount sum "successful"
  let failed ← shownCount sum "failed"
  let totalThreats ← shownCount sum "total_threats"
  let score ← twoPlaces score
  let files ← files.items
  let nms ← displayNames files
  let staticRows ← files.mapM staticRow
  let vulnerabilityRows ← batchVulnerabilities files
  let dynamicRows ← files.mapM dynamicRow
  let ths ← batchThreats nms ths
  let vulns :=
    if vulnerabilityRows.isEmpty then ""
    else "\n## CVE 匹配详情\n" ++ row ("文件" :: vulnerabilityTitles) ++ "|---|---|---|---|---|---|---|\n" ++
      String.join vulnerabilityRows
  return "# " ++ toolName ++ " 批量分析报告\n\n## 汇总\n\n" ++
    s!"- 总文件数: {total}\n- 成功: {successful}\n- 失败: {failed}\n- 威胁总数: {totalThreats}\n" ++
    s!"- 平均风险分数: {score}/100\n- 平均风险等级: {level}\n\n" ++
    "## 静态分析汇总\n\n" ++ row ["文件", "模式匹配", "污点流", "CFG", "CVE", "语法检查"] ++
    "|---|---:|---:|---:|---:|---|\n" ++ String.join staticRows ++ vulns ++
    "\n## 动态分析汇总\n\n" ++ row ["文件", "系统调用", "网络活动", "文件活动", "内存分析", "模糊测试"] ++
    "|---|---:|---:|---:|---:|---:|\n" ++ String.join dynamicRows ++
    "\n## 按文件汇总的威胁\n\n" ++ ths

def batch (data : Value) : Outcome String := do
  let _ ← batchSections data
  throw (.undefinedName "ai_threats")

def evidenceShown : Nat := 3

def evidenceText (evidence : Value) : Outcome String := do
  if !evidence.truthy then return ""
  let pieces ← (← (← evidence.leading evidenceShown).items).zipIdx.mapM fun (piece, position) => do
    let content ← Json.indented piece
    return s!"{position + 1}. \x60\x60\x60json\n{content}\n\x60\x60\x60\n\n"
  return "**证据信息：**\n\n" ++ String.join pieces

def threatBlock (number : Nat) (th : Value) : Outcome String := do
  let kind ← shown th "threat_type" (.text "未知")
  let severity ← wordOrCapitals severityWords (← th.getD "severity" (.text "medium"))
  let description ← shown th "description" (.text "")
  let lines ← lineList th
  let ev ← evidenceText (← th.getD "evidence" (.list []))
  return s!"### {number}. {kind}\n\n- **严重程度：** {severity}\n- **描述：** {description}\n" ++
    s!"- **行号：** {lines}\n\n" ++ ev

def threatSection (threats : Value) : Outcome String := do
  if !threats.truthy then return "**未检测到威胁！代码相对安全。**\n\n"
  let blocks ← (← threats.items).zipIdx.mapM fun (th, pos) =>
    threatBlock (pos + 1) th
  return String.join blocks

def countLine (sum : Value) (title k unit : String) : Outcome String := do
  return "- **" ++ title ++ "：** " ++ (← shownCount sum k) ++ " " ++ unit ++ "\n"

def networkSection (dynamic : Value) : Outcome String := do
  let activities ← dynamic.get "network_activities"
  if !activities.truthy then return ""
  let xs ← (← activities.items).mapM fun activity => do
    let w ← activityWord activity
    return "- **" ++ w ++ "** 到 " ++ (← shown activity "target" (.text "N/A")) ++ "\n"
  return "### 网络活动详情\n\n" ++ String.join xs ++ "\n"

def single (m : Moment) (data : Value) : Outcome String := do
  let p ← shown data "file_path" (.text "未知文件")
  let ths ← data.getD "threats" (.list [])
  let risk ← data.getD "risk_assessment" (.record [])
  let agg ← data.getD "aggregated_results" (.record [])
  let score ← shownCount risk "risk_score"
  let level ← risk.getD "risk_level" (.text "low")
  let n ← shownCount risk "threat_count"
  let breakdown ← risk.getD "breakdown" (.record [])
  let srcs ← sourcesOf data agg
  let dynamic := srcs.dynamic.orElse (.record [])
  let level ← wordOrCapitals levelWords level
  let critical ← shownCount breakdown "critical"
  let high ← shownCount breakdown "high"
  let medium ← shownCount breakdown "medium"
  let low ← shownCount breakdown "low"
  let ths ← threatSection ths
  let static := srcs.staticSummary
  let staticLines := [← countLine static "模式匹配" "pattern_matches" "项",
    ← countLine static "污点流" "taint_flows" "条", ← countLine static "CFG 结构" "cfg_structures" "个",
    ← countLine static "CVE 匹配" "cve_matches" "项",
    "- **语法检查：** " ++ (← syntaxWord static) ++ "\n\n"]
  let vulnerabilityRows ← (← vulnerabilities srcs.static).mapM fun f => do
    let addr ← f.getD "reference_url" (.text "")
    return row (← vulnerabilityCells f addr)
  let vulns :=
    if vulnerabilityRows.isEmpty then ""
    else "\n### CVE 匹配详情\n" ++ row vulnerabilityTitles ++ "|---|---|---|---|---|---|\n" ++
      String.join vulnerabilityRows ++ "\n"
  let sum := srcs.dynamicSummary
  let dynamicLines := [← countLine sum "系统调用" "syscalls" "条",
    ← countLine sum "网络活动" "network_activities" "条", ← countLine sum "文件活动" "file_activities" "条",
    ← countLine sum "内存分析" "memory_findings" "条", ← countLine sum "模糊测试" "fuzz_results" "条"]
  let network ← networkSection dynamic
  return "# " ++ toolName ++ " 安全分析报告\n\n## 报告信息\n\n" ++
    "- **分析文件：** " ++ p ++ "\n- **生成时间：** " ++ m.spelled ++
    "\n- **工具版本：** " ++ toolName ++ " v1.0\n\n---\n\n" ++
    "## 风险评估概览\n\n### 风险分数\n\n**" ++ score ++ "/100** - 风险等级：**" ++ level ++
    "**\n\n### 威胁统计\n\n| 严重程度 | 数量 |\n|---------|------|\n" ++
    row ["严重", critical] ++ row ["高危", high] ++ row ["中危", medium] ++ row ["低危", low] ++
    row ["**总计**", "**" ++ n ++ "**"] ++ "\n---\n\n## 已识别的威胁\n\n" ++ ths ++
    "---\n\n## 静态分析结果\n\n" ++ String.join staticLines ++ vulns ++
    "---\n\n## 动态分析结果\n\n" ++ String.join dynamicLines ++ "\n" ++ network ++
    "---\n\n## 报告说明\n\n本报告由 " ++ toolName ++ " 安全检测系统自动生成。\n\n**风险等级说明：**\n" ++
    "- **0-19 分（低）**：代码相对安全，只有少量低危问题\n" ++
    "- **20-49 分（中）**：存在中等风险，建议审查\n" ++
    "- **50-79 分（高）**：存在高风险，需要立即处理\n" ++
    "- **80-100 分（严重）**：存在严重安全威胁，必须修复\n\n---\n\n" ++
    "*报告生成时间：" ++ m.spelled ++ "*\n"

def text (m : Moment) (data : Value) : Outcome String := do
  if ← isBatch data then batch data else single m data

end SourceAudit.Report.Markdown
