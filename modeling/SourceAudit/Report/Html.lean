import SourceAudit.Report.Document

/-!
# Reports as pages

A report as a page of markup, of one file or of a batch. Texts of findings stand in the page as they
are.
-/

namespace SourceAudit.Report.Html

open Outside

structure StyleRule where
  selector : String
  properties : List (String × String)
deriving DecidableEq, Repr

namespace StyleRule

def compact (rl : StyleRule) : String :=
  let properties := rl.properties.map fun (P, v) => P ++ ": " ++ v ++ ";"
  rl.selector ++ " \x7b " ++ " ".intercalate properties ++ " \x7d"

def spread (rl : StyleRule) : List String :=
  ["        " ++ rl.selector ++ " \x7b"] ++
    (rl.properties.map fun (P, v) =>
      "            " ++ P ++ ": " ++ v ++ ";") ++
    ["        \x7d"]

end StyleRule

def batchStyle : List StyleRule :=
  [ { selector := "body"
      properties := [("font-family", "\"Microsoft YaHei\", \"SimHei\", Arial, sans-serif"),
        ("margin", "20px")] },
    { selector := "table"
      properties := [("border-collapse", "collapse"), ("width", "100%"),
        ("margin-bottom", "18px")] },
    { selector := "th, td"
      properties := [("border", "1px solid #ddd"), ("padding", "8px"), ("text-align", "left")] },
    { selector := "th"
      properties := [("background", "#f4f4f4")] } ]

def singleStyle : List StyleRule :=
  [ { selector := "body"
      properties := [("font-family", "\"Microsoft YaHei\", \"SimHei\", Arial, sans-serif"),
        ("margin", "20px"), ("background-color", "#F0F4F8")] },
    { selector := ".container"
      properties := [("max-width", "1200px"), ("margin", "0 auto"), ("background-color", "white"),
        ("padding", "30px"), ("border-radius", "8px"),
        ("box-shadow", "0 2px 8px rgba(74, 144, 164, 0.15)")] },
    { selector := "h1"
      properties := [("color", "#2C3E50"), ("border-bottom", "3px solid #4A90A4"),
        ("padding-bottom", "10px")] },
    { selector := "h2"
      properties := [("color", "#34495E"), ("margin-top", "30px")] },
    { selector := ".risk-score"
      properties := [("text-align", "center"), ("padding", "30px"), ("margin", "20px 0"),
        ("background", "linear-gradient(135deg, #4A90A4 0%, #6B9BD1 100%)"), ("color", "white"),
        ("border-radius", "8px"), ("font-size", "48px"), ("font-weight", "bold"),
        ("box-shadow", "0 4px 6px rgba(74, 144, 164, 0.2)")] },
    { selector := ".risk-level"
      properties := [("font-size", "24px"), ("margin-top", "10px")] },
    { selector := ".summary"
      properties := [("display", "grid"),
        ("grid-template-columns", "repeat(auto-fit, minmax(200px, 1fr))"), ("gap", "15px"),
        ("margin", "20px 0")] },
    { selector := ".summary-card"
      properties := [("background-color", "#F8FBFC"), ("padding", "15px"),
        ("border-radius", "5px"), ("border-left", "4px solid #4A90A4"),
        ("box-shadow", "0 2px 4px rgba(74, 144, 164, 0.1)")] },
    { selector := ".summary-card h3"
      properties := [("margin", "0 0 10px 0"), ("color", "#2C3E50")] },
    { selector := ".summary-card .value"
      properties := [("font-size", "32px"), ("font-weight", "bold"), ("color", "#4A90A4")] },
    { selector := "table"
      properties := [("width", "100%"), ("border-collapse", "collapse"), ("margin", "20px 0"),
        ("border", "1px solid #B8D4E3"), ("border-radius", "6px"), ("overflow", "hidden")] },
    { selector := "th, td"
      properties := [("padding", "12px"), ("text-align", "left"),
        ("border-bottom", "1px solid #B8D4E3")] },
    { selector := "th"
      properties := [("background-color", "#4A90A4"), ("color", "white")] },
    { selector := "tr:hover"
      properties := [("background-color", "#F0F4F8")] },
    { selector := ".severity-critical"
      properties := [("color", "#E74C3C"), ("font-weight", "bold"),
        ("background-color", "#FDE8E8"), ("padding", "4px 8px"), ("border-radius", "4px")] },
    { selector := ".severity-high"
      properties := [("color", "#E67E22"), ("font-weight", "bold"),
        ("background-color", "#FDF0E8"), ("padding", "4px 8px"), ("border-radius", "4px")] },
    { selector := ".severity-medium"
      properties := [("color", "#F39C12"), ("background-color", "#FEF5E7"),
        ("padding", "4px 8px"), ("border-radius", "4px")] },
    { selector := ".severity-low"
      properties := [("color", "#27AE60"), ("background-color", "#E8F8F0"),
        ("padding", "4px 8px"), ("border-radius", "4px")] },
    { selector := ".evidence"
      properties := [("background-color", "#F8FBFC"), ("padding", "10px"), ("margin", "5px 0"),
        ("border-radius", "4px"), ("font-family", "\"Consolas\", \"Monaco\", monospace"),
        ("font-size", "12px"), ("border-left", "3px solid #6B9BD1")] },
    { selector := ".timestamp"
      properties := [("color", "#6c757d"), ("font-size", "12px"), ("margin-top", "20px"),
        ("text-align", "center")] } ]

def joinLines (ls : List String) : String :=
  "\n".intercalate ls

def cell (c : String) : String :=
  "<td>" ++ c ++ "</td>"

def row (cells : List String) : String :=
  "<tr>" ++ String.join (cells.map cell) ++ "</tr>"

def headRow (titles : List String) : String :=
  "<tr>" ++ String.join (titles.map fun title => "<th>" ++ title ++ "</th>") ++ "</tr>"

def table (titles rows : List String) : String :=
  "<table><thead>" ++ headRow titles ++ "</thead><tbody>" ++ String.join rows ++
    "</tbody></table>"

def heading (title : String) : String :=
  "<h2>" ++ title ++ "</h2>"

def tallHead (indent : String) (titles : List String) : List String :=
  [indent ++ "<table>", indent ++ "    <thead>", indent ++ "        <tr>"] ++
    (titles.map fun title => indent ++ "            <th>" ++ title ++ "</th>") ++
    [indent ++ "        </tr>", indent ++ "    </thead>", indent ++ "    <tbody>"]

def tallFoot (indent : String) : List String :=
  [indent ++ "    </tbody>", indent ++ "</table>"]

def vulnerabilityCells (f : Value) : Outcome (List String) := do
  let nm ← shown f "cve_id" (.text "N/A")
  let desc ← shown f "description" (.text "")
  let sev ← shown f "severity" (.text "unknown")
  let fixed ← shown f "fixed_version" (.text "")
  let src ← shown f "source" (.text "")
  let link ← shown f "reference_url" (.text "")
  return [nm, desc, sev, fixed, src, "<a href=\"" ++ link ++ "\">" ++ link ++ "</a>"]

def vulnerabilityTitles : List String :=
  ["CVE ID", "描述", "严重程度", "修复版本", "来源", "参考链接"]

def titledTable (title : String) (titles rows : List String) : String :=
  if rows.isEmpty then "" else heading title ++ table titles rows

def fileRows (file : Value) : Outcome (String × String) := do
  let r ← resultOf file
  let static ← summaryFor file r "static_summary" staticSummaryOf
  let dynamic ← summaryFor file r "dynamic_summary" dynamicSummaryOf
  let label ← labelOf file
  let counts ← ["pattern_matches", "taint_flows", "cfg_structures", "cve_matches"].mapM
    (shownCount static)
  let staticRow := row (label :: counts ++ [← syntaxWord static])
  let counts ← ["syscalls", "network_activities", "file_activities", "memory_findings",
    "fuzz_results"].mapM (shownCount dynamic)
  return (staticRow, row (label :: counts))

def threatCells (nms : List (Value × Value)) (unknown : String) (th : Value) :
    Outcome (List String) := do
  let ls ← lineList th
  let label ← labelIn nms (← th.getD "source_file" (.text ""))
  let k ← shown th "threat_type" (.text unknown)
  let sev ← th.getD "severity" (.text "medium")
  return [label, k, ← wordFor severityWords sev sev, ls]

def modelRow (nms : List (Value × Value)) (th : Value) : Outcome String := do
  let cells ← threatCells nms "Unknown" th
  let conf ← th.getD "confidence" (.float (Double.ofNat 0))
  return row (cells ++ [← twoPlaces conf])

def modelTable (nms : List (Value × Value)) (data : Value) : Outcome String := do
  let ths := (← data.getD "ai_threats" (.list [])).orElse (.list [])
  let sum := (← data.getD "ai_summary" (.record [])).orElse (.record [])
  let rows ← (← ths.items).mapM (modelRow nms)
  let title := "AI Findings"
  if !rows.isEmpty then
    return titledTable title ["File", "Type", "Severity", "Lines", "Confidence"] rows
  if (← sum.get "skipped").truthy then
    let reason ← shown sum "reason" (.text "unknown")
    return heading title ++ "<p>AI skipped: " ++ reason ++ "</p>"
  let error ← sum.get "error"
  if error.truthy then return heading title ++ "<p>AI error: " ++ error.plain ++ "</p>"
  return ""

def batchVulnerabilities (files : List Value) : Outcome (List String) := do
  let rows ← files.mapM fun file => do
    (← vulnerabilities file).mapM fun f => do
      let label ← labelOf file
      return row (label :: (← vulnerabilityCells f))
  return rows.flatten

def batchPage (data : Value) : Outcome String := do
  let sum ← data.getD "summary" (.record [])
  let risk ← data.getD "overall_risk" (.record [])
  let files ← data.getD "file_results" (.list [])
  let ths ← data.getD "aggregated_threats" (.list [])
  let (score, level) ← averages risk
  let files ← files.items
  let nms ← displayNames files
  let rows ← files.mapM fileRows
  let threatRows ← (← ths.items).mapM fun th => do
    return row (← threatCells nms "未知" th)
  let vulns := titledTable "CVE 匹配详情" ("文件" :: vulnerabilityTitles)
    (← batchVulnerabilities files)
  let threatTable :=
    if threatRows.isEmpty then "<p>未发现威胁。</p>"
    else table ["文件", "威胁类型", "严重程度", "行号"] threatRows
  let modelTable ← modelTable nms data
  let total ← shownCount sum "total_files"
  let successful ← shownCount sum "successful"
  let failed ← shownCount sum "failed"
  let totalThreats ← shownCount sum "total_threats"
  let score ← twoPlaces score
  let title := toolName ++ " 批量分析报告"
  let indent := "        "
  return joinLines (["<!DOCTYPE html>", "    <html lang=\"zh-CN\">", "    <head>",
    "        <meta charset=\"UTF-8\">",
    "        <meta name=\"viewport\" content=\"width=device-width, initial-scale=1.0\">",
    "        <title>" ++ title ++ "</title>", "        <style>"] ++
    (batchStyle.map fun rl => "            " ++ rl.compact) ++ ["        </style>", "    </head>",
    "    <body>", "        <h1>" ++ title ++ "</h1>", "        <h2>汇总</h2>", "        <ul>",
    "            <li>总文件数: " ++ total ++ "</li>", "            <li>成功: " ++ successful ++ "</li>",
    "            <li>失败: " ++ failed ++ "</li>",
    "            <li>威胁总数: " ++ totalThreats ++ "</li>",
    "            <li>平均风险分数: " ++ score ++ "/100</li>",
    "            <li>平均风险等级: " ++ level ++ "</li>", "        </ul>", "        <h2>静态分析汇总</h2>"] ++
    tallHead indent ["文件", "模式匹配", "污点流", "CFG", "CVE", "语法检查"] ++
    ["                " ++ String.join (rows.map Prod.fst)] ++ tallFoot indent ++
    ["        " ++ vulns, "        <h2>动态分析汇总</h2>"] ++
    tallHead indent ["文件", "系统调用", "网络活动", "文件活动", "内存分析", "模糊测试"] ++
    ["                " ++ String.join (rows.map Prod.snd)] ++ tallFoot indent ++
    ["        <h2>按文件汇总的威胁</h2>", "        " ++ threatTable, "        " ++ modelTable,
    "    </body>", "    </html>"])

def card (title color v : String) : List String :=
  let style := if color.isEmpty then "" else " style=\"color: " ++ color ++ ";\""
  ["            <div class=\"summary-card\">", "                <h3>" ++ title ++ "</h3>",
    "                <div class=\"value\"" ++ style ++ ">" ++ v ++ "</div>", "            </div>"]

def threatRow (th : Value) : Outcome String := do
  let k ← shown th "threat_type" (.text "未知")
  let sev ← th.getD "severity" (.text "medium")
  let desc ← shown th "description" (.text "")
  let ls ← lineList th
  let w ← wordOrCapitals severityWords sev
  return joinLines ["", "                <tr>",
    "                    <td><strong>" ++ k ++ "</strong></td>",
    "                    <td class=\"severity-" ++ sev.plain ++ "\">" ++ w ++ "</td>",
    "                    <td>" ++ desc ++ "</td>", "                    <td>" ++ ls ++ "</td>",
    "                </tr>", ""]

def countRow (title v : String) : String :=
  "                " ++ row [title, v]

def networkList (dynamic : Value) : Outcome String := do
  let activities ← dynamic.get "network_activities"
  if !activities.truthy then return ""
  let xs ← (← activities.items).mapM fun activity => do
    let w ← activityWord activity
    return "<li>" ++ w ++ ": " ++ (← shown activity "target" (.text "N/A")) ++ "</li>"
  return "<h3>网络活动详情</h3><ul>" ++ String.join xs ++ "</ul>"

def evidenceShown : Nat := 5

def evidenceBlock (number : Nat) (th : Value) : Outcome String := do
  let kind ← shown th "threat_type" (.text "未知")
  let ev ← (← th.getD "evidence" (.list [])).leading evidenceShown
  let pieces ← (← ev.items).mapM fun piece => do
    return "<div>" ++ (← Json.indented piece) ++ "</div><br>"
  return joinLines ["", s!"        <h3>{number}. {kind}</h3>", "        <div class=\"evidence\">",
    String.join pieces, "        </div>", ""]

def singleHead (score level n : String) (breakdown : String → Outcome String) :
    Outcome String := do
  let title := toolName ++ " 安全分析报告"
  let critical ← breakdown "critical"
  let high ← breakdown "high"
  let medium ← breakdown "medium"
  let low ← breakdown "low"
  return joinLines (["<!DOCTYPE html>", "<html lang=\"zh-CN\">", "<head>",
    "    <meta charset=\"UTF-8\">",
    "    <meta name=\"viewport\" content=\"width=device-width, initial-scale=1.0\">",
    "    <title>" ++ title ++ "</title>", "    <style>"] ++ singleStyle.flatMap StyleRule.spread ++
    ["    </style>", "</head>", "<body>", "    <div class=\"container\">",
    "        <h1>" ++ title ++ "</h1>", "        ", "        <div class=\"risk-score\">",
    "            风险分数：" ++ score ++ "/100",
    "            <div class=\"risk-level\">风险等级：" ++ level ++ "</div>", "        </div>",
    "        ", "        <div class=\"summary\">"] ++
    card "威胁总数" "" n ++ card "严重" "#E74C3C" critical ++ card "高危" "#E67E22" high ++
    card "中危" "#F39C12" medium ++ card "低危" "#27AE60" low ++ ["        </div>", "        ",
    "        <h2>已识别的威胁</h2>"] ++ tallHead "        " ["威胁类型", "严重程度", "描述", "行号"] ++ [""])

def countTable (rows : List String) : List String :=
  tallHead "        " ["指标", "数量"] ++ [""] ++ rows ++ [""] ++ tallFoot "        "

def singlePage (m : Moment) (data : Value) : Outcome String := do
  let ths ← data.getD "threats" (.list [])
  let risk ← data.getD "risk_assessment" (.record [])
  let agg := (← data.getD "aggregated_results" (.record [])).orElse (.record [])
  let srcs ← sourcesOf data agg
  let dynamic := srcs.dynamic.orElse (.record [])
  let vulnerabilityRows ← (← vulnerabilities srcs.static).mapM fun f => do
    return row (← vulnerabilityCells f)
  let score ← shownCount risk "risk_score"
  let level ← (← risk.getD "risk_level" (.text "low")).asKey
  let n ← shownCount risk "threat_count"
  let levelWord ← wordOrCapitals levelWords level
  let head ← singleHead score levelWord n fun k => do
    shownCount (← risk.getD "breakdown" (.record [])) k
  let ths ← ths.items
  let threatRows ← ths.mapM threatRow
  let static := srcs.staticSummary
  let staticRows := [countRow "模式匹配" (← shownCount static "pattern_matches"),
    countRow "污点流" (← shownCount static "taint_flows"),
    countRow "CFG 结构" (← shownCount static "cfg_structures"),
    countRow "CVE 匹配" (← shownCount static "cve_matches"), countRow "语法检查" (← syntaxWord static)]
  let sum := srcs.dynamicSummary
  let dynamicRows := [countRow "系统调用" (← shownCount sum "syscalls"),
    countRow "网络活动" (← shownCount sum "network_activities"),
    countRow "文件活动" (← shownCount sum "file_activities"),
    countRow "内存分析" (← shownCount sum "memory_findings"),
    countRow "模糊测试" (← shownCount sum "fuzz_results")]
  let network ← networkList dynamic
  let ev ← ths.zipIdx.mapM fun (th, pos) =>
    evidenceBlock (pos + 1) th
  let fnds := joinLines (["", "            </tbody>", "        </table>", "",
    "        <h2>静态分析结果</h2>"] ++ countTable staticRows ++ ["",
    "        " ++ titledTable "CVE 匹配详情" vulnerabilityTitles vulnerabilityRows,
    "        <h2>动态分析结果</h2>"] ++ countTable dynamicRows ++ [""])
  let foot := joinLines ["", "        <div class=\"timestamp\">",
    "            报告生成时间：" ++ m.spelled, "        </div>", "    </div>", "</body>", "</html>", ""]
  return head ++ String.join threatRows ++ fnds ++ network ++
    joinLines ["", "        <h2>详细证据</h2>", ""] ++ String.join ev ++ foot

def page (m : Moment) (data : Value) : Outcome String := do
  if ← isBatch data then batchPage data else singlePage m data

end SourceAudit.Report.Html
