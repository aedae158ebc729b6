import SourceAudit.Page.Clearing
import SourceAudit.Page.Selection
import SourceAudit.Page.Welcome

/-!
# The dashboard

One visit of the page: the visitor chooses a language and a way to hand in sources, sets the
options, and starts the analysis.
-/

namespace SourceAudit.Page

open Outside Analysis

structure Visit where
  controls : Value
  upload : Option Upload

def initialState : List (String × Value) :=
  [("analysis_results", .null), ("source_code", .null), ("current_file_path", .null),
    ("zip_temp_dirs", .list []), ("scroll_to_results", .bool false)]

def prepareState : Audit Unit :=
  initialState.forM fun (k, v) => rememberFirst k v

def languageChoices : List (String × Value) :=
  [("自动检测", .null), ("Python", .text "python"), ("Go", .text "go"), ("Java", .text "java")]

def languageFor (chosen : Value) : Outcome Value :=
  match chosen with
  | .text title => (Value.record languageChoices).need title
  | other => do throw (.missingKey (← other.asKey))

def chooseLanguage : Audit Value := do
  let chosen ← choice "selectbox" "项目语言" (languageChoices.map Prod.fst)
    "选择项目主要语言（ZIP 将按此过滤文件；单文件上传会限定扩展名）"
  Audit.ofOutcome (languageFor chosen)

def singleMode : String := "单个文件"

def archiveMode : String := "ZIP 压缩包"

def uploadTypes (lang : Value) : List String :=
  match lang with
  | .text "go" => ["go"]
  | .text "java" => ["java"]
  | .text _ => ["py", "txt"]
  | _ => ["py", "go", "java", "txt"]

def askForFile (upload : Option Upload) (title help : String) (types : List String) :
    Audit (Option Upload) := do
  present .sidebar "file_uploader" [.text title]
    [("type", Value.ofTexts types), ("help", .text help)]
  return upload

def askForSource (upload : Option Upload) (lang : Value) : Audit (Option Upload) := do
  match ← askForFile upload "选择要分析的源文件" "根据项目语言限制可选文件类型，避免误选"
      (uploadTypes lang) with
  | none => return none
  | some upload =>
    if Str.endsWith ".txt" (Str.lower upload.name) && !Upload.isRequirements upload.name then
      present .sidebar "error" [.text "仅支持 requirements.txt，请选择正确的依赖文件。"] []
      return none
    return some upload

def askForArchive (upload : Option Upload) : Audit (Option Upload) :=
  askForFile upload "选择 ZIP 压缩包" "上传包含源代码的 ZIP 压缩包（支持拖拽，按所选语言过滤）" ["zip"]

def askForOptions (cfg : Value) (isArchive : Bool) : Audit Value := do
  present .sidebar "markdown" [.text "### ⚙️ 分析选项"] []
  let settings ← Audit.ofOutcome (cfg.need "settings")
  let dynamicStart ← Audit.ofOutcome (settings.getD "enable_dynamic_analysis" (.bool true))
  let staticStart ← Audit.ofOutcome (settings.getD "enable_static_analysis" (.bool true))
  let static ← checkbox .sidebar "静态分析" staticStart none
    [("help", .text "启用静态代码分析（模式匹配、污点分析、CFG分析）")]
  let dynamic ← checkbox .sidebar "动态分析" (if isArchive then .bool false else dynamicStart) none
    [("help", .text "启用动态行为分析（系统调用监控、网络监控、模糊测试）")]
  let settings := (settings.set "enable_static_analysis" static).set "enable_dynamic_analysis"
    dynamic
  return cfg.set "settings" settings

def askToAnalyze : Audit Bool :=
  button .sidebar "🔍 开始分析" none [("type", .text "primary"), ("width", .text "stretch")]

def askToClear (cfg : Value) : Audit Unit := do
  let pressed ← button .sidebar "🧹 清除缓存" none
    [("width", .text "stretch"), ("help", .text "清除本地临时文件（reports/uploads/临时解压目录等）")]
  if pressed then
    clearUp cfg
    present .sidebar "success" [.text "已清除本地缓存和临时文件"] []
    startOver

def storeUpload (upload : Upload) : Audit String := do
  if Upload.isRequirements upload.name then
    let dir ← Audit.temporaryDirectory "dir"
    let p := Path.join dir Upload.requirementsName
    Audit.writeBytes p upload.content
    rememberFirst "zip_temp_dirs" (.list [])
    rememberMore "zip_temp_dirs" (.text dir)
    return p
  else
    let extension := Path.extension upload.name
    let p ← Audit.temporaryFile "" (if extension.isEmpty then ".txt" else extension)
    Audit.writeBytes p upload.content
    return p

def analyzeStored (p : String) (cfg : Value) : Audit Unit := do
  present .body "progress" [.int 0] []
  present .body "empty" [] []
  present .status "info" [.text "🔄 正在启动分析..."] []
  present .progress "progress" [.int 10] []
  let res ← waiting "⏳ 正在分析文件，请稍候..." (analyzeFile p (some cfg))
  present .progress "progress" [.int 100] []
  present .status "success" [.text "✅ 分析完成！"] []
  remember "analysis_results" res.toValue
  remember "current_file_path" (.text p)
  remember "scroll_to_results" (.bool true)
  remember "source_code" (.text (← Audit.readTextSkipping p))
  showResults res.toValue (.text p)

def failureDetails : String := "TRACEBACK"

def showFailure (fault : Fault) : Audit Unit := do
  complain s!"❌ 分析失败：{fault.message}"
  folded "📋 错误详情" (code (.text failureDetails))

def showUpload (upload : Upload) (cfg : Value) (analyze : Bool) : Audit Unit := do
  info s!"📄 **文件名称：** {upload.name} | **文件大小：** {upload.size} 字节"
  if analyze then
    let p ← storeUpload upload
    Audit.orElse (analyzeStored p cfg) showFailure
  else
    let res ← needState "analysis_results"
    let p ← needState "current_file_path"
    if res.truthy && p.truthy then showResults res p

def showEarlier : Audit Unit := do
  let res ← needState "analysis_results"
  if res.truthy then showResults res (← needState "current_file_path")
  else showWelcome

def showPage (upload : Option Upload) : Audit Unit := do
  showBanner
  let cfg ← Config.load "config"
  prepareState
  present .sidebar "markdown" [.text "### 📁 文件上传"] []
  let lang ← chooseLanguage
  let mode ← choice "radio" "上传模式" [singleMode, archiveMode]
    "选择上传单个源文件或包含多个文件的 ZIP 压缩包"
  let isSingle := mode == .text singleMode
  let src ← if isSingle then askForSource upload lang else pure none
  let archive ← if isSingle then pure none else askForArchive upload
  let cfg ← askForOptions cfg (mode == .text archiveMode)
  let analyze ← askToAnalyze
  askToClear cfg
  let files ← match archive with
    | some archive => takeArchive archive ((lang.text?).getD "")
    | none => pure []
  match src with
  | some src => showUpload src cfg analyze
  | none =>
    if files.isEmpty then showEarlier
    else showArchive (files.map (·.toValue)) (some cfg) analyze

def visit (visit : Visit) : Audit Unit := do
  modify fun s =>
    { s with
      script := { s.script with controls := visit.controls }
      shown := [] }
  showPage visit.upload

end SourceAudit.Page
