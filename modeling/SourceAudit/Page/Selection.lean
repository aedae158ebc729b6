import SourceAudit.Analysis.ProjectAnalysis
import SourceAudit.Page.Results

/-!
# Choosing files of an archive

The files of an archive are listed with a box to tick for each. The ones that are ticked are
analysed together.
-/

namespace SourceAudit.Page

open Outside Analysis

def languageOf (file : Value) : Outcome Value :=
  file.getD "language" (.text "unknown")

def countLanguages : List Value → Outcome (List (Value × Nat)) :=
  List.foldlM (fun counts file => do
    let lang ← (← languageOf file).asKey return add lang counts) []
where
  add (lang : Value) : List (Value × Nat) → List (Value × Nat)
    | [] => [(lang, 1)]
    | e :: tl =>
      if lang.alike e.1 then (e.1, e.2 + 1) :: tl else e :: add lang tl

def languageList (files : List Value) : Outcome String := do
  let parts ← (← countLanguages files).mapM fun (lang, count) => do
    let word ← lang.upper
    return s!"{count} 个 {word}"
  return Str.join ", " parts

def boxKey (index : Nat) : String :=
  s!"file_checkbox_{index}"

def chooseFirst (files : List Value) : Audit Unit := do
  if (← state? "selected_files").isSome then return
  remember "selected_files" (.list [])
  let chosen ← files.zipIdx.filterMapM fun (file, i) => do
    if (← Audit.ofOutcome (file.get "is_requirements")).truthy then
      remember (boxKey i) (.bool true)
      return some i
    else return none
  remember "selected_files" (.ofNats chosen)

def chooseAll (n : Nat) (chosen : Bool) : Audit Unit := do
  let indices := List.range n
  remember "selected_files" (.ofNats (if chosen then indices else []))
  indices.forM fun i => remember (boxKey i) (.bool chosen)
  startOver

def showChoiceButtons (n : Nat) : Audit Unit := do
  unevenColumns [1, 4]
  inColumn 1 do
    if ← button .body "全选" (some "select_all_btn") [] then chooseAll n true
  inColumn 2 do
    if ← button .body "取消全选" (some "deselect_all_btn") [] then chooseAll n false

def languageIcon (lang : Value) : String :=
  match lang with
  | .text "python" => "🐍"
  | .text "go" => "🐹"
  | .text "java" => "☕"
  | _ => "📄"

def fileLabel (file : Value) : Outcome String := do
  let lang ← languageOf file
  let name := (← file.need "name").plain
  let icon := languageIcon lang
  if (← file.get "is_requirements").truthy then return s!"{icon} {name}"
  let word ← lang.upper
  return s!"{icon} {name} ({word})"

def holdsNumber (container : Value) (n : Nat) : Outcome Bool :=
  match container with
  | .text _ =>
    .error (.mistyped "'in <string>' requires string as left operand, not int")
  | .null | .bool _ | .int _ | .float _ => .error (.notContainer container.kind)
  | other => do return (Value.ofNat n).among (← other.items)

def showFile (file : Value) (i : Nat) : Audit Bool := do
  let label ← Audit.ofOutcome (fileLabel file)
  let chosen ← needState "selected_files"
  let start ← Audit.ofOutcome (holdsNumber chosen i)
  return (← checkbox .body label (.bool start) (some (boxKey i)) []).truthy

def analyzeChosen (paths : List Value) (cfg : Option Value) : Audit Unit :=
  waiting s!"Analyzing {paths.length} files..." do
    let res := (← analyzeProject (.list paths) cfg).toValue
    remember "analysis_results" res
    remember "current_file_path" .null
    remember "source_code" .null
    remember "scroll_to_results" (.bool true)
    showResults res .null

def showArchive (files : List Value) (cfg : Option Value) (analyze : Bool) : Audit Unit := do
  let languages ← Audit.ofOutcome (languageList files)
  info s!"📦 **ZIP 文件已解压，发现 {files.length} 个文件** ({languages})"
  markdown "### 📋 选择要分析的文件"
  chooseFirst files
  showChoiceButtons files.length
  let chosen ← files.zipIdx.filterM fun (file, i) => showFile file i
  remember "selected_files" (.ofNats (chosen.map Prod.snd))
  if analyze && !chosen.isEmpty then
    let paths ← Audit.ofOutcome (chosen.mapM fun (file, _) => file.need "path")
    analyzeChosen paths cfg
  else
    let res ← stateOrNull "analysis_results"
    if res.truthy && (← stateOrNull "current_file_path") == .null then
      showResults res .null

end SourceAudit.Page
