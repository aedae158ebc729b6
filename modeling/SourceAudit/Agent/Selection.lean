import SourceAudit.Agent.Prompt
import SourceAudit.Agent.Provider
import SourceAudit.Agent.Reply
import SourceAudit.Agent.Settings
import SourceAudit.Agent.Sources

/-!
# Selection of targets

Which files are run is the choice of a model, one language at a time. A model that names none of the
files leaves the choice to the entry points.
-/

namespace SourceAudit.Agent

open Outside

def runnableLanguages : List String := ["python", "go", "java"]

def preview (lang : String) (lineCount : Int) (e : SourceEntry) : Outcome Value := do
  let t := "\n".intercalate (Slice.upTo lineCount e.lines)
  let keyLines ← keyLines lang e.lines keyLineLimit
  return .record [("path", .text e.path), ("language", Value.ofText? e.language),
    ("line_count", .ofNat e.lines.length), ("has_entrypoint", .bool (hasEntryPoint lang e.content)),
    ("preview", .text t), ("key_snippets", Value.ofTexts keyLines)]

def namedTargets (reply : Value) : List Value :=
  match reply.lookup "run_targets" with
  | .list tgts => tgts
  | _ => []

def likelyEntries (lang : String) (es : List SourceEntry) : List SourceEntry :=
  match es.filter fun e => hasEntryPoint lang e.content with
  | [] => es
  | runnable => runnable

def choose (lang : String) (lim : Nat) (tgts : List Value)
    (es : List SourceEntry) : List SourceEntry :=
  match es.filter fun e => (Value.text e.path).among tgts with
  | [] => (likelyEntries lang es).take lim
  | named => named.take lim

def selectTargets (prov : Provider) (settings : Value) (es : List SourceEntry)
    (lim : Int) (lang : String) : Audit (List SourceEntry) := do
  if es.isEmpty || lim ≤ 0 then return []
  let lineCount ← Audit.ofOutcome (integerSetting settings "select_preview_lines" 120)
  let previews ← Audit.ofOutcome (es.mapM (preview lang lineCount))
  let pay : Value := .record [("task", .text "select_dynamic_targets"),
    ("constraints", .record [("max_targets", .int lim), ("language", .text lang)]),
    ("files", .list previews)]
  let setting (k : String) (standard : Value) : Audit Value :=
    Audit.ofOutcome (settings.getD k standard)
  let msgs ← messages pay (← setting "prompt_select_path" (.text ""))
    (← setting "prompt_select_inline" (.text ""))
  let bound ← setting "select_max_tokens" .null
  let reply ← match ← Audit.attempt (prov.chat msgs bound) with
    | .ok c => pure (readReply c)
    | .error _ => pure (.record [])
  let tgts ← Audit.ofOutcome ((namedTargets reply).mapM Value.asKey)
  return choose lang lim.toNat tgts es

def addTarget (lim : Nat) (chosen : List SourceEntry) (e : SourceEntry) : List SourceEntry :=
  if lim ≤ chosen.length ∨ e ∈ chosen then chosen else chosen ++ [e]

def shareBudget (lim : Nat) (sels : List (List SourceEntry)) : List SourceEntry :=
  let leading := (sels.filterMap List.head?).take lim
  (sels.flatMap List.tail).foldl (addTarget lim) leading

end SourceAudit.Agent
