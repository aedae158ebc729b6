import SourceAudit.Json.Writer
import SourceAudit.Outside.Session

/-!
# Prompts

The messages of a request: the instructions and the data they are about.
-/

namespace SourceAudit.Agent

open Outside

def standardPrompt : String :=
  "You are a security analysis agent. Only use provided context snippets. " ++
    "Return JSON only with a top-level object containing a 'findings' array."

def loadPrompt (p inline : Value) : Audit String := do
  let inline ← Audit.ofOutcome (inline.orElse (.text "")).strip
  if !inline.isEmpty then return inline
  let p ← Audit.ofOutcome (p.orElse (.text "")).strip
  if !(← Audit.exists? p) then return ""
  match ← Audit.attempt (Audit.readText p) with
  | .ok t => return Str.trim t
  | .error _ => return ""

def messages (pay p inline : Value) : Audit Value := do
  let prompt ← loadPrompt p inline
  let prompt := if prompt.isEmpty then standardPrompt else prompt
  let data ← Audit.ofOutcome (Json.indented pay)
  return .list [.record [("role", .text "system"), ("content", .text prompt)],
    .record [("role", .text "user"), ("content", .text data)]]

end SourceAudit.Agent
