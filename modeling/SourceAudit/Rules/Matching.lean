import SourceAudit.Findings.Threat

/-!
# Rule matching

Rules are documents with a pattern. `matchRules` reports every match of every rule, ordered by line;
within a line the order of the rules and then the order of the places counts.
-/

namespace SourceAudit.Rules

structure Rule where
  id : Value
  name : Value
  pattern : Value
  severity : Value
  description : Value

namespace Rule

def ofValue (rl : Value) : Outcome Rule := do
  return {
    id := ← rl.getD "id" (.text "")
    name := ← rl.getD "name" (.text "")
    pattern := ← rl.getD "pattern" (.text "")
    severity := ← rl.getD "severity" (.text "medium")
    description := ← rl.getD "description" (.text "") }

def compiled? (rl : Rule) : Option Pattern.Pattern :=
  match rl.pattern with
  | .text src =>
    if src.isEmpty then none
    else match Pattern.compile src with
      | .ok pat => some pat
      | .error _ => none
  | _ => none

end Rule

structure RuleMatch where
  rule : Rule
  line : Nat
  text : String
  context : String
  column : Nat

namespace RuleMatch

def toValue (f : RuleMatch) : Value :=
  .record [("rule_id", f.rule.id), ("rule_name", f.rule.name),
    ("severity", f.rule.severity), ("line", .ofNat f.line),
    ("matched_text", .text f.text), ("description", f.rule.description),
    ("context", .text f.context), ("col_offset", .ofNat f.column)]

end RuleMatch

def contextOf (ls : List (List Char)) (n : Nat) : String :=
  let a := n - 2
  let last := min ls.length (n + 2)
  String.ofList (Text.join ['\n'] ((ls.drop a).take (last - a)))

def matchesOf (ls : List (List Char)) (rule : Rule) : List RuleMatch :=
  match rule.compiled? with
  | none => []
  | some pat =>
    ls.zipIdx.flatMap fun (ln, i) =>
      (pat.findAll ln).map fun f =>
        { rule, line := i + 1, text := f.content,
          context := contextOf ls (i + 1), column := f.start }

def matchRules (src : String) (rs : List Rule) : List RuleMatch :=
  if src.isEmpty then []
  else
    let ls := Text.splitNewline src.toList
    (rs.flatMap (matchesOf ls)).mergeSort fun a b => a.line ≤ b.line

def readRules (src : String) (rules : Value) : Outcome (List Rule) := do
  if src.isEmpty || !rules.truthy then return []
  (← rules.items).mapM Rule.ofValue

def matchDocuments (src : String) (rs : Value) : Outcome (List Value) := do
  let rs ← readRules src rs
  return (matchRules src rs).map (·.toValue)

def listOf (doc : Value) : Value :=
  match doc with
  | .record _ =>
    match (doc.lookup? "rules").getD (.list []) with
    | .list rs => .list rs
    | _ => .list []
  | _ => .list []

def ruleLanguage (rl : Value) : Outcome String := do
  let lang ← ((← rl.get "language").orElse (.text "")).strip
  let lang := Str.lower lang
  return if lang.isEmpty then "all" else lang

def forLanguage (rules lang : Value) : Outcome Value := do
  if !rules.truthy then return .list []
  let wanted := Str.lower (← (lang.orElse (.text "")).strip)
  let kept ← (← rules.items).filterM fun rl => do
    let own ← ruleLanguage rl
    return own == "all" || own == wanted
  return .list kept

end SourceAudit.Rules
