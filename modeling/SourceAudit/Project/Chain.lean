import SourceAudit.Value.Arithmetic

/-!
# Chains across files

A chain is a source of outside data in one file, a call from that file into another one, and a
dangerous call in the other file.
-/

namespace SourceAudit.Project

structure ChainEnd where
  file : Value
  line : Value
  rule : Value := .null

def sinkWords : List String :=
  ["rce", "exec", "command", "cmd", "sql", "deserial", "deserialize", "network", "file_",
    "path_traversal", "webshell", "backdoor"]

def isSinkMatch (f : Value) : Outcome Bool := do
  let part (k : String) : Outcome String := do ((← f.get k).orElse (.text "")).lower
  let rl ← part "rule_id"
  let nm ← part "rule_name"
  let desc ← part "description"
  let t := " ".intercalate [rl, nm, desc]
  return sinkWords.any fun w => Str.occurs w t

def listedIn (info : Value) (k : String) : Outcome (List Value) := do
  ((← info.getD k (.list [])).orElse (.list [])).items

def chainSources (file : String) (info : Value) : Outcome (List ChainEnd) := do
  let f ← (← listedIn info "taint_flows").mapM fun fl => do
    let line ← fl.get "source_line"
    if line.truthy then return some { file := .text file, line : ChainEnd } else return none
  return f.filterMap id

def chainSinks (file : String) (info : Value) : Outcome (List ChainEnd) := do
  let fls ← (← listedIn info "taint_flows").mapM fun fl => do
    let sink ← fl.get "sink_line"
    let line ← if sink.truthy then pure sink else fl.get "line"
    if line.truthy then
      return some { file := .text file, line, rule := ← fl.get "rule_id" : ChainEnd }
    else return none
  let f ← (← listedIn info "pattern_matches").mapM fun f => do
    if !(← isSinkMatch f) then return none
    let line ← f.get "line"
    if line.truthy then
      return some { file := .text file, line, rule := ← f.get "rule_id" : ChainEnd }
    else return none
  return fls.filterMap id ++ f.filterMap id

def distance (ln : Value) (from_ : Value) : Outcome Value := do
  return (← (ln.orElse (.int 0)).minus from_).absolute

def firstLeast {α : Type} (best : α × Value) : List (α × Value) → Outcome α
  | [] => .ok best.1
  | x :: tl => do
    if ← x.2.less "<" best.2 then firstLeast x tl else firstLeast best tl

def closest? {α : Type} (lineOf : α → Outcome Value) (xs : List α) (ln : Value) :
    Outcome (Option α) := do
  let measured ← xs.mapM fun x => do
    return (x, ← distance (← lineOf x) ln)
  match measured with
  | [] => return none
  | a :: tl => return some (← firstLeast a tl)

structure Chain where
  number : Nat
  source : ChainEnd
  sink : ChainEnd
  callFile : Value
  callLine : Value
  callName : Value

namespace Chain

def toValue (chain : Chain) : Value :=
  .record [("chain_id", .text s!"c{chain.number}"), ("type", .text "cross_file_flow"),
    ("source", .record [("file", chain.source.file), ("line", chain.source.line)]),
    ("sink", .record [("file", chain.sink.file), ("line", chain.sink.line),
      ("rule_id", chain.sink.rule)]),
    ("path", .list [.record [("file", chain.callFile), ("line", chain.callLine),
      ("call", chain.callName)]])]

def key (chain : Chain) : Value :=
  .tuple [chain.source.file, chain.source.line, chain.sink.file, chain.sink.line, chain.callLine]

end Chain

structure ChainEnds where
  file : String
  sources : List ChainEnd
  sinks : List ChainEnd

def chainEnds (i : Value) : Outcome (List ChainEnds) := do
  let files ← (← i.getD "files" (.record [])).fields
  files.mapM fun (file, info) => do
    match info with
    | .record _ => return { file, sources := ← chainSources file info
                            sinks := ← chainSinks file info }
    | .list _ => throw (.listIndex .text)
    | other => throw (.noItemAssignment other.kind)

def endsIn (ends : List ChainEnds) (file : Value) : Outcome (Option ChainEnds) := do
  let file ← file.asKey
  return ends.find? fun e => file.same (.text e.file)

def chainAlong? (ends : List ChainEnds) (number : Nat) (edge : Value) : Outcome (Option Chain) := do
  let from_ ← edge.get "from_file"
  let into ← edge.get "to_file"
  let ln ← edge.getD "line" (.int 0)
  let srcs := ((← endsIn ends from_).map (·.sources)).getD []
  let sinks := ((← endsIn ends into).map (·.sinks)).getD []
  match sinks with
  | [] => return none
  | sink :: _ =>
    match ← closest? (fun source : ChainEnd => .ok source.line) srcs ln with
    | none => return none
    | some source =>
      return some { number, source, sink, callFile := from_, callLine := ln
                    callName := ← edge.get "call_name" }

def reaches (n : Nat) (lim : Value) : Outcome Bool :=
  if lim.truthy then (Value.ofNat n).atLeast lim else .ok false

def chainsAlong (ends : List ChainEnds) (lim : Value) (f : List Chain) :
    List Value → Outcome (List Chain)
  | [] => .ok f
  | edge :: tl => do
    match ← chainAlong? ends (f.length + 1) edge with
    | none => chainsAlong ends lim f tl
    | some chain =>
      let k ← chain.key.asKey
      if k.among (f.map (·.key)) then chainsAlong ends lim f tl
      else
        let f := f ++ [chain]
        if ← reaches f.length lim then .ok f
        else chainsAlong ends lim f tl

def chains (i lim : Value) : Outcome (List Chain) := do
  let edges ← i.getD "call_edges" (.list [])
  let ends ← chainEnds i
  chainsAlong ends lim [] (← edges.items)

end SourceAudit.Project
