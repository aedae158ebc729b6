import SourceAudit.Tree.Basic

/-!
# Taint in syntax trees

Data from the command line and from the keyboard is tainted. An assignment of tainted data taints
its targets, and passing tainted data to a dangerous call is a flow.
-/

namespace SourceAudit.Tree

def isSource (t : Tree) : Bool :=
  match t.kind? with
  | some .subscript => (t.part "value").path? == some "sys.argv" &&
      (t.part "value").isKind .attribute
  | some .call =>
    match (t.part "func").identifier? with
    | some nm => nm == "input" || nm == "raw_input"
    | none => false
  | _ => false

def sinkNames : List String :=
  ["os.system", "os.popen", "subprocess.call", "subprocess.run", "subprocess.Popen"]

def sink? (call : Tree) : Option String :=
  let function := call.part "func"
  match function.kind? with
  | some .attribute => function.path?.filter fun p => sinkNames.contains p
  | some .name => function.identifier?.filter fun nm => nm == "eval" || nm == "exec"
  | _ => none

namespace Tree

def namedPath? (t : Tree) : Option String :=
  t.path?.filter fun path => !path.isEmpty

mutual

def dataText : Tree → String
  | .node k parts ln col =>
    let t := Tree.node k parts ln col
    match k with
    | .name => t.word "id"
    | .attribute => t.path?.getD t.dump
    | .subscript =>
      let v := t.part "value"
      if v.isKind .attribute then
        (v.path?.map fun p => p ++ "[...]").getD t.dump
      else t.dump
    | .call =>
      ((t.part "func").identifier?.map fun nm => nm ++ "(...)").getD t.dump
    | .binary => dataPart "left" parts ++ " + " ++ dataPart "right" parts
    | .constant => (t.value "value").quoted
    | _ => t.dump
  | other => other.dump

def dataPart (wanted : String) : List (String × Tree) → String
  | [] => ""
  | (nm, part) :: tl => if nm == wanted then dataText part else dataPart wanted tl

end

end Tree

structure Flow where
  source : String
  sink : String
  sourceLine : Value
  sinkLine : Value
  path : Option String

namespace Flow

def toValue (fl : Flow) : Value :=
  let head := [("source", Value.text fl.source), ("sink", .text fl.sink),
    ("source_line", fl.sourceLine), ("sink_line", fl.sinkLine), ("severity", .text "critical")]
  match fl.path with
  | none => .record (head ++ [("type", .text "direct")])
  | some p =>
    .record (head ++ [("type", .text "variable_flow"), ("tainted_var", .text p)])

end Flow

abbrev Tainted := List (String × Value)

def Tainted.line? (tainted : Tainted) (p : String) : Option Value :=
  (tainted.find? fun e => e.1 == p).map Prod.snd

def taints (tainted : Tainted) (data : Tree) : Bool :=
  isSource data || data.namedPath?.any fun p => (tainted.line? p).isSome

def afterNode (tainted : Tainted) (nd : Tree) : Tainted :=
  if nd.isKind .assign && taints tainted (nd.part "value") then
    ((nd.members "targets").filterMap Tree.namedPath?).foldl
      (fun tainted p => (p, nd.lineValue) :: tainted) tainted
  else tainted

def argumentFlow (tainted : Tainted) (sink : String) (call arg : Tree) : Option Flow :=
  if isSource arg then
    some { source := arg.dataText, sink, sourceLine := call.lineValue,
           sinkLine := call.lineValue, path := none }
  else
    match arg.namedPath? with
    | none => none
    | some p =>
      (tainted.line? p).map fun ln =>
        { source := arg.dataText, sink, sourceLine := ln, sinkLine := call.lineValue,
          path := some p }

def flowsAt (tainted : Tainted) (nd : Tree) : List Flow :=
  if nd.isKind .call then
    match sink? nd with
    | some sink => (nd.members "args").filterMap (argumentFlow tainted sink nd)
    | none => []
  else []

def flowsAlong : (tainted : Tainted) → List Tree → List Flow
  | _, [] => []
  | tainted, nd :: tl => flowsAt tainted nd ++ flowsAlong (afterNode tainted nd) tl

def flowsOf (t : Tree) : List Flow :=
  flowsAlong [] t.preorder

def isFiltered (_dataflow : Value) : Bool := false

def dataflow (fl : Flow) : Value :=
  let pt (ln : Value) (k : String) : Value :=
    .record [("line", ln), ("type", .text k)]
  .record [("source", .text fl.source), ("source_line", fl.sourceLine),
    ("sink", .text fl.sink), ("sink_line", fl.sinkLine),
    ("path", .list [pt fl.sourceLine "source", pt fl.sinkLine "sink"]), ("filtered", .bool false)]

def dataflowsOf (lang : String) (t : Tree) : List Value :=
  if lang == "python" then (flowsOf t).map dataflow else []

end SourceAudit.Tree
