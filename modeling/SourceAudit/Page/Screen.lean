import SourceAudit.Outside.Session

/-!
# Building a page

A page is built by showing one element after another. Elements that ask the visitor for something
answer with what the script of the visit says; what the page remembers between visits is its state.
-/

namespace SourceAudit.Page

open Outside

def present (pl : Place) (el : String) (contents : List Value)
    (options : List (String × Value)) : Audit Unit :=
  modify fun s =>
    { s with
      shown := { name := pl.label el, contents, options } :: s.shown }

def markdown (t : String) : Audit Unit :=
  present .body "markdown" [.text t] []

def markup (t : String) : Audit Unit :=
  present .body "markdown" [.text t] [("unsafe_allow_html", .bool true)]

def rule : Audit Unit :=
  markdown "---"

def write (t : String) : Audit Unit :=
  present .body "write" [.text t] []

def info (t : String) : Audit Unit :=
  present .body "info" [.text t] []

def complain (t : String) : Audit Unit :=
  present .body "error" [.text t] []

def code (c : Value) : Audit Unit :=
  present .body "code" [c] []

def metric (pl : Place) (title : String) (v : Value) : Audit Unit :=
  present pl "metric" [.text title, v] []

def dataTable (rows : List Value) : Audit Unit :=
  present .body "dataframe" [.list rows] [("width", .text "stretch")]

def startOver : Audit Unit :=
  present .body "rerun" [] []

def within {α : Type} (part : String) (act : Audit α) : Audit α := do
  present .body "enter" [.text part] []
  let out ← Audit.attempt act
  present .body "exit" [.text part] []
  Audit.ofOutcome out

def inColumn {α : Type} (number : Nat) (act : Audit α) : Audit α :=
  within s!"col{number}" act

def folded {α : Type} (title : String) (act : Audit α) : Audit α := do
  present .body "expander" [.text title] []
  within "expander" act

def waiting {α : Type} (title : String) (act : Audit α) : Audit α := do
  present .body "spinner" [.text title] []
  within "spinner" act

def columns (n : Nat) : Audit Unit :=
  present .body "columns" [.ofNat n] []

def unevenColumns (widths : List Nat) : Audit Unit :=
  present .body "columns" [.ofNats widths] []

def control? (k : String) : Audit (Option Value) := do
  return (← get).script.controls.lookup? k

def button (pl : Place) (title : String) (k : Option String)
    (opts : List (String × Value)) : Audit Bool := do
  let keyOption := match k with
    | some k => [("key", .text k)]
    | none => []
  present pl "button" [.text title] (opts ++ keyOption)
  return ((← control? (k.getD title)).getD .null).truthy

def checkbox (pl : Place) (title : String) (start : Value) (k : Option String)
    (opts : List (String × Value)) : Audit Value := do
  let keyOption := match k with
    | some k => [("key", .text k)]
    | none => []
  present pl "checkbox" [.text title] ([("value", start)] ++ opts ++ keyOption)
  return (← control? (k.getD title)).getD start

def choice (el title : String) (offered : List String) (help : String) : Audit Value := do
  present .sidebar el [.text title, Value.ofTexts offered] [("help", .text help)]
  return (← control? title).getD (.text (offered.headD ""))

def state? (k : String) : Audit (Option Value) := do
  return Value.field? k (← get).state

def stateOrNull (k : String) : Audit Value := do
  return (← state? k).getD .null

def needState (k : String) : Audit Value := do
  match ← state? k with
  | some v => return v
  | none => throw (.outside "AttributeError" k)

def remember (k : String) (v : Value) : Audit Unit :=
  modify fun s => { s with state := Value.setField k v s.state }

def rememberFirst (k : String) (v : Value) : Audit Unit := do
  if (← state? k).isNone then remember k v

def forgetAll (start : String) : Audit Unit :=
  modify fun s =>
    { s with state := s.state.filter fun e => !Str.startsWith start e.1 }

def rememberMore (k : String) (x : Value) : Audit Unit := do
  match ← needState k with
  | .list xs => remember k (.list (xs ++ [x]))
  | other => throw (.noMember other.kind "append")

end SourceAudit.Page
