import SourceAudit.Files.Store

/-!
# The outside world as data

An analysis starts commands, watches processes, asks services and reads configuration.
-/

namespace SourceAudit.Outside

inductive CommandEnd where
  | finished (status : Int) (output errors : String)
  | timedOut (output errors : Option String)
  | failed (nm msg : String)
deriving Repr, Inhabited

inductive Refusal where
  | denied (msg : String)
  | failed (msg : String)
deriving Repr

abbrev Observed (α : Type) := Except Refusal α

structure Address where
  host : Value
  port : Value
deriving Repr

namespace Address

def endpoint (address : Address) : String :=
  s!"{address.host.plain}:{address.port.plain}"

def pair (addr : Address) : Value :=
  .tuple [addr.host, addr.port]

end Address

structure Connection where
  near : Option Address
  far : Option Address
  status : String
deriving Repr

structure OpenFile where
  path : String
  mode : String
deriving Repr

structure Snapshot where
  resident : Observed (Int × Int) := .ok (0, 0)
  files : Observed (List OpenFile) := .ok []
  connections : Observed (List Connection) := .ok []
  name : Observed String := .ok "target"
  program : Observed String := .ok "/bin/target"

structure Sample extends Snapshot where
  children : Observed (List (Int × Snapshot)) := .ok []

structure Target where
  polls : Nat := 0
  status : Int := 0
  output : String := ""
  errors : String := ""
  unresponsive : Bool := false
  vanished : Option String := none
  samples : List Sample := []

structure Reply where
  status : Int
  body : Value

structure Advisories where
  batch : Option Reply := none
  details : List (String × Reply) := []
  arrival : List Value → List Value := id

inductive ChatReply where
  | content (v : Value)
  | failed (msg : String)
  | nothing
  | noChoices
  | noMessage
deriving Repr

structure Effect where
  output : String := ""
  exit : Option Value := none
  raised : Option (String × String) := none

structure SourceFacts where
  tree : Option Value := none
  parseError : Value := .null
  compileError : Value := .null
deriving Inhabited

structure Script where
  commands : List CommandEnd := []
  commandDefault : Option CommandEnd := none
  target : Target := {}
  inspectable : Bool := true
  tools : List (String × String) := []
  draws : List Int := []
  sandbox : List Value := []
  workerLog : List Value := []
  workerResult : Option Value := none
  workerAlive : Bool := false
  advisories : Advisories := {}
  replies : List ChatReply := []
  timeoutObjects : Bool := false
  chatLibrary : Bool := true
  javaParser : Option (Option (String × String)) := none
  openFaults : List (String × String × String) := []
  environment : List (String × String) := []
  controls : Value := .record []
  facts : SourceFacts := {}
  effect : Option Effect := none

end SourceAudit.Outside
