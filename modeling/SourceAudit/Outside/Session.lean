import SourceAudit.Json.Reader
import SourceAudit.Outside.Screen
import SourceAudit.Outside.Script

/-!
# Sessions

A session is the state of one run of the analysis: the files, the clock, the script of the outside
world as far as it is still to come, and the record of what was printed and asked for.
-/

namespace SourceAudit.Outside

structure Session where
  files : Store
  here : String
  script : Script
  printed : List String
  calls : List Value
  ticks : Nat
  sleeps : Nat
  temporary : Nat
  drawn : Nat
  polled : Nat
  exitStatus : Option Int
  terminated : Bool
  ages : List (List String × Value)
  shown : List Shown
  state : List (String × Value)

abbrev Audit (α : Type) := ExceptT Fault (StateM Session) α

namespace Session

def start (script : Script) : Session :=
  { files := (Store.empty.put ["W"] .directory).put ["T"] .directory
    here := "/W", script, printed := [], calls := [], ticks := 0, sleeps := 0, temporary := 1,
    drawn := 0, polled := 0, exitStatus := none, terminated := false, ages := [], shown := [],
    state := [] }

end Session

namespace Audit

def ofOutcome {α : Type} (out : Outcome α) : Audit α :=
  match out with
  | .ok v => pure v
  | .error err => throw err

def attempt {α : Type} (act : Audit α) : Audit (Outcome α) := fun s =>
  match act s with
  | (out, s) => (.ok out, s)

def perform {α : Type} (act : Audit α) (s : Session) : Outcome α × Session :=
  act s

def orElse {α : Type} (act : Audit α) (replacement : Fault → Audit α) : Audit α := do
  match ← attempt act with
  | .ok v => return v
  | .error err => replacement err

def say (t : String) : Audit Unit :=
  modify fun s => { s with printed := s.printed ++ [t ++ "\n"] }

def record (call : Value) : Audit Unit :=
  modify fun s => { s with calls := call :: s.calls }

def key (s : Session) (p : String) : List String :=
  Path.parts (Path.absolute s.here p)

def lookup (p : String) : Audit (Option Entry) := do
  let s ← get
  if p.isEmpty || p.toList.contains (Char.ofNat 0) then return none
  match s.files.at? (key s p) with
  | some (.file c) =>
    return if p.toList.getLast? == some '/' then none else some (.file c)
  | other => return other

def exists? (p : String) : Audit Bool :=
  return (← lookup p).isSome

def isDirectory (p : String) : Audit Bool :=
  return (← lookup p) == some .directory

def isFile (p : String) : Audit Bool := do
  match ← lookup p with
  | some (.file _) => return true
  | _ => return false

def belowFile (s : Session) (parts : List String) : Bool :=
  (List.range parts.length).any fun n =>
    match s.files.at? (parts.take n) with
    | some (.file _) => true
    | _ => false

def holdsZero (p : String) : Bool :=
  p.toList.contains (Char.ofNat 0)

def zeroFault : Fault := .invalid "embedded null byte"

def missing (p : String) : Audit Fault := do
  let s ← get
  return if holdsZero p then zeroFault
    else if belowFile s (key s p) then .path .notDirectory p
    else .path .missing p

def checkOpen (p : String) : Audit Unit := do
  let s ← get
  match s.script.openFaults.find? fun e => e.1 == p with
  | some (_, nm, msg) => throw (.outside nm msg)
  | none => return ()

def loadBytes (p : String) : Audit (List UInt8) := do
  match ← lookup p with
  | some (.file c) => return c
  | some .directory => throw (.path .isDirectory p)
  | none => throw (← missing p)

def readBytes (p : String) : Audit (List UInt8) := do
  checkOpen p
  loadBytes p

def unify (t : String) : String :=
  String.ofList (Text.unifyNewlines t.toList)

def readText (p : String) : Audit String := do
  match Text.Utf8.decode (← readBytes p) with
  | .ok t => return unify t
  | .error error => throw (.decoding error)

def readTextSkipping (p : String) : Audit String :=
  return unify (Text.Utf8.decodeSkipping (← readBytes p))

def readTextReplacing (p : String) : Audit String :=
  return unify (Text.Utf8.decodeReplacing (← readBytes p))

def checkWritable (p : String) : Audit Unit := do
  let s ← get
  let parts := key s p
  if p.isEmpty then throw (.path .missing p)
  if holdsZero p then throw zeroFault
  match s.files.at? parts with
  | some .directory => throw (.path .isDirectory p)
  | some (.file _) => return ()
  | none =>
    match s.files.at? (parts.take (parts.length - 1)) with
    | some .directory => return ()
    | _ => throw (← missing p)

def writeBytes (p : String) (c : List UInt8) : Audit Unit := do
  checkOpen p
  checkWritable p
  modify fun s =>
    { s with
      files := s.files.put (key s p) (.file c)
      ages := s.ages.filter fun e => e.1 != key s p }

def writeText (p : String) (c : String) : Audit Unit :=
  writeBytes p (Text.Utf8.encode c)

def appendText (p : String) (c : String) : Audit Unit := do
  checkOpen p
  checkWritable p
  modify fun s =>
    let parts := key s p
    let old := match s.files.at? parts with
      | some (.file bytes) => bytes
      | _ => []
    { s with files := s.files.put parts (.file (old ++ Text.Utf8.encode c)) }

def makeDirectories (p : String) : Audit Unit := do
  if p.isEmpty then throw (.path .missing p)
  if holdsZero p then throw zeroFault
  let s ← get
  let parts := key s p
  match s.files.at? parts with
  | some (.file _) => throw (.path .exists p)
  | some .directory => return ()
  | none =>
    if belowFile s parts then throw (.path .notDirectory p)
    set { s with files := s.files.makeAll parts }

def remove (p : String) : Audit Unit := do
  let s ← get
  match ← lookup p with
  | some (.file _) => set { s with files := s.files.drop (key s p) }
  | some .directory => throw (.path .isDirectory p)
  | none => throw (← missing p)

def removeTree (p : String) : Audit Unit :=
  modify fun s => { s with files := s.files.drop (key s p) }

def walk (p : String) : Audit (List (String × List String × List String)) := do
  let s ← get
  let root := key s p
  return (s.files.walk root).map fun visit =>
    (Path.joinAll p (visit.path.drop root.length), visit.directories, visit.files)

def absolute (p : String) : Audit String := do
  let s ← get
  return Path.absolute s.here p

def nearestMarked (start : String) (markers : List String) : Audit String := do
  let start ← absolute start
  let found ← (Path.ancestors start).findM? fun dir =>
    markers.anyM fun marker => exists? (Path.join dir marker)
  return found.getD start

def nextTemporary : Audit Nat := do
  let s ← get
  set { s with temporary := s.temporary + 1 }
  return s.temporary

def temporaryDirectory (stem : String) : Audit String := do
  let number ← nextTemporary
  let p := s!"/T/{stem}{number}"
  modify fun s => { s with files := s.files.makeAll (Path.parts p) }
  return p

def temporaryFile (stem extension : String) : Audit String := do
  let number ← nextTemporary
  let p := s!"/T/{stem}{number}{extension}"
  modify fun s =>
    { s with files := s.files.put (Path.parts p) (.file []) }
  return p

def identifier : Audit String :=
  return String.ofList (List.replicate 32 '0')

def now : Audit Double := do
  let s ← get
  return Double.ofFloat (1000.0 + Float.ofNat s.ticks / 4.0)

def pauseTicks (seconds : Value) : Nat :=
  match seconds.ratio? with
  | some (num, den) =>
    if num ≤ 0 then 1 else max 1 (Decimal.roundDiv (4 * num.toNat) den)
  | none => 1

def sleep (seconds : Value) : Audit Unit :=
  modify fun s =>
    { s with
      ticks := s.ticks + pauseTicks seconds
      sleeps := s.sleeps + 1 }

def since (earlier : Double) : Audit Value := do
  let cur ← now
  return .float (Double.ofFloat (cur.toFloat - earlier.toFloat))

def optionalText : Option String → Value
  | some t => .text t
  | none => .null

structure Finished where
  status : Int
  output : String
  errors : String

def runCommand (cmd : List String) (dir : Option String) (lim : Value) :
    Audit CommandEnd := do
  record (.record [("run", Value.ofTexts cmd), ("cwd", optionalText dir), ("timeout", lim)])
  let s ← get
  match s.script.commands with
  | step :: tl =>
    set { s with script := { s.script with commands := tl } }
    return step
  | [] =>
    match s.script.commandDefault with
    | some step => return step
    | none => throw (.path .missing (cmd.headD ""))

def finish (cmd : List String) (dir : Option String) (lim : Value) : Audit Finished := do
  match ← runCommand cmd dir lim with
  | .finished status output errors => return { status, output, errors }
  | .timedOut _ _ => throw (.timedOut cmd lim)
  | .failed nm msg => throw (.outside nm msg)

def which (tool : String) : Audit (Option String) := do
  let s ← get
  return (s.script.tools.find? fun e => e.1 == tool).map Prod.snd

def draw : Audit Int := do
  let s ← get
  let cycle := if s.script.draws.isEmpty then [0] else s.script.draws
  let n := (cycle[s.drawn % cycle.length]?).getD 0
  set { s with drawn := s.drawn + 1 }
  return n

end Audit

structure Moment where
  date : String := "2024-03-05"
  time : String := "06:07:08"
  fraction : String := "090123"

namespace Moment

def current : Moment := {}

def milliseconds (m : Moment) : String :=
  m.date ++ " " ++ m.time ++ "." ++ Str.take 3 m.fraction

def seconds (m : Moment) : String :=
  m.date ++ " " ++ m.time

def full (m : Moment) : String :=
  m.date ++ " " ++ m.time ++ "." ++ m.fraction

def iso (m : Moment) : String :=
  m.date ++ "T" ++ m.time ++ "." ++ m.fraction

def spelled (m : Moment) : String :=
  Str.take 4 m.date ++ "年" ++ Str.take 2 (Str.drop 5 m.date) ++ "月" ++
    Str.drop 8 m.date ++ "日 " ++ m.time

def compact (m : Moment) : String :=
  Str.replace "-" "" m.date ++ "_" ++ Str.replace ":" "" m.time

def compactFull (m : Moment) : String :=
  m.compact ++ "_" ++ m.fraction

end Moment

end SourceAudit.Outside
