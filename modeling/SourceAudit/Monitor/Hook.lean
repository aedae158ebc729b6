import SourceAudit.Monitor.FileActivity
import SourceAudit.Monitor.Signature

/-!
# Hooks

A hook stands in for a function that a monitored program may call. It writes a log message about the
call, hands the arguments on to the function itself, and writes a second message when the function
fails.
-/

namespace SourceAudit.Monitor

inductive Hook where
  | system
  | popen
  | connect
  | connectStatus
  | createConnection
  | call
  | run
  | process
  | openFile
  | openDescriptor
  | remove
  | unlink
  | evaluate
  | execute
  | compile
  | library
  | windowsLibrary
  | memoryMap
deriving DecidableEq, Repr

namespace Hook

def all : List Hook :=
  [.system, .popen, .connect, .connectStatus, .createConnection, .call, .run, .process, .openFile,
    .openDescriptor, .remove, .unlink, .evaluate, .execute, .compile, .library, .windowsLibrary,
    .memoryMap]

def key : Hook → String
  | .system => "system"
  | .popen => "popen"
  | .connect => "socket_connect"
  | .connectStatus => "socket_connect_ex"
  | .createConnection => "socket_create_connection"
  | .call => "subprocess_call"
  | .run => "subprocess_run"
  | .process => "subprocess_Popen"
  | .openFile => "open"
  | .openDescriptor => "os_open"
  | .remove => "remove"
  | .unlink => "unlink"
  | .evaluate => "eval"
  | .execute => "exec"
  | .compile => "compile"
  | .library => "ctypes_cdll"
  | .windowsLibrary => "ctypes_windll"
  | .memoryMap => "mmap"

def ofKey? (k : String) : Option Hook :=
  all.find? fun hook => hook.key == k

def title : Hook → String
  | .system => "os.system"
  | .popen => "os.popen"
  | .connect => "socket.connect"
  | .connectStatus => "socket.connect_ex"
  | .createConnection => "socket.create_connection"
  | .call => "subprocess.call"
  | .run => "subprocess.run"
  | .process => "subprocess.Popen"
  | .openFile => "open()"
  | .openDescriptor => "os.open()"
  | .remove => "os.remove"
  | .unlink => "os.unlink"
  | .evaluate => "eval"
  | .execute => "exec"
  | .compile => "compile"
  | .library => "ctypes.CDLL"
  | .windowsLibrary => "ctypes.WinDLL"
  | .memoryMap => "mmap.mmap"

def isOptional : Hook → Bool
  | .library | .windowsLibrary | .memoryMap => true
  | _ => false

def failure (hook : Hook) (fault : Fault) : String :=
  if hook.isOptional then s!"[ERROR] {hook.title} failed: {fault.message}"
  else s!"[ERROR] {hook.title} execution failed: {fault.message}"

def signature (hook : Hook) : Signature :=
  let title := "HookedRuntime._hooked_" ++ hook.key
  let params (nms : List String) (optional : List (String × Value)) : List Parameter :=
    ({ name := "self" } : Parameter) :: nms.map (fun name => { name }) ++
      optional.map fun (name, v) => { name, fallback := some v }
  let scope : List (String × Value) := [("globals", .null), ("locals", .null)]
  match hook with
  | .system => { title, positional := params ["command"] [] }
  | .popen =>
    { title, positional := params ["command"] [("mode", .text "r"), ("buffering", .int (-1))] }
  | .connect | .connectStatus =>
    { title, positional := params ["self_socket", "address"] [] }
  | .createConnection | .call | .run | .process | .memoryMap =>
    { title, positional := params [] [], collects := true, collectsNamed := true }
  | .openFile =>
    { title, positional := params ["file"] [("mode", .text "r"), ("buffering", .int (-1)),
        ("encoding", .null), ("errors", .null), ("newline", .null), ("closefd", .bool true),
        ("opener", .null)] }
  | .openDescriptor =>
    { title, positional := params ["path", "flags"] [("mode", .int 511)]
      named := [{ name := "dir_fd", fallback := some .null }] }
  | .remove | .unlink => { title, positional := params ["path"] [] }
  | .evaluate | .execute => { title, positional := params ["source"] scope }
  | .compile =>
    { title, positional := params ["source", "filename", "mode"] [("flags", .int 0),
        ("dont_inherit", .bool false), ("optimize", .int (-1))] }
  | .library | .windowsLibrary =>
    { title, positional := params ["name"] [], collects := true, collectsNamed := true }

end Hook

def stackMark : String := " | stack="

def shorten (v : Value) (lim : Int) : String :=
  let t := v.plain
  if Int.ofNat t.length ≤ lim then t
  else
    let kept := if lim < 0 then t.length - lim.natAbs else lim.toNat
    Str.take kept t ++ "...(truncated)"

def standardLimit : Int := 200

def shortenBy (v lim : Value) : Outcome String :=
  match lim with
  | .int lim => .ok (shorten v lim)
  | .bool flag => .ok (shorten v (if flag then 1 else 0))
  | .float n =>
    let t := v.plain
    match (Value.ofNat t.length).atMost (.float n) with
    | .ok true => .ok t
    | _ => .error (.mistyped "slice indices must be integers or None or have an __index__ method")
  | other => .error (.notComparable "<=" .int other.kind)

def operationOfMode (mode : Value) : Outcome String := do
  let mode := mode.orElse (.text "")
  if ← ["w", "a", "+", "x"].anyM fun flag => mode.holdsWord flag then return "write"
  else return "read"

def changeFlags : Nat := 1603

def operationOfFlags (flags : Value) : String :=
  let number? : Option Int := match flags with
    | .int n => some n
    | .bool flag => some (if flag then 1 else 0)
    | _ => none
  match number? with
  | some n =>
    -- The low bits of a negative number are those of its remainder.
    if (n.emod 2048).toNat &&& changeFlags ≠ 0 then "write" else "read"
  | none => "read"

def sourceText (src : Value) : String :=
  match src with
  | .bytes c => shorten (.text (Text.Utf8.decodeReplacing c)) standardLimit
  | .text c => shorten (.text c) standardLimit
  | .code file => s!"code:{file}"
  | other => s!"<{other.kind.name}>"

def fileMessage (op path mode stack : Value) : Outcome String := do
  let sensitive ← isSensitiveValue path
  let level := if sensitive then "[ALERT]" else "[INFO]"
  let tail := if stack.truthy then stackMark ++ stack.plain else ""
  let title ← op.upper
  return s!"{level} FILE {title}: {shorten path standardLimit} (mode: {mode.plain}){tail}"

def addressText (addr : Value) : Outcome String :=
  match addr with
  | .tuple (host :: port :: _) => .ok (host.plain ++ ":" ++ port.plain)
  | .tuple _ => .error .tuplePosition
  | other => .ok other.plain

structure Prepared where
  messages : List String
  arguments : List Value
  named : List (String × Value) := []
  guarded : Bool := true

namespace Hook

def networkMessage (hook : Hook) (address stack : String) : String :=
  s!"[ALERT] NETWORK: {hook.title} called with address='{address}'{stackMark}{stack}"

def processMessage (hook : Hook) (args : Arguments) (stack : String) : String :=
  let given := if args.rest.isEmpty then "" else (Value.tuple args.rest).plain
  let named := if args.restNamed.isEmpty then "" else (Value.record args.restNamed).plain
  s!"[ALERT] SYSCALL: {hook.title} called with args={given}, kwargs={named}{stackMark}{stack}"

def codeMessages (hook : Hook) (source : Value) (stack : String) : List String :=
  match source with
  | .text _ | .bytes _ =>
    [s!"[ALERT] CODE_EXEC: {hook.title} called with source='{sourceText source}'" ++
      stackMark ++ stack]
  | _ => []

def prepareWith (hook : Hook) (stack : String) (isThere : String → Bool) (given : Arguments) :
    Outcome Prepared := do
  let v := given.value
  let shown (nm : String) : String := "'" ++ (given.value nm).plain ++ "'"
  match hook with
  | .system =>
    return { messages := ["[ALERT] SYSCALL: os.system called with command=" ++
               shown "command" ++ stackMark ++ stack]
             arguments := [v "command"] }
  | .popen =>
    return { messages := ["[ALERT] SYSCALL: os.popen called with command=" ++
               shown "command" ++ ", mode=" ++ shown "mode" ++ stackMark ++ stack]
             arguments := [v "command", v "mode", v "buffering"] }
  | .connect | .connectStatus =>
    return { messages := [hook.networkMessage (← addressText (v "address")) stack]
             arguments := [v "self_socket", v "address"] }
  | .createConnection =>
    let addr := given.rest.headD ((Value.field? "address" given.restNamed).getD .null)
    return { messages := [hook.networkMessage (← addressText addr) stack]
             arguments := given.rest, named := given.restNamed }
  | .call | .run | .process =>
    return { messages := [hook.processMessage given stack]
             arguments := given.rest, named := given.restNamed }
  | .openFile =>
    let op ← operationOfMode (v "mode")
    let msg ← fileMessage (.text op) (.text (v "file").plain) (v "mode")
      (.text stack)
    return { messages := [msg]
             arguments := ["file", "mode", "buffering", "encoding", "errors", "newline",
               "closefd", "opener"].map v }
  | .openDescriptor =>
    let msg ← fileMessage (.text (operationOfFlags (v "flags")))
      (.text (v "path").plain) (.text (v "flags").plain) (.text stack)
    return { messages := [msg], arguments := ["path", "flags", "mode"].map v
             named := [("dir_fd", v "dir_fd")] }
  | .remove | .unlink =>
    let msg ← fileMessage (.text "delete") (.text (v "path").plain) (.text "")
      (.text stack)
    return { messages := [msg], arguments := [v "path"] }
  | .evaluate | .execute =>
    return { messages := hook.codeMessages (v "source") stack
             arguments := ["source", "globals", "locals"].map v }
  | .compile =>
    let arguments := ["source", "filename", "mode", "flags", "dont_inherit", "optimize"].map v
    let known := match v "filename" with
      | .text nm => isThere nm
      | _ => false
    if known then return { messages := [], arguments, guarded := false }
    return { messages := ["[ALERT] CODE_EXEC: compile called with source='" ++
               sourceText (v "source") ++ "', filename=" ++ shown "filename" ++
               ", mode=" ++ shown "mode" ++ stackMark ++ stack]
             arguments }
  | .library | .windowsLibrary =>
    return { messages := ["[ALERT] MEMORY: " ++ hook.title ++ " loaded " ++ shown "name" ++
               stackMark ++ stack]
             arguments := v "name" :: given.rest, named := given.restNamed }
  | .memoryMap =>
    let arguments := shorten (.tuple given.rest) standardLimit
    let named := shorten (.record given.restNamed) standardLimit
    return { messages := [s!"[ALERT] MEMORY: mmap.mmap called with args={arguments}, " ++
               s!"kwargs={named}{stackMark}{stack}"]
             arguments := given.rest, named := given.restNamed }

def prepare (hook : Hook) (stack : String) (isThere : String → Bool) (given : List Value)
    (named : List (String × Value)) : Outcome Prepared := do
  hook.prepareWith stack isThere (← hook.signature.bind (.null :: given) named)

end Hook

end SourceAudit.Monitor
