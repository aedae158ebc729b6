import SourceAudit.Value.Basic

/-!
# Faults

Every way in which an operation can fail, by its cause. `Fault.message` is the one place where a
cause gets its wording, and `Fault.family` sorts the causes by how callers may react to them.
-/

namespace SourceAudit

inductive Family where
  | member
  | type
  | value
  | missingKey
  | position
  | unknownName
  | os
  | missingFile
  | directory
  | notDirectory
  | exists
  | permission
  | decoding
  | runtime
  | timeout
  | exitStatus
  | sourceText
  | pattern
  | json
  | archive
  | other (nm : String)
deriving DecidableEq, Repr

namespace Family

def named : List (String × Family) :=
  [("OSError", .os), ("FileNotFoundError", .missingFile), ("IsADirectoryError", .directory),
    ("NotADirectoryError", .notDirectory), ("FileExistsError", .exists),
    ("PermissionError", .permission), ("ValueError", .value), ("RuntimeError", .runtime),
    ("TypeError", .type), ("KeyError", .missingKey), ("AttributeError", .member),
    ("IndexError", .position), ("NameError", .unknownName), ("SyntaxError", .sourceText),
    ("UnicodeDecodeError", .decoding), ("TimeoutExpired", .timeout),
    ("CalledProcessError", .exitStatus), ("JSONDecodeError", .json)]

def ofName (nm : String) : Family :=
  ((named.find? fun e => e.1 == nm).map Prod.snd).getD (.other nm)

def label : Family → String
  | .member => "AttributeError"
  | .type => "TypeError"
  | .value => "ValueError"
  | .missingKey => "KeyError"
  | .position => "IndexError"
  | .unknownName => "NameError"
  | .os => "OSError"
  | .missingFile => "FileNotFoundError"
  | .directory => "IsADirectoryError"
  | .notDirectory => "NotADirectoryError"
  | .exists => "FileExistsError"
  | .permission => "PermissionError"
  | .decoding => "UnicodeDecodeError"
  | .runtime => "RuntimeError"
  | .timeout => "TimeoutExpired"
  | .exitStatus => "CalledProcessError"
  | .sourceText => "SyntaxError"
  | .pattern => "error"
  | .json => "JSONDecodeError"
  | .archive => "BadZipFile"
  | .other title => title

def isValue (family : Family) : Bool :=
  match family with
  | .value | .decoding | .json => true
  | _ => false

end Family

inductive PathFault where
  | missing
  | isDirectory
  | notDirectory
  | exists
deriving DecidableEq, Repr

namespace PathFault

def wording : PathFault → String
  | .missing => "[Errno 2] No such file or directory: "
  | .isDirectory => "[Errno 21] Is a directory: "
  | .notDirectory => "[Errno 20] Not a directory: "
  | .exists => "[Errno 17] File exists: "

def family : PathFault → Family
  | .missing => .missingFile
  | .isDirectory => .directory
  | .notDirectory => .notDirectory
  | .exists => .exists

end PathFault

inductive ArchiveFault where
  | notArchive
  | directoryOffset
  | directoryCut
  | directoryMark
  | headerCut
  | headerMark
  | nameDiffers (listed : String) (own : List UInt8)
  | checksum (nm : String)
deriving DecidableEq, Repr

namespace ArchiveFault

def wording : ArchiveFault → String
  | .notArchive => "File is not a zip file"
  | .directoryOffset => "Bad offset for central directory"
  | .directoryCut => "Truncated central directory"
  | .directoryMark => "Bad magic number for central directory"
  | .headerCut => "Truncated file header"
  | .headerMark => "Bad magic number for file header"
  | .nameDiffers listed own =>
    "File name in directory " ++ Text.Quote.text listed ++ " and header " ++
      Text.Quote.bytes own ++ " differ."
  | .checksum nm => "Bad CRC-32 for file " ++ Text.Quote.text nm

end ArchiveFault

inductive Fault where
  | noMember (k : Kind) (member : String)
  | notIterable (k : Kind)
  | noLength (k : Kind)
  | notSubscriptable (k : Kind)
  | noItemAssignment (k : Kind)
  | unhashable (k : Kind)
  | notContainer (k : Kind)
  | notSearchable (k : Kind)
  | notComparable (op : String) (l r : Kind)
  | notOperable (op : String) (l r : Kind)
  | notInteger (k : Kind)
  | badInteger (t : String)
  | badFloatText (t : String)
  | notFloat (k : Kind)
  | infiniteInteger
  | nanInteger
  | textIndex (k : Kind)
  | textPosition
  | listIndex (k : Kind)
  | listPosition
  | tuplePosition
  | missingKey (key : Value)
  | formatCode (code : String) (k : Kind)
  | unsupportedFormat (k : Kind)
  | notWritable (k : Kind)
  | notText (pos : Nat) (k : Kind)
  | concatenation (k : Kind)
  | notPattern
  | undefinedName (nm : String)
  | path (cause : PathFault) (nm : String)
  | decoding (error : Text.Utf8.DecodeError)
  | badPattern (msg : String)
  | badJson (msg : String)
  | archive (cause : ArchiveFault)
  | timedOut (cmd : List String) (lim : Value)
  | exitStatus (cmd : List String) (status : Int)
  | invalid (msg : String)
  | mistyped (msg : String)
  | os (msg : String)
  | missingFile (msg : String)
  | sourceText (msg : String)
  | runtime (msg : String)
  | outside (nm msg : String)
deriving Repr, Inhabited

namespace Fault

def quotedCommand (cmd : List String) : String :=
  (Value.ofTexts cmd).quoted

def message : Fault → String
  | .noMember kind member => s!"'{kind.name}' object has no attribute '{member}'"
  | .notIterable kind => s!"'{kind.name}' object is not iterable"
  | .noLength kind => s!"object of type '{kind.name}' has no len()"
  | .notSubscriptable kind => s!"'{kind.name}' object is not subscriptable"
  | .noItemAssignment kind => s!"'{kind.name}' object does not support item assignment"
  | .unhashable kind => s!"unhashable type: '{kind.name}'"
  | .notContainer kind => s!"argument of type '{kind.name}' is not iterable"
  | .notSearchable kind => s!"expected string or bytes-like object, got '{kind.name}'"
  | .notComparable operator left right =>
    s!"'{operator}' not supported between instances of '{left.name}' and '{right.name}'"
  | .notOperable operator left right =>
    s!"unsupported operand type(s) for {operator}: '{left.name}' and '{right.name}'"
  | .notInteger kind =>
    "int() argument must be a string, a bytes-like object or a real number, not '" ++
      kind.name ++ "'"
  | .badInteger t => s!"invalid literal for int() with base 10: " ++ Text.Quote.text t
  | .badFloatText t => "could not convert string to float: " ++ Text.Quote.text t
  | .notFloat kind => s!"float() argument must be a string or a real number, not '{kind.name}'"
  | .infiniteInteger => "cannot convert float infinity to integer"
  | .nanInteger => "cannot convert float NaN to integer"
  | .textIndex kind => s!"string indices must be integers, not '{kind.name}'"
  | .textPosition => "string index out of range"
  | .listIndex kind => s!"list indices must be integers or slices, not {kind.name}"
  | .listPosition => "list index out of range"
  | .tuplePosition => "tuple index out of range"
  | .missingKey k => k.quoted
  | .formatCode code kind => s!"Unknown format code '{code}' for object of type '{kind.name}'"
  | .unsupportedFormat kind => s!"unsupported format string passed to {kind.name}.__format__"
  | .notWritable kind =>
    "write() argument must be str, not " ++
      (match kind with | .null => "None" | other => other.name)
  | .notText position kind =>
    s!"sequence item {position}: expected str instance, {kind.name} found"
  | .concatenation kind => s!"can only concatenate str (not \"{kind.name}\") to str"
  | .notPattern => "first argument must be string or compiled pattern"
  | .undefinedName name => s!"name '{name}' is not defined"
  | .path cause name => cause.wording ++ Text.Quote.text name
  | .decoding error => error.message
  | .badPattern msg => msg
  | .badJson msg => msg
  | .archive cause => cause.wording
  | .timedOut command limit =>
    s!"Command '{quotedCommand command}' timed out after {limit.plain} seconds"
  | .exitStatus command status =>
    if status < 0 then
      s!"Command '{quotedCommand command}' died with <Signals.{signalName status}: {-status}>."
    else s!"Command '{quotedCommand command}' returned non-zero exit status {status}."
  | .invalid msg => msg
  | .mistyped msg => msg
  | .os msg => msg
  | .missingFile msg => msg
  | .sourceText msg => msg
  | .runtime msg => msg
  | .outside _ msg => msg
where
  signalName (status : Int) : String :=
    if status = -9 then "SIGKILL" else if status = -15 then "SIGTERM"
    else if status = -11 then "SIGSEGV" else if status = -6 then "SIGABRT"
    else if status = -2 then "SIGINT" else if status = -1 then "SIGHUP" else "SIGNAL"

def family : Fault → Family
  | .noMember _ _ => .member
  | .notIterable _ | .noLength _ | .notSubscriptable _ | .noItemAssignment _ | .unhashable _
  | .notContainer _
  | .notSearchable _ | .notComparable _ _ _ | .notOperable _ _ _ | .notInteger _
  | .notFloat _ | .textIndex _ | .listIndex _ | .unsupportedFormat _ | .notWritable _
  | .notText _ _ | .concatenation _ | .notPattern | .mistyped _ => .type
  | .badInteger _ | .badFloatText _ | .nanInteger | .formatCode _ _ | .invalid _ => .value
  | .infiniteInteger => .other "OverflowError"
  | .textPosition | .listPosition | .tuplePosition => .position
  | .missingKey _ => .missingKey
  | .undefinedName _ => .unknownName
  | .path cause _ => cause.family
  | .decoding _ => .decoding
  | .badPattern _ => .pattern
  | .badJson _ => .json
  | .archive _ => .archive
  | .timedOut _ _ => .timeout
  | .exitStatus _ _ => .exitStatus
  | .os _ => .os
  | .missingFile _ => .missingFile
  | .sourceText _ => .sourceText
  | .runtime _ => .runtime
  | .outside nm _ => Family.ofName nm

end Fault

end SourceAudit
