import SourceAudit.Value.Access

/-!
# Writing JSON

Documents as JSON text, on one line or with an indentation of two spaces.
-/

namespace SourceAudit.Json

structure Written where
  text : String
  fault : Option Fault

namespace Written

def done (text : String) : Written :=
  { text, fault := none }

def andThen (a : Written) (b : Unit → Written) : Written :=
  match a.fault with
  | some _ => a
  | none =>
    let tl := b ()
    { text := a.text ++ tl.text, fault := tl.fault }

def complete (written : Written) : Outcome String :=
  match written.fault with
  | some err => .error err
  | none => .ok written.text

end Written

inductive Layout where
  | line
  | indented
deriving DecidableEq, Repr

def encodeChar (c : Char) : List Char :=
  if c = '"' then ['\\', '"']
  else if c = '\\' then ['\\', '\\']
  else if c = '\n' then ['\\', 'n']
  else if c = '\r' then ['\\', 'r']
  else if c = '\t' then ['\\', 't']
  else if c = Char.ofNat 8 then ['\\', 'b']
  else if c = Char.ofNat 12 then ['\\', 'f']
  else if c.toNat < 32 then '\\' :: 'u' :: Text.Quote.hex 4 c.toNat
  else [c]

def quote (c : String) : String :=
  String.ofList ('"' :: c.toList.flatMap encodeChar ++ ['"'])

def float (n : Double) : String :=
  if n.isNaN then "NaN"
  else if n.isInfinite then (if n.isNegative then "-Infinity" else "Infinity")
  else n.shortest

def lineBreak (lay : Layout) (d : Nat) : String :=
  match lay with
  | .line => ""
  | .indented => "\n" ++ String.ofList (List.replicate (2 * d) ' ')

def separator (lay : Layout) (d : Nat) : String :=
  match lay with
  | .line => ", "
  | .indented => "," ++ lineBreak lay d

def keyText : Value → Outcome String
  | .text c => .ok c
  | .null => .ok "null"
  | .bool true => .ok "true"
  | .bool false => .ok "false"
  | .int n => .ok (toString n)
  | .float n => .ok (float n)
  | other => .error (.mistyped
      ("keys must be str, int, float, bool or None, not " ++ other.kind.name))

mutual

def write (lay : Layout) (d : Nat) : Value → Written
  | .null => .done "null"
  | .bool true => .done "true"
  | .bool false => .done "false"
  | .int n => .done (toString n)
  | .float n => .done (float n)
  | .text c => .done (quote c)
  | .list [] => .done "[]"
  | .list (x :: tl) =>
    (((Written.done ("[" ++ lineBreak lay (d + 1))).andThen fun _ =>
      write lay (d + 1) x).andThen fun _ =>
      writeItems lay (d + 1) tl).andThen fun _ =>
      .done (lineBreak lay d ++ "]")
  | .tuple [] => .done "[]"
  | .tuple (x :: tl) =>
    (((Written.done ("[" ++ lineBreak lay (d + 1))).andThen fun _ =>
      write lay (d + 1) x).andThen fun _ =>
      writeItems lay (d + 1) tl).andThen fun _ =>
      .done (lineBreak lay d ++ "]")
  | .record [] => .done "\x7b\x7d"
  | .record ((k, v) :: tl) =>
    (((Written.done ("\x7b" ++ lineBreak lay (d + 1) ++ quote k ++ ": ")).andThen
      fun _ => write lay (d + 1) v).andThen fun _ =>
      writeFields lay (d + 1) tl).andThen fun _ =>
      .done (lineBreak lay d ++ "\x7d")
  | .table [] => .done "\x7b\x7d"
  | .table ((k, v) :: tl) =>
    match keyText k with
    | .error err => { text := "\x7b" ++ lineBreak lay (d + 1), fault := some err }
    | .ok nm =>
      (((Written.done ("\x7b" ++ lineBreak lay (d + 1) ++ quote nm ++ ": ")).andThen
        fun _ => write lay (d + 1) v).andThen fun _ =>
        writeEntries lay (d + 1) tl).andThen fun _ =>
        .done (lineBreak lay d ++ "\x7d")
  | .bytes _ => unwritable .bytes
  | .code _ => unwritable .code
  | .spelled kd _ => unwritable (.named kd)

def writeItems (lay : Layout) (d : Nat) : List Value → Written
  | [] => .done ""
  | x :: tl =>
    ((Written.done (separator lay d)).andThen fun _ =>
      write lay d x).andThen fun _ => writeItems lay d tl

def writeFields (lay : Layout) (d : Nat) : List (String × Value) → Written
  | [] => .done ""
  | (k, v) :: tl =>
    ((Written.done (separator lay d ++ quote k ++ ": ")).andThen fun _ =>
      write lay d v).andThen fun _ => writeFields lay d tl

def writeEntries (lay : Layout) (d : Nat) : List (Value × Value) → Written
  | [] => .done ""
  | (k, v) :: tl =>
    match keyText k with
    -- the key is looked at before the separator is written
    | .error err => { text := "", fault := some err }
    | .ok nm =>
      ((Written.done (separator lay d ++ quote nm ++ ": ")).andThen fun _ =>
        write lay d v).andThen fun _ => writeEntries lay d tl

def unwritable (kind : Kind) : Written :=
  { text := "", fault := some (.mistyped s!"Object of type {kind.name} is not JSON serializable") }

end

def line (doc : Value) : Outcome String :=
  (write .line 0 doc).complete

def indented (doc : Value) : Outcome String :=
  (write .indented 0 doc).complete

def insertByKey (e : String × Value) : List (String × Value) → List (String × Value)
  | [] => [e]
  | other :: tl => if e.1 < other.1 then e :: other :: tl else other :: insertByKey e tl

mutual

def sortFields : Value → Value
  | .list xs => .list (sortItems xs)
  | .tuple xs => .tuple (sortItems xs)
  | .record fs => .record (sortRecord fs)
  | other => other

def sortItems : List Value → List Value
  | [] => []
  | x :: tl => sortFields x :: sortItems tl

def sortRecord : List (String × Value) → List (String × Value)
  | [] => []
  | (k, v) :: tl => insertByKey (k, sortFields v) (sortRecord tl)

end

end SourceAudit.Json
