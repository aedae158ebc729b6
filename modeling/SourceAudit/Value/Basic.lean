import SourceAudit.Number.Decimal
import SourceAudit.Text.Quote

/-!
# Values

Findings, settings and reports are documents of open shape: they come from configuration files,
model replies and earlier analyses, and any field may be missing or hold something unexpected.
-/

namespace SourceAudit

inductive Value where
  | null
  | bool (flag : Bool)
  | int (n : Int)
  | float (n : Double)
  | text (c : String)
  | bytes (c : List UInt8)
  | list (xs : List Value)
  | tuple (xs : List Value)
  | record (fs : List (String × Value))
  | table (es : List (Value × Value))
  | code (file : String)
  | spelled (k spelling : String)
deriving BEq, Repr, Inhabited

inductive Kind where
  | null | bool | int | float | text | bytes | list | tuple | record | code
  | named (nm : String)
deriving DecidableEq, Repr

namespace Kind

def name : Kind → String
  | .null => "NoneType"
  | .bool => "bool"
  | .int => "int"
  | .float => "float"
  | .text => "str"
  | .bytes => "bytes"
  | .list => "list"
  | .tuple => "tuple"
  | .record => "dict"
  | .code => "code"
  | .named nm => nm

end Kind

namespace Value

def kind : Value → Kind
  | .null => .null
  | .bool _ => .bool
  | .int _ => .int
  | .float _ => .float
  | .text _ => .text
  | .bytes _ => .bytes
  | .list _ => .list
  | .tuple _ => .tuple
  | .record _ => .record
  | .table _ => .record
  | .code _ => .code
  | .spelled k _ => .named k

def truthy : Value → Bool
  | .null => false
  | .bool flag => flag
  | .int number => number != 0
  | .float number => !number.isZero
  | .text content => !content.isEmpty
  | .bytes content => !content.isEmpty
  | .list items => !items.isEmpty
  | .tuple items => !items.isEmpty
  | .record fields => !fields.isEmpty
  | .table entries => !entries.isEmpty
  | .code _ => true
  | .spelled _ _ => true

def orElse (v other : Value) : Value :=
  if v.truthy then v else other

def ofNat (n : Nat) : Value := .int (Int.ofNat n)

def ofTexts (xs : List String) : Value := .list (xs.map .text)

def ofNats (xs : List Nat) : Value := .list (xs.map ofNat)

def ofInts (xs : List Int) : Value := .list (xs.map .int)

def ofText? : Option String → Value
  | some c => .text c
  | none => .null

mutual

def quoted : Value → String
  | .null => "None"
  | .bool true => "True"
  | .bool false => "False"
  | .int n => toString n
  | .float n => n.shortest
  | .text c => Text.Quote.text c
  | .bytes c => Text.Quote.bytes c
  | .list xs => "[" ++ ", ".intercalate (quotedItems xs) ++ "]"
  | .tuple xs =>
    match quotedItems xs with
    | [single] => "(" ++ single ++ ",)"
    | several => "(" ++ ", ".intercalate several ++ ")"
  | .record fs => "\x7b" ++ ", ".intercalate (quotedFields fs) ++ "\x7d"
  | .table es => "\x7b" ++ ", ".intercalate (quotedEntries es) ++ "\x7d"
  | .code file => "<code object " ++ file ++ ">"
  | .spelled _ spelling => spelling

def quotedItems : List Value → List String
  | [] => []
  | x :: tl => x.quoted :: quotedItems tl

def quotedFields : List (String × Value) → List String
  | [] => []
  | (k, v) :: tl => (Text.Quote.text k ++ ": " ++ v.quoted) :: quotedFields tl

def quotedEntries : List (Value × Value) → List String
  | [] => []
  | (k, v) :: tl => (k.quoted ++ ": " ++ v.quoted) :: quotedEntries tl

end

def plain : Value → String
  | .text c => c
  | v => v.quoted

def field? (k : String) (fs : List (String × Value)) : Option Value :=
  (fs.find? fun e => e.1 == k).map Prod.snd

def setField (k : String) (v : Value) : List (String × Value) → List (String × Value)
  | [] => [(k, v)]
  | e :: tl =>
    if e.1 == k then (k, v) :: tl else e :: setField k v tl

def set (doc : Value) (k : String) (v : Value) : Value :=
  match doc with
  | .record fs => .record (setField k v fs)
  | other => other

def lookup? (doc : Value) (k : String) : Option Value :=
  match doc with
  | .record fs => field? k fs
  | _ => none

def lookup (doc : Value) (k : String) : Value :=
  (doc.lookup? k).getD .null

def itemsOrNone : Value → List Value
  | .list xs => xs
  | .tuple xs => xs
  | _ => []

def text? : Value → Option String
  | .text c => some c
  | _ => none

def isRecord : Value → Bool
  | .record _ => true
  | .table _ => true
  | _ => false

def isText : Value → Bool
  | .text _ => true
  | _ => false

end Value

end SourceAudit
