import SourceAudit.Value.Access

/-!
# Syntax trees

Syntax trees of Python programs. A node has a kind, its parts in the order of the grammar, and the
place where its text begins; a part is a node, a list of parts or a plain value.
-/

namespace SourceAudit.Tree

inductive NodeKind where
  | name
  | attribute
  | subscript
  | call
  | constant
  | binary
  | compare
  | assign
  | annotatedAssign
  | function
  | asyncFunction
  | classDefinition
  | importModule
  | importNames
  | ifStatement
  | forLoop
  | whileLoop
  | tryBlock
  | other (nm : String)
deriving DecidableEq, Repr

namespace NodeKind

def table : List (String × NodeKind) :=
  [("Name", .name), ("Attribute", .attribute), ("Subscript", .subscript), ("Call", .call),
    ("Constant", .constant), ("BinOp", .binary), ("Compare", .compare), ("Assign", .assign),
    ("AnnAssign", .annotatedAssign), ("FunctionDef", .function),
    ("AsyncFunctionDef", .asyncFunction), ("ClassDef", .classDefinition),
    ("Import", .importModule), ("ImportFrom", .importNames), ("If", .ifStatement),
    ("For", .forLoop), ("While", .whileLoop), ("Try", .tryBlock)]

def ofName (nm : String) : NodeKind :=
  ((table.find? fun e => e.1 == nm).map Prod.snd).getD (.other nm)

def label : NodeKind → String
  | .name => "Name"
  | .attribute => "Attribute"
  | .subscript => "Subscript"
  | .call => "Call"
  | .constant => "Constant"
  | .binary => "BinOp"
  | .compare => "Compare"
  | .assign => "Assign"
  | .annotatedAssign => "AnnAssign"
  | .function => "FunctionDef"
  | .asyncFunction => "AsyncFunctionDef"
  | .classDefinition => "ClassDef"
  | .importModule => "Import"
  | .importNames => "ImportFrom"
  | .ifStatement => "If"
  | .forLoop => "For"
  | .whileLoop => "While"
  | .tryBlock => "Try"
  | .other title => title

end NodeKind

inductive Tree where
  | node (k : NodeKind) (parts : List (String × Tree)) (ln col : Option Int)
  | list (xs : List Tree)
  | leaf (v : Value)
deriving Inhabited

def grammar : List (String × List String) := [
  ("AnnAssign", ["target", "annotation", "value", "simple"]), ("Assert", ["test", "msg"]),
  ("Assign", ["targets", "value", "type_comment"]),
  ("AsyncFor", ["target", "iter", "body", "orelse", "type_comment"]),
  ("AsyncFunctionDef", ["name", "args", "body", "decorator_list", "returns", "type_comment"]),
  ("AsyncWith", ["items", "body", "type_comment"]), ("Attribute", ["value", "attr", "ctx"]),
  ("AugAssign", ["target", "op", "value"]), ("Await", ["value"]),
  ("BinOp", ["left", "op", "right"]), ("BoolOp", ["op", "values"]),
  ("Call", ["func", "args", "keywords"]),
  ("ClassDef", ["name", "bases", "keywords", "body", "decorator_list"]),
  ("Compare", ["left", "ops", "comparators"]), ("Constant", ["value", "kind"]),
  ("Delete", ["targets"]), ("Dict", ["keys", "values"]),
  ("DictComp", ["key", "value", "generators"]), ("ExceptHandler", ["type", "name", "body"]),
  ("Expr", ["value"]), ("Expression", ["body"]),
  ("For", ["target", "iter", "body", "orelse", "type_comment"]),
  ("FormattedValue", ["value", "conversion", "format_spec"]),
  ("FunctionDef", ["name", "args", "body", "decorator_list", "returns", "type_comment"]),
  ("FunctionType", ["argtypes", "returns"]), ("GeneratorExp", ["elt", "generators"]),
  ("Global", ["names"]), ("If", ["test", "body", "orelse"]), ("IfExp", ["test", "body", "orelse"]),
  ("Import", ["names"]), ("ImportFrom", ["module", "names", "level"]), ("Interactive", ["body"]),
  ("JoinedStr", ["values"]), ("Lambda", ["args", "body"]), ("List", ["elts", "ctx"]),
  ("ListComp", ["elt", "generators"]), ("Match", ["subject", "cases"]),
  ("MatchAs", ["pattern", "name"]),
  ("MatchClass", ["cls", "patterns", "kwd_attrs", "kwd_patterns"]),
  ("MatchMapping", ["keys", "patterns", "rest"]), ("MatchOr", ["patterns"]),
  ("MatchSequence", ["patterns"]), ("MatchSingleton", ["value"]), ("MatchStar", ["name"]),
  ("MatchValue", ["value"]), ("Module", ["body", "type_ignores"]), ("Name", ["id", "ctx"]),
  ("NamedExpr", ["target", "value"]), ("Nonlocal", ["names"]), ("Raise", ["exc", "cause"]),
  ("Return", ["value"]), ("Set", ["elts"]), ("SetComp", ["elt", "generators"]),
  ("Slice", ["lower", "upper", "step"]), ("Starred", ["value", "ctx"]),
  ("Subscript", ["value", "slice", "ctx"]), ("Try", ["body", "handlers", "orelse", "finalbody"]),
  ("TryStar", ["body", "handlers", "orelse", "finalbody"]), ("Tuple", ["elts", "ctx"]),
  ("TypeIgnore", ["lineno", "tag"]), ("UnaryOp", ["op", "operand"]),
  ("While", ["test", "body", "orelse"]), ("With", ["items", "body", "type_comment"]),
  ("Yield", ["value"]), ("YieldFrom", ["value"]), ("alias", ["name", "asname"]),
  ("arg", ["arg", "annotation", "type_comment"]),
  ("arguments", ["posonlyargs", "args", "vararg", "kwonlyargs", "kw_defaults", "kwarg",
    "defaults"]), ("comprehension", ["target", "iter", "ifs", "is_async"]),
  ("keyword", ["arg", "value"]), ("match_case", ["pattern", "guard", "body"]),
  ("withitem", ["context_expr", "optional_vars"])]

def partsOf (k : String) : List String :=
  ((grammar.find? fun e => e.1 == k).map Prod.snd).getD []

def leafOf (doc : Value) : Value :=
  match doc with
  | .record [("$float", .text spelling)] => .spelled "float" spelling
  | .record [("$complex", .text spelling)] => .spelled "complex" spelling
  | .record [("$ellipsis", _)] => .spelled "ellipsis" "Ellipsis"
  | .record [("$bytes", .text digits)] => .bytes (hexBytes digits.toList)
  | other => other
where
  hexDigit (c : Char) : Nat :=
    if c.isDigit then c.toNat - '0'.toNat else c.toLower.toNat - 'a'.toNat + 10
  hexBytes : List Char → List UInt8
    | a :: b :: tl => UInt8.ofNat (hexDigit a * 16 + hexDigit b) :: hexBytes tl
    | _ => []

def placeOf (fs : List (String × Value)) (k : String) : Option Int :=
  match Value.field? k fs with
  | some (.int n) => some n
  | _ => none

def orderParts (k : String) (parts : List (String × Tree)) : List (String × Tree) :=
  (partsOf k).filterMap fun nm => parts.find? fun part => part.1 == nm

mutual

def ofDocument : Value → Tree
  | .list xs => .list (ofDocuments xs)
  | .record fs =>
    match Value.field? "_" fs with
    | some (.text k) =>
      .node (NodeKind.ofName k) (orderParts k (ofFields fs))
        (placeOf fs "lineno") (placeOf fs "col_offset")
    | _ => .leaf (leafOf (.record fs))
  | other => .leaf other

def ofDocuments : List Value → List Tree
  | [] => []
  | x :: tl => ofDocument x :: ofDocuments tl

def ofFields : List (String × Value) → List (String × Tree)
  | [] => []
  | (k, v) :: tl => (k, ofDocument v) :: ofFields tl

end

namespace Tree

def kind? : Tree → Option NodeKind
  | .node k _ _ _ => some k
  | _ => none

def isKind (t : Tree) (k : NodeKind) : Bool :=
  t.kind? == some k

def line? : Tree → Option Int
  | .node _ _ ln _ => ln
  | _ => none

def column? : Tree → Option Int
  | .node _ _ _ col => col
  | _ => none

def part? (t : Tree) (nm : String) : Option Tree :=
  match t with
  | .node _ parts _ _ => (parts.find? fun part => part.1 == nm).map Prod.snd
  | _ => none

def part (t : Tree) (nm : String) : Tree :=
  (t.part? nm).getD (.leaf .null)

def members (t : Tree) (nm : String) : List Tree :=
  match t.part? nm with
  | some (.list xs) => xs
  | _ => []

def value (t : Tree) (nm : String) : Value :=
  match t.part? nm with
  | some (.leaf v) => v
  | _ => .null

def word (t : Tree) (nm : String) : String :=
  (t.value nm).plain

def lineValue (t : Tree) : Value :=
  match t.line? with
  | some ln => .int ln
  | none => .null

def columnValue (t : Tree) : Value :=
  match t.column? with
  | some col => .int col
  | none => .null

def identifier? (t : Tree) : Option String :=
  if t.isKind .name then some (t.word "id") else none

def path? (t : Tree) : Option String :=
  match t.kind? with
  | some .name => some (t.word "id")
  | some .attribute =>
    (t.part "value").identifier?.map fun base => base ++ "." ++ t.word "attr"
  | _ => none

mutual

def preorder : Tree → List Tree
  | .node k parts ln col => .node k parts ln col :: preorderParts parts
  | .list xs => preorderItems xs
  | .leaf _ => []

def preorderParts : List (String × Tree) → List Tree
  | [] => []
  | (_, part) :: tl => preorder part ++ preorderParts tl

def preorderItems : List Tree → List Tree
  | [] => []
  | x :: tl => preorder x ++ preorderItems tl

end

def isOmitted (k : NodeKind) (nm : String) (part : Tree) : Bool :=
  match part with
  | .leaf .null => !(nm == "value" && (k == .constant || k == .other "MatchSingleton"))
  | _ => false

mutual

def dump : Tree → String
  | .node k parts _ _ => k.label ++ "(" ++ ", ".intercalate (dumpParts k parts) ++ ")"
  | .list xs => "[" ++ ", ".intercalate (dumpItems xs) ++ "]"
  | .leaf v => v.quoted

def dumpParts (k : NodeKind) : List (String × Tree) → List String
  | [] => []
  | (nm, part) :: tl =>
    if isOmitted k nm part then dumpParts k tl
    else (nm ++ "=" ++ dump part) :: dumpParts k tl

def dumpItems : List Tree → List String
  | [] => []
  | x :: tl => dump x :: dumpItems tl

end

end Tree

end SourceAudit.Tree
