import SourceAudit.Tree.Basic

/-!
# Symbols

The functions, variables, imports and classes of a syntax tree, each list in the order of the walk
along the tree.
-/

namespace SourceAudit.Tree

structure FunctionSymbol where
  name : String
  line : Value
  owner : Option String

namespace FunctionSymbol

def toValue (symbol : FunctionSymbol) : Value :=
  match symbol.owner with
  | none => .record [("name", .text symbol.name), ("line", symbol.line), ("is_method", .bool false)]
  | some owner =>
    .record [("name", .text symbol.name), ("line", symbol.line), ("is_method", .bool true),
      ("class_name", .text owner)]

end FunctionSymbol

def isFunction (t : Tree) : Bool :=
  t.isKind .function || t.isKind .asyncFunction

def functionSymbols (nd : Tree) : List FunctionSymbol :=
  if isFunction nd then
    [{ name := nd.word "name", line := nd.lineValue, owner := none }]
  else if nd.isKind .classDefinition then
    (nd.members "body").filterMap fun x =>
      if isFunction x then
        some { name := x.word "name", line := x.lineValue, owner := some (nd.word "name") }
      else none
  else []

def variableSymbol (nm : String) (ln : Value) (k : String) : Value :=
  .record [("name", .text nm), ("line", ln), ("type", .text k)]

def targetSymbol (ln : Value) (tgt : Tree) : List Value :=
  match tgt.kind? with
  | some .name => [variableSymbol (tgt.word "id") ln "variable"]
  | some .attribute =>
    match tgt.path? with
    | some p => [variableSymbol p ln "attribute"]
    | none => []
  | _ => []

def variableSymbols (nd : Tree) : List Value :=
  match nd.kind? with
  | some .assign => (nd.members "targets").flatMap (targetSymbol nd.lineValue)
  | some .annotatedAssign =>
    let tgt := nd.part "target"
    if tgt.isKind .name then
      [variableSymbol (tgt.word "id") nd.lineValue "variable"]
    else []
  | _ => []

def aliasOf (x : Tree) : Value :=
  (x.value "asname").orElse (x.value "name")

def importSymbols (nd : Tree) : List Value :=
  match nd.kind? with
  | some .importModule =>
    (nd.members "names").map fun x =>
      .record [("module", x.value "name"), ("alias", aliasOf x),
        ("line", nd.lineValue), ("type", .text "import")]
  | some .importNames =>
    (nd.members "names").map fun x =>
      .record [("module", (nd.value "module").orElse (.text "")),
        ("name", x.value "name"), ("alias", aliasOf x), ("line", nd.lineValue),
        ("type", .text "from_import")]
  | _ => []

def classSymbols (nd : Tree) : List Value :=
  if nd.isKind .classDefinition then
    [.record [("name", .text (nd.word "name")), ("line", nd.lineValue)]]
  else []

def functionsOf (t : Tree) : List FunctionSymbol :=
  t.preorder.flatMap functionSymbols

def symbolsOf (t : Tree) : Value :=
  let nodes := t.preorder
  .record [("functions", .list ((functionsOf t).map (·.toValue))),
    ("variables", .list (nodes.flatMap variableSymbols)),
    ("imports", .list (nodes.flatMap importSymbols)),
    ("classes", .list (nodes.flatMap classSymbols))]

end SourceAudit.Tree
