import SourceAudit.Tree.Symbols

/-!
# Operations

A syntax tree as a flat list of operations: calls, assignments, imports, control statements and
definitions, in the order of the walk along the tree.
-/

namespace SourceAudit.Tree

namespace Tree

mutual

def shortName : Tree → String
  | .node .name parts ln col => (Tree.node .name parts ln col).word "id"
  | .node .attribute parts ln col =>
    shortNamePart "value" parts ++ "." ++ (Tree.node .attribute parts ln col).word "attr"
  | .node .constant parts ln col =>
    ((Tree.node .constant parts ln col).value "value").quoted
  | .node .call parts _ _ => shortNamePart "func" parts ++ "(...)"
  | other => other.dump

def shortNamePart (wanted : String) : List (String × Tree) → String
  | [] => ""
  | (nm, part) :: tl => if nm == wanted then shortName part else shortNamePart wanted tl

end

end Tree

def statementLines (stmts : List Tree) : List Value :=
  stmts.filterMap fun stmt => stmt.line?.map .int

def operationsAt (nd : Tree) : List Value :=
  let pl := [("col_offset", nd.columnValue)]
  let ln := ("line", nd.lineValue)
  let ls (part : String) : Value := .list (statementLines (nd.members part))
  match nd.kind? with
  | some .call =>
    [.record ([("type", .text "CALL"), ("func", .text (nd.part "func").shortName),
      ("args", .list ((nd.members "args").map fun arg => .text arg.shortName)), ln] ++ pl)]
  | some .assign =>
    let tgts := (nd.members "targets").map Tree.shortName
    [.record ([("type", .text "ASSIGN"), ("target", .text (", ".intercalate tgts)),
      ("value", .text (nd.part "value").shortName), ln] ++ pl)]
  | some .importModule =>
    (nd.members "names").map fun x =>
      .record ([("type", .text "IMPORT"), ("module", x.value "name"),
        ("alias", aliasOf x), ln] ++ pl)
  | some .importNames =>
    (nd.members "names").map fun x =>
      .record ([("type", .text "IMPORT"), ("module", (nd.value "module").orElse (.text "")),
        ("name", x.value "name"), ("alias", aliasOf x), ln] ++ pl)
  | some .ifStatement =>
    [.record ([("type", .text "IF"), ("condition", .text (nd.part "test").shortName), ln,
      ("body_lines", ls "body"), ("else_lines", ls "orelse")] ++ pl)]
  | some .forLoop =>
    [.record ([("type", .text "FOR"), ("target", .text (nd.part "target").shortName),
      ("iter", .text (nd.part "iter").shortName), ln, ("body_lines", ls "body"),
      ("else_lines", ls "orelse")] ++ pl)]
  | some .whileLoop =>
    [.record ([("type", .text "WHILE"), ("condition", .text (nd.part "test").shortName), ln,
      ("body_lines", ls "body"), ("else_lines", ls "orelse")] ++ pl)]
  | some .tryBlock =>
    let handled := (nd.members "handlers").flatMap fun handler =>
      statementLines (handler.members "body")
    [.record ([("type", .text "TRY"), ln, ("body_lines", ls "body"),
      ("except_lines", .list handled), ("else_lines", ls "orelse"),
      ("finally_lines", ls "finalbody")] ++ pl)]
  | some .function =>
    [.record ([("type", .text "FUNCTION_DEF"), ("name", .text (nd.word "name")), ln] ++ pl)]
  | some .classDefinition =>
    [.record ([("type", .text "CLASS_DEF"), ("name", .text (nd.word "name")), ln] ++ pl)]
  | _ => []

def operationsOf (t : Tree) : List Value :=
  t.preorder.flatMap operationsAt

end SourceAudit.Tree
