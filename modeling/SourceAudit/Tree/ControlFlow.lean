import SourceAudit.Tree.Basic
import SourceAudit.Text.Lines

/-!
# Control flow of syntax trees

The control statements of a tree with their extents. `bodyLines` collects the lines of statements
together with those of the statements inside nested control statements; `endLine` estimates where a
statement ends from the statements of its body and its branches.
-/

namespace SourceAudit.Tree

def isControl (t : Tree) : Bool :=
  t.isKind .ifStatement || t.isKind .forLoop || t.isKind .whileLoop ||
    t.isKind .tryBlock

namespace Tree

mutual

def summary : Tree → String
  | .node k parts ln col =>
    let t := Tree.node k parts ln col
    let whole := Str.take 50 t.dump
    match k with
    | .name => t.word "id"
    | .attribute => t.path?.getD whole
    | .compare =>
      match t.members "ops", summaryFirst "comparators" parts with
      | op :: _, some r =>
        let operatorName := (op.kind?.map NodeKind.label).getD ""
        summaryPart "left" parts ++ " " ++ operatorName ++ " " ++ r
      | _, _ => whole
    | .call => ((t.part "func").path?.map fun p => p ++ "(...)").getD whole
    | .constant => (t.value "value").quoted
    | _ => whole
  | other => Str.take 50 other.dump

def summaryPart (wanted : String) : List (String × Tree) → String
  | [] => ""
  | (nm, part) :: tl => if nm == wanted then summary part else summaryPart wanted tl

def summaryFirst (wanted : String) : List (String × Tree) → Option String
  | [] => none
  | (nm, part) :: tl =>
    if nm == wanted then summaryHead part else summaryFirst wanted tl

def summaryHead : Tree → Option String
  | .list (x :: _) => some (summary x)
  | _ => none

end

end Tree

def risingLines (ls : List Int) : List Int :=
  ls.eraseDups.mergeSort fun a b => decide (a ≤ b)

mutual

def statementDepths : Tree → List Int
  | .node k parts ln _ =>
    ln.toList ++
      (if k = .ifStatement ∨ k = .forLoop ∨ k = .whileLoop ∨ k = .tryBlock then
        partDepths k parts
      else [])
  | _ => []

def partDepths (k : NodeKind) : List (String × Tree) → List Int
  | [] => []
  | (nm, part) :: tl =>
    (if nm = "body" ∨ nm = "orelse" then branchDepths part
     else if k = .tryBlock ∧ nm = "finalbody" then branchDepths part
     else if k = .tryBlock ∧ nm = "handlers" then handlerDepths part
     else []) ++ partDepths k tl

def branchDepths : Tree → List Int
  | .list xs => itemDepths xs
  | _ => []

def itemDepths : List Tree → List Int
  | [] => []
  | x :: tl => statementDepths x ++ itemDepths tl

def handlerDepths : Tree → List Int
  | .list xs => handlerBodies xs
  | _ => []

def handlerBodies : List Tree → List Int
  | [] => []
  | handler :: tl => handlerBody handler ++ handlerBodies tl

def handlerBody : Tree → List Int
  | .node _ parts _ _ => bodyPart parts
  | _ => []

def bodyPart : List (String × Tree) → List Int
  | [] => []
  | (nm, part) :: tl => if nm = "body" then branchDepths part else bodyPart tl

end

def bodyLines (stmts : List Tree) : List Int :=
  risingLines (itemDepths stmts)

mutual

def endLine : Tree → Int
  | .node _ parts ln _ => endOfParts (ln.getD 0) parts
  | _ => 0

def endOfParts (highest : Int) : List (String × Tree) → Int
  | [] => highest
  | (nm, part) :: tl =>
    let highest :=
      if nm = "body" then endOfBody highest part
      else if nm = "orelse" ∨ nm = "finalbody" then
        endOfStatements highest part
      else highest
    endOfParts highest tl

def endOfBody (highest : Int) : Tree → Int
  | .list xs => endOfItems highest xs
  | _ => highest

def endOfItems (highest : Int) : List Tree → Int
  | [] => highest
  | x :: tl =>
    let own := match x.line? with
      | some ln => max highest ln
      | none => highest
    endOfItems (if isControl x then max own (endLine x) else own) tl

def endOfStatements (highest : Int) : Tree → Int
  | .list xs =>
    xs.foldl
      (fun highest x =>
        match x.line? with
        | some ln => max highest ln
        | none => highest)
      highest
  | _ => highest

end

inductive StructureKind where
  | branch
  | loopOver
  | loopWhile
  | guarded
deriving DecidableEq, Repr

namespace StructureKind

def label : StructureKind → String
  | .branch => "if"
  | .loopOver => "for"
  | .loopWhile => "while"
  | .guarded => "try"

def ofNode? (k : NodeKind) : Option StructureKind :=
  match k with
  | .ifStatement => some .branch
  | .forLoop => some .loopOver
  | .whileLoop => some .loopWhile
  | .tryBlock => some .guarded
  | _ => none

end StructureKind

structure ControlStructure where
  kind : StructureKind
  first : Int
  last : Int
  head : List (String × String)
  body : List Int
  handlers : List Int
  otherwise : List Int
  final : List Int

namespace ControlStructure

def toValue (f : ControlStructure) : Value :=
  let head := [("type", Value.text f.kind.label), ("start_line", .int f.first),
    ("end_line", .int f.last)]
  let body := [("body_lines", Value.ofInts f.body)]
  let otherwise := [("else_lines", Value.ofInts f.otherwise)]
  match f.kind with
  | .guarded =>
    .record (head ++ body ++ [("except_lines", Value.ofInts f.handlers)] ++ otherwise ++
      [("finally_lines", Value.ofInts f.final)])
  | _ =>
    .record (head ++ f.head.map (fun (k, t) => (k, Value.text t)) ++ body ++ otherwise)

end ControlStructure

def structureAt (nd : Tree) : List ControlStructure :=
  match nd.kind?.bind StructureKind.ofNode? with
  | none => []
  | some kind =>
    let head := match kind with
      | .loopOver =>
        [("target", (nd.part "target").summary), ("iter", (nd.part "iter").summary)]
      | .guarded => []
      | _ => [("condition", (nd.part "test").summary)]
    [{ kind, first := nd.line?.getD 0, last := endLine nd, head
       body := bodyLines (nd.members "body")
       handlers := (nd.members "handlers").flatMap fun handler =>
         bodyLines (handler.members "body")
       otherwise := bodyLines (nd.members "orelse")
       final := bodyLines (nd.members "finalbody") }]

def structuresOf (t : Tree) : List ControlStructure :=
  t.preorder.flatMap structureAt

end SourceAudit.Tree
