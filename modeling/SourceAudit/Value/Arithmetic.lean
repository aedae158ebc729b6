import SourceAudit.Value.Access

/-!
# Arithmetic of documents

Sums, differences and absolute values of the numbers in documents. Truth values count as numbers; of
two numbers of different kinds the result is a floating-point number.
-/

namespace SourceAudit.Slice

def upTo {α : Type} (stop : Int) (xs : List α) : List α :=
  if stop < 0 then xs.take (xs.length - stop.natAbs) else xs.take stop.toNat

end SourceAudit.Slice

namespace SourceAudit.Value

def whole? : Value → Option Int
  | .int n => some n
  | .bool flag => some (if flag then 1 else 0)
  | _ => none

def double? : Value → Option Double
  | .float n => some n
  | v => v.whole?.map Double.ofInt

def combine (op : String) (wholes : Int → Int → Int) (doubles : Double → Double → Double)
    (l r : Value) : Outcome Value :=
  match l.whole?, r.whole? with
  | some a, some b => .ok (.int (wholes a b))
  | _, _ =>
    match l.double?, r.double? with
    | some a, some b => .ok (.float (doubles a b))
    | _, _ => .error (.notOperable op l.kind r.kind)

def plus (l r : Value) : Outcome Value :=
  combine "+" (· + ·) Double.add l r

def minus (l r : Value) : Outcome Value :=
  combine "-" (· - ·) Double.sub l r

def absolute (v : Value) : Value :=
  match v with
  | .int n => .int n.natAbs
  | .float n => .float (Double.ofFloat n.toFloat.abs)
  | other => other

def asBound (v : Value) : Outcome Int :=
  match v.whole? with
  | some n => .ok n
  | none => .error (.mistyped "slice indices must be integers or None or have an __index__ method")

def raisedTo (least : Int) (v : Value) : Outcome Int := do
  if ← v.greater (.int least) then v.asBound else return least

def loweredTo (most : Int) (v : Value) : Outcome Int := do
  if ← v.less "<" (.int most) then v.asBound else return most

def entry (doc k : Value) : Outcome Value :=
  match doc with
  | .record fs => do
    match ← k.asKey with
    | .text nm => return (field? nm fs).getD .null
    | _ => return .null
  | .table es => do
    let k ← k.asKey
    return ((es.find? fun e => e.1.alike k).map Prod.snd).getD .null
  | other => .error (.noMember other.kind "get")

end SourceAudit.Value
