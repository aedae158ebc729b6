import SourceAudit.Value.Fault

/-!
# Reading documents

Access to documents of unknown shape. Each function succeeds on the kinds of values that have the
operation and otherwise gives the fault that says which kind was met.
-/

namespace SourceAudit

abbrev Outcome (α : Type) := Except Fault α

namespace Value

def ratio? : Value → Option (Int × Nat)
  | .bool flag => some (if flag then 1 else 0, 1)
  | .int n => some (n, 1)
  | .float n =>
    if n.isNaN || n.isInfinite then none else some n.ratio
  | _ => none

def isNumber : Value → Bool
  | .bool _ => true
  | .int _ => true
  | .float _ => true
  | _ => false

def infinite? : Value → Option Bool
  | .float number => if number.isInfinite then some (!number.isNegative) else none
  | _ => none

def isNaN : Value → Bool
  | .float n => n.isNaN
  | _ => false

def compareNumbers (left right : Value) : Option Ordering :=
  if left.isNaN || right.isNaN then none
  else match left.infinite?, right.infinite? with
    | some l, some r => some (if l == r then .eq else if l then .gt else .lt)
    | some l, none => some (if l then .gt else .lt)
    | none, some r => some (if r then .lt else .gt)
    | none, none =>
      match left.ratio?, right.ratio? with
      | some (a, b), some (c, d) =>
        some (compare (a * Int.ofNat d) (c * Int.ofNat b))
      | _, _ => none

def sameNaN : Value → Value → Bool
  | .float l, .float r => l.isNaN && l == r
  | _, _ => false

mutual

def same : Value → Value → Bool
  | .null, .null => true
  | .text l, .text r => l == r
  | .bytes l, .bytes r => l == r
  | .list l, .list r => sameItems l r
  | .tuple l, .tuple r => sameItems l r
  | .record l, .record r => l.length == r.length && sameFields l r
  | .table l, .table r => l.length == r.length && sameEntries l r
  | .record l, .table r => l.isEmpty && r.isEmpty
  | .table l, .record r => l.isEmpty && r.isEmpty
  | .code l, .code r => l == r
  | .spelled _ l, .spelled _ r => l == r
  | l, r =>
    l.isNumber && r.isNumber && l.compareNumbers r == some .eq

def sameItems : List Value → List Value → Bool
  | [], [] => true
  | l :: lefts, r :: rights =>
    (l.sameNaN r || l.same r) && sameItems lefts rights
  | _, _ => false

def sameFields : List (String × Value) → List (String × Value) → Bool
  | [], _ => true
  | (k, v) :: tl, r =>
    (match field? k r with
      | some other => v.sameNaN other || v.same other
      | none => false) && sameFields tl r

def sameEntries : List (Value × Value) → List (Value × Value) → Bool
  | [], _ => true
  | (k, v) :: tl, r =>
    (r.any fun e => (k.sameNaN e.1 || k.same e.1) &&
      (v.sameNaN e.2 || v.same e.2)) && sameEntries tl r

end

def alike (l r : Value) : Bool :=
  l.sameNaN r || l.same r

def among (v : Value) (xs : List Value) : Bool :=
  xs.any fun x => v.alike x

mutual

def unhashable? : Value → Option Kind
  | .list _ => some .list
  | .record _ => some .record
  | .table _ => some .record
  | .tuple xs => unhashableItem? xs
  | _ => none

def unhashableItem? : List Value → Option Kind
  | [] => none
  | x :: tl =>
    match x.unhashable? with
    | some k => some k
    | none => unhashableItem? tl

end

def asKey (v : Value) : Outcome Value :=
  match v.unhashable? with
  | some k => .error (.unhashable k)
  | none => .ok v

mutual

def less (op : String) : Value → Value → Outcome Bool
  | .text l, .text r => .ok (l < r)
  | .bytes l, .bytes r => .ok (decide (l < r))
  | .list l, .list r => lessItems op l r
  | .tuple l, .tuple r => lessItems op l r
  | l, r =>
    if l.isNumber && r.isNumber then
      .ok (l.compareNumbers r == some .lt)
    else .error (.notComparable op l.kind r.kind)

def lessItems (op : String) : List Value → List Value → Outcome Bool
  | [], [] => .ok false
  | [], _ :: _ => .ok true
  | _ :: _, [] => .ok false
  | l :: lefts, r :: rights =>
    if l.alike r then lessItems op lefts rights else l.less op r

end

def atMost (left right : Value) : Outcome Bool :=
  match left, right with
  | .text l, .text r => .ok (l == r || decide (l < r))
  | _, _ =>
    if left.isNumber && right.isNumber then
      .ok (match left.compareNumbers right with
        | some .gt => false
        | some _ => true
        | none => false)
    else .error (.notComparable "<=" left.kind right.kind)

def greater (left right : Value) : Outcome Bool :=
  match left, right with
  | .text l, .text r => .ok (decide (r < l))
  | _, _ =>
    if left.isNumber && right.isNumber then .ok (left.compareNumbers right == some .gt)
    else .error (.notComparable ">" left.kind right.kind)

def atLeast (left right : Value) : Outcome Bool :=
  match left, right with
  | .text l, .text r => .ok (l == r || decide (r < l))
  | _, _ =>
    if left.isNumber && right.isNumber then
      .ok (match left.compareNumbers right with
        | some .lt => false
        | some _ => true
        | none => false)
    else .error (.notComparable ">=" left.kind right.kind)

def getD (doc : Value) (k : String) (missing : Value) : Outcome Value :=
  match doc with
  | .record fs => .ok ((field? k fs).getD missing)
  | .table _ => .ok missing
  | other => .error (.noMember other.kind "get")

def get (doc : Value) (k : String) : Outcome Value :=
  doc.getD k .null

def need (doc : Value) (k : String) : Outcome Value :=
  match doc with
  | .record fs =>
    match field? k fs with
    | some v => .ok v
    | none => .error (.missingKey (.text k))
  | .table _ => .error (.missingKey (.text k))
  | .text _ => .error (.textIndex .text)
  | .list _ => .error (.listIndex .text)
  | .tuple _ => .error (.mistyped "tuple indices must be integers or slices, not str")
  | other => .error (.notSubscriptable other.kind)

def items (v : Value) : Outcome (List Value) :=
  match v with
  | .list xs => .ok xs
  | .tuple xs => .ok xs
  | .text con => .ok (con.toList.map fun c => .text (String.singleton c))
  | .bytes con => .ok (con.map fun byte => .int byte.toNat)
  | .record fs => .ok (fs.map fun e => .text e.1)
  | .table es => .ok (es.map Prod.fst)
  | other => .error (.notIterable other.kind)

def length (v : Value) : Outcome Nat :=
  match v with
  | .list xs => .ok xs.length
  | .tuple xs => .ok xs.length
  | .text c => .ok c.length
  | .bytes c => .ok c.length
  | .record fs => .ok fs.length
  | .table es => .ok es.length
  | other => .error (.noLength other.kind)

def fields (v : Value) : Outcome (List (String × Value)) :=
  match v with
  | .record fs => .ok fs
  | .table [] => .ok []
  | other => .error (.noMember other.kind "items")

def leading (n : Nat) (v : Value) : Outcome Value :=
  match v with
  | .text c => .ok (.text (Str.take n c))
  | .list xs => .ok (.list (xs.take n))
  | .tuple xs => .ok (.tuple (xs.take n))
  | .bytes c => .ok (.bytes (c.take n))
  | .record _ | .table _ => .error (.mistyped "unhashable type: 'slice'")
  | other => .error (.notSubscriptable other.kind)

def asText (member : String) (v : Value) : Outcome String :=
  match v with
  | .text c => .ok c
  | other => .error (.noMember other.kind member)

def lower (v : Value) : Outcome String :=
  (v.asText "lower").map Str.lower

def upper (v : Value) : Outcome String :=
  (v.asText "upper").map Str.upper

def strip (v : Value) : Outcome String :=
  (v.asText "strip").map Str.trim

def holdsWord (w : String) (v : Value) : Outcome Bool :=
  match v with
  | .text c => .ok (Str.occurs w c)
  | .list xs => .ok (xs.any fun x => x.same (.text w))
  | .tuple xs => .ok (xs.any fun x => x.same (.text w))
  | .record fs => .ok (fs.any fun e => e.1 == w)
  | .table _ => .ok false
  | .bytes _ => .error (.mistyped "a bytes-like object is required, not 'str'")
  | other => .error (.notContainer other.kind)

def readDigits (previousDigit : Bool) (total : Nat) : List Char → Option Nat
  | [] => if previousDigit then some total else none
  | c :: tl =>
    match Text.decimalValue? c with
    | some digit => readDigits true (total * 10 + digit) tl
    | none => if c == '_' && previousDigit then readDigits false total tl else none

def readInteger (t : String) : Option Int :=
  match Text.trim t.toList with
  | '-' :: digits => (readDigits false 0 digits).map fun n => -Int.ofNat n
  | '+' :: digits => (readDigits false 0 digits).map Int.ofNat
  | digits => (readDigits false 0 digits).map Int.ofNat

def toInteger (v : Value) : Outcome Int :=
  match v with
  | .int n => .ok n
  | .bool flag => .ok (if flag then 1 else 0)
  | .float n =>
    if n.isNaN then .error .nanInteger
    else if n.isInfinite then .error .infiniteInteger
    else .ok n.truncate
  | .text c =>
    match readInteger c with
    | some n => .ok n
    | none => .error (.badInteger c)
  | .bytes c =>
    match readInteger (Text.Utf8.decodeReplacing c) with
    | some n => .ok n
    | none => .error (.invalid ("invalid literal for int() with base 10: " ++ Text.Quote.bytes c))
  | other => .error (.notInteger other.kind)

def toDouble (v : Value) : Outcome Double :=
  match v with
  | .bool flag => .ok (Double.ofNat (if flag then 1 else 0))
  | .int n => .ok (Double.ofInt n)
  | .float n => .ok n
  | .text c =>
    match readInteger c with
    | some n => .ok (Double.ofInt n)
    | none => .error (.badFloatText c)
  | other => .error (.notFloat other.kind)

def asAppended (v : Value) : Outcome (List Value) :=
  match v with
  | .list xs => .ok xs
  | other => .error (.mistyped s!"can only concatenate list (not \"{other.kind.name}\") to list")

def joinTexts (glue : String) (xs : List Value) : Outcome String := do
  let texts ← xs.zipIdx.mapM fun (x, pos) =>
    match x with
    | .text c => .ok c
    | other => .error (.notText pos other.kind)
  .ok (Str.join glue texts)

end Value

namespace Sorting

def fallingRun {α : Type} (less : α → α → Outcome Bool) (prev : α) :
    List α → Outcome (List α × List α)
  | [] => .ok ([], [])
  | x :: tl => do
    if ← less x prev then
      let (run, others) ← fallingRun less x tl
      .ok (x :: run, others)
    else .ok ([], x :: tl)

def risingRun {α : Type} (less : α → α → Outcome Bool) (prev : α) :
    List α → Outcome (List α × List α)
  | [] => .ok ([], [])
  | x :: tl => do
    if ← less x prev then .ok ([], x :: tl)
    else
      let (run, others) ← risingRun less x tl
      .ok (x :: run, others)

def placeOf {α : Type} (less : α → α → Outcome Bool) (pivot : α) (sorted : Array α) :
    (fuel low high : Nat) → Outcome Nat
  | 0, low, _ => .ok low
  | fuel + 1, low, high =>
    if low < high then do
      let mid := low + (high - low) / 2
      match sorted[mid]? with
      | none => .ok low
      | some x =>
        if ← less pivot x then placeOf less pivot sorted fuel low mid
        else placeOf less pivot sorted fuel (mid + 1) high
    else .ok low

def insertAll {α : Type} (less : α → α → Outcome Bool) (sorted : Array α) :
    List α → Outcome (Array α)
  | [] => .ok sorted
  | pivot :: tl => do
    let pl ← placeOf less pivot sorted (sorted.size + 1) 0 sorted.size
    insertAll less ((sorted.extract 0 pl).push pivot ++ sorted.extract pl sorted.size) tl

def sort {α : Type} (less : α → α → Outcome Bool) : List α → Outcome (List α)
  | [] => .ok []
  | [single] => .ok [single]
  | a :: b :: tl => do
    let (run, others) ←
      if ← less b a then do
        let (run, others) ← fallingRun less b tl
        .ok ((a :: b :: run).reverse, others)
      else do
        let (run, others) ← risingRun less b tl
        .ok (a :: b :: run, others)
    let sorted ← insertAll less run.toArray others
    .ok sorted.toList

end Sorting

namespace Value

def sorted (vs : List Value) : Outcome (List Value) :=
  Sorting.sort (fun l r => l.less "<" r) vs

end Value

end SourceAudit
