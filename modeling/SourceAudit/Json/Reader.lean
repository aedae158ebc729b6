import SourceAudit.Json.Writer

/-!
# Reading JSON

A reader for JSON texts. Records keep the order of their fields, and a repeated field keeps its
first place with its last value.
-/

namespace SourceAudit.Json

def isSpace (c : Char) : Bool :=
  c == ' ' || c == '\t' || c == '\n' || c == '\r'

def skipSpace (t : List Char) : List Char :=
  t.dropWhile isSpace

def hexValue? (c : Char) : Option Nat :=
  if '0' ≤ c && c ≤ '9' then some (c.toNat - '0'.toNat)
  else if 'a' ≤ c && c ≤ 'f' then some (c.toNat - 'a'.toNat + 10)
  else if 'A' ≤ c && c ≤ 'F' then some (c.toNat - 'A'.toNat + 10)
  else none

def readHex4 : List Char → Option (Nat × List Char)
  | a :: b :: c :: d :: tl => do
    let a ← hexValue? a
    let b ← hexValue? b
    let c ← hexValue? c
    let d ← hexValue? d
    some (a * 4096 + b * 256 + c * 16 + d, tl)
  | _ => none

def isHighSurrogate (unit : Nat) : Bool := 0xD800 ≤ unit && unit ≤ 0xDBFF

def isLowSurrogate (unit : Nat) : Bool := 0xDC00 ≤ unit && unit ≤ 0xDFFF

def charOfUnit (unit : Nat) : Char :=
  if 0xD800 ≤ unit && unit ≤ 0xDFFF then Char.ofNat 0xFFFD else Char.ofNat unit

def simpleEscape? (c : Char) : Option Char :=
  if c == '"' then some '"'
  else if c == '\\' then some '\\'
  else if c == '/' then some '/'
  else if c == 'b' then some (Char.ofNat 8)
  else if c == 'f' then some (Char.ofNat 12)
  else if c == 'n' then some '\n'
  else if c == 'r' then some '\r'
  else if c == 't' then some '\t'
  else none

def readEscape : List Char → Option (Char × List Char)
  | 'u' :: tl => do
    let (unit, tl) ← readHex4 tl
    if isHighSurrogate unit then
      match tl with
      | '\\' :: 'u' :: more =>
        match readHex4 more with
        | some (low, more) =>
          if isLowSurrogate low then
            some (Char.ofNat (0x10000 + (unit - 0xD800) * 1024 + (low - 0xDC00)), more)
          else some (charOfUnit unit, tl)
        | none => none
      | _ => some (charOfUnit unit, tl)
    else some (charOfUnit unit, tl)
  | c :: tl => (simpleEscape? c).map fun denoted => (denoted, tl)
  | [] => none

def readText : (fuel : Nat) → (con : List Char) → List Char → Option (String × List Char)
  | 0, _, _ => none
  | _ + 1, _, [] => none
  | fuel + 1, con, c :: tl =>
    if c == '"' then some (String.ofList con.reverse, tl)
    else if c == '\\' then
      match readEscape tl with
      | some (denoted, tl) => readText fuel (denoted :: con) tl
      | none => none
    else if c.toNat < 32 then none
    else readText fuel (c :: con) tl

def digitsValue (digits : List Char) : Nat :=
  digits.foldl (fun total c => total * 10 + (c.toNat - '0'.toNat)) 0

def doubleOfDecimal (neg : Bool) (digits : Nat) (ex : Int) : Double :=
  Double.signed neg (Decimal.nearestBits digits ex)

def readFraction : List Char → Option (List Char × List Char)
  | '.' :: tl =>
    let digits := tl.takeWhile Text.isAsciiDigit
    if digits.isEmpty then none else some (digits, tl.dropWhile Text.isAsciiDigit)
  | _ => none

def readExponent : List Char → Option (Int × List Char)
  | c :: tl =>
    if c == 'e' || c == 'E' then
      let (neg, tl) := match tl with
        | '-' :: more => (true, more)
        | '+' :: more => (false, more)
        | more => (false, more)
      let digits := tl.takeWhile Text.isAsciiDigit
      if digits.isEmpty then none
      else
        let size := Int.ofNat (digitsValue digits)
        some (if neg then -size else size, tl.dropWhile Text.isAsciiDigit)
    else none
  | [] => none

def readWhole : List Char → Option (List Char × List Char)
  | '0' :: tl => some (['0'], tl)
  | t =>
    let digits := t.takeWhile Text.isAsciiDigit
    if digits.isEmpty then none else some (digits, t.dropWhile Text.isAsciiDigit)

def readUnsigned (neg : Bool) (t : List Char) : Option (Value × List Char) := do
  let (whole, tl) ← readWhole t
  let (fraction, tl) := (readFraction tl).getD ([], tl)
  let ex := readExponent tl
  let tl := (ex.map Prod.snd).getD tl
  if fraction.isEmpty && ex.isNone then
    let n := Int.ofNat (digitsValue whole)
    some (.int (if neg then -n else n), tl)
  else
    let scale := (ex.map Prod.fst).getD 0 - Int.ofNat fraction.length
    some (.float (doubleOfDecimal neg (digitsValue (whole ++ fraction)) scale), tl)

def infinity (neg : Bool) : Value :=
  .float ⟨if neg then 0xFFF0000000000000 else 0x7FF0000000000000⟩

def notANumber : Value := .float Double.notANumber

def readNumber (t : List Char) : Option (Value × List Char) :=
  match t with
  | '-' :: tl =>
    match Text.after? "Infinity".toList tl with
    | some tl => some (infinity true, tl)
    | none => readUnsigned true tl
  | _ => readUnsigned false t

def readWord (t : List Char) : Option (Value × List Char) :=
  let words : List (String × Value) :=
    [("null", .null), ("true", .bool true), ("false", .bool false), ("NaN", notANumber),
      ("Infinity", infinity false)]
  words.findSome? fun (w, v) =>
    (Text.after? w.toList t).map fun tl => (v, tl)

mutual

def readValue : (fuel : Nat) → List Char → Option (Value × List Char)
  | 0, _ => none
  | fuel + 1, t =>
    match t with
    | '"' :: tl => (readText fuel [] tl).map fun (c, tl) =>
      (.text c, tl)
    | '[' :: tl =>
      match skipSpace tl with
      | ']' :: tl => some (.list [], tl)
      | tl => (readItems fuel tl).map fun (xs, tl) => (.list xs, tl)
    | '\x7b' :: tl =>
      match skipSpace tl with
      | '\x7d' :: tl => some (.record [], tl)
      | tl => (readFields fuel [] tl).map fun (fs, tl) => (.record fs, tl)
    | _ =>
      match readWord t with
      | some f => some f
      | none => readNumber t

def readItems : (fuel : Nat) → List Char → Option (List Value × List Char)
  | 0, _ => none
  | fuel + 1, t =>
    match readValue fuel t with
    | none => none
    | some (x, tl) =>
      match skipSpace tl with
      | ',' :: tl =>
        (readItems fuel (skipSpace tl)).map fun (xs, tl) => (x :: xs, tl)
      | ']' :: tl => some ([x], tl)
      | _ => none

def readFields : (fuel : Nat) → List (String × Value) → List Char →
    Option (List (String × Value) × List Char)
  | 0, _, _ => none
  | fuel + 1, fs, t =>
    match t with
    | '"' :: tl =>
      match readText fuel [] tl with
      | none => none
      | some (k, tl) =>
        match skipSpace tl with
        | ':' :: tl =>
          match readValue fuel (skipSpace tl) with
          | none => none
          | some (v, tl) =>
            let fs := Value.setField k v fs
            match skipSpace tl with
            | ',' :: tl => readFields fuel fs (skipSpace tl)
            | '\x7d' :: tl => some (fs, tl)
            | _ => none
        | _ => none
    | _ => none

end

def read? (t : String) : Option Value :=
  let chars := skipSpace t.toList
  match readValue (2 * chars.length + 2) chars with
  | some (v, tl) => if (skipSpace tl).isEmpty then some v else none
  | none => none

end SourceAudit.Json
