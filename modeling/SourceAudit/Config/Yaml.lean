import SourceAudit.Json.Reader

/-!
# Reading YAML

A reader for the part of YAML that configuration files use: mappings and sequences in block form,
flow collections on the lines of their values, plain and quoted scalars, and comments.
-/

namespace SourceAudit.Yaml

structure Line where
  indent : Nat
  text : List Char
deriving DecidableEq, Repr

def isRemark (t : List Char) : Bool :=
  match t.dropWhile (· == ' ') with
  | [] => true
  | c :: _ => c == '#'

def beforeRemark (prev : Char) : List Char → List Char
  | [] => []
  | c :: tl => if c == '#' && prev == ' ' then [] else c :: beforeRemark c tl

def nullWords : List String := ["", "~", "null", "Null", "NULL"]

def trueWords : List String :=
  ["yes", "Yes", "YES", "true", "True", "TRUE", "on", "On", "ON"]

def falseWords : List String :=
  ["no", "No", "NO", "false", "False", "FALSE", "off", "Off", "OFF"]

def splitSign : List Char → Bool × List Char
  | '-' :: tl => (true, tl)
  | '+' :: tl => (false, tl)
  | t => (false, t)

def digitsIn (base : Nat) (digits : List Char) : Option Nat :=
  let digits := digits.filter (· != '_')
  if digits.isEmpty then none
  else digits.foldlM
    (fun total c => do
      let digit ← Json.hexValue? c if digit < base then some (total * base + digit) else none)
    0

def whole? (t : List Char) : Option Int :=
  let (neg, digits) := splitSign t
  let size := match digits with
    | ['0'] => some 0
    | '0' :: 'b' :: tl => digitsIn 2 tl
    | '0' :: 'x' :: tl => digitsIn 16 tl
    | '0' :: tl => digitsIn 8 tl
    | '_' :: _ => none
    | other => digitsIn 10 other
  size.map fun size => if neg then -Int.ofNat size else Int.ofNat size

def exponent? : List Char → Option Int
  | [] => some 0
  | mark :: sign :: digits =>
    if (mark == 'e' || mark == 'E') && (sign == '-' || sign == '+') then
      (digitsIn 10 digits).map fun size =>
        if sign == '-' then -Int.ofNat size else Int.ofNat size
    else none
  | _ => none

def fraction? (t : List Char) : Option Double := do
  let (neg, digits) := splitSign t
  let isPart (c : Char) : Bool := Text.isAsciiDigit c || c == '_'
  let before := digits.takeWhile isPart
  match digits.dropWhile isPart with
  | '.' :: tl =>
    let after := tl.takeWhile isPart
    let ex ← exponent? (tl.dropWhile isPart)
    let before := before.filter (· != '_')
    let after := after.filter (· != '_')
    if before.isEmpty && after.isEmpty then none
    else some (Json.doubleOfDecimal neg (Json.digitsValue (before ++ after)) (ex - after.length))
  | _ => none

def plainValue (t : List Char) : Value :=
  let w := String.ofList t
  if nullWords.contains w then .null
  else if trueWords.contains w then .bool true
  else if falseWords.contains w then .bool false
  else
    match whole? t with
    | some n => .int n
    | none =>
      match fraction? t with
      | some n => .float n
      | none => .text w

def escapes : List (Char × Char) :=
  [('0', Char.ofNat 0), ('a', Char.ofNat 7), ('b', Char.ofNat 8), ('t', '\t'), ('n', '\n'),
    ('v', Char.ofNat 11), ('f', Char.ofNat 12), ('r', '\r'), ('e', Char.ofNat 27), (' ', ' '),
    ('"', '"'), ('\\', '\\'), ('/', '/'), ('N', Char.ofNat 0x85), ('_', Char.ofNat 0xA0),
    ('L', Char.ofNat 0x2028), ('P', Char.ofNat 0x2029)]

def escapeWidth (letter : Char) : Option Nat :=
  match letter with
  | 'x' => some 2
  | 'u' => some 4
  | 'U' => some 8
  | _ => none

def doubleQuoted : (fuel : Nat) → List Char → Option (List Char × List Char)
  | 0, _ => none
  | _ + 1, [] => none
  | _ + 1, '"' :: tl => some ([], tl)
  | fuel + 1, '\\' :: letter :: tl =>
    match escapeWidth letter with
    | some width => do
      let code ← digitsIn 16 (tl.take width)
      if tl.length < width then none
      let (con, tl) ← doubleQuoted fuel (tl.drop width)
      return (Char.ofNat code :: con, tl)
    | none => do
      let (_, image) ← escapes.find? fun e => e.1 == letter
      let (con, tl) ← doubleQuoted fuel tl
      return (image :: con, tl)
  | fuel + 1, c :: tl => do
    let (con, tl) ← doubleQuoted fuel tl
    return (c :: con, tl)

def singleQuoted : List Char → Option (List Char × List Char)
  | [] => none
  | '\'' :: '\'' :: tl => do
    let (con, tl) ← singleQuoted tl
    return ('\'' :: con, tl)
  | '\'' :: tl => some ([], tl)
  | c :: tl => do
    let (con, tl) ← singleQuoted tl
    return (c :: con, tl)

def quoted? : List Char → Option (List Char × List Char)
  | '"' :: tl => doubleQuoted (tl.length + 1) tl
  | '\'' :: tl => singleQuoted tl
  | _ => none

def isFlowMark (c : Char) : Bool :=
  c == ',' || c == '[' || c == ']' || c == '\x7b' || c == '\x7d'

def flowPlain : List Char → List Char × List Char
  | [] => ([], [])
  | ':' :: [] => ([], [':'])
  | ':' :: next :: tl =>
    if next == ' ' || isFlowMark next then ([], ':' :: next :: tl)
    else
      let (t, others) := flowPlain (next :: tl)
      (':' :: t, others)
  | c :: tl =>
    if isFlowMark c then ([], c :: tl)
    else
      let (t, others) := flowPlain tl
      (c :: t, others)

def flowScalar (t : List Char) : Option (Value × List Char) :=
  match quoted? t with
  | some (c, tl) => some (.text (String.ofList c), tl)
  | none =>
    match t with
    | '"' :: _ => none
    | '\'' :: _ => none
    | _ =>
      let (c, tl) := flowPlain t
      some (plainValue (Text.trim c), tl)

mutual

def flowValue : (fuel : Nat) → List Char → Option (Value × List Char)
  | 0, _ => none
  | fuel + 1, t =>
    match Json.skipSpace t with
    | '[' :: tl => do
      let (xs, tl) ← flowItems fuel tl
      return (.list xs, tl)
    | '\x7b' :: tl => do
      let (fs, tl) ← flowFields fuel [] tl
      return (.record fs, tl)
    | scalar => flowScalar scalar

def flowItems : (fuel : Nat) → List Char → Option (List Value × List Char)
  | 0, _ => none
  | fuel + 1, t =>
    match Json.skipSpace t with
    | ']' :: tl => some ([], tl)
    | other => do
      let (x, tl) ← flowValue fuel other
      match Json.skipSpace tl with
      | ',' :: tl =>
        let (xs, tl) ← flowItems fuel tl
        return (x :: xs, tl)
      | ']' :: tl => return ([x], tl)
      | _ => none

def flowFields : (fuel : Nat) → List (String × Value) → List Char →
    Option (List (String × Value) × List Char)
  | 0, _, _ => none
  | fuel + 1, known, t =>
    match Json.skipSpace t with
    | '\x7d' :: tl => some (known, tl)
    | other => do
      let (k, tl) ← flowScalar other
      let (v, tl) ← match Json.skipSpace tl with
        | ':' :: tl =>
          match Json.skipSpace tl with
          | ',' :: _ => some (.null, tl)
          | '\x7d' :: _ => some (.null, tl)
          | _ => flowValue fuel tl
        | tl => some (.null, tl)
      let known := Value.setField k.plain v known
      match Json.skipSpace tl with
      | ',' :: tl => flowFields fuel known tl
      | '\x7d' :: tl => return (known, tl)
      | _ => none

end

def inlineValue (t : List Char) : Option Value :=
  match Json.skipSpace t with
  | [] => some .null
  | a :: tl =>
    if a == '#' then some .null
    else if a == '[' || a == '\x7b' then do
      let (v, tl) ← flowValue (tl.length + 2) (a :: tl)
      if isRemark tl then some v else none
    else if a == '"' || a == '\'' then do
      let (c, tl) ← quoted? (a :: tl)
      if isRemark tl then some (.text (String.ofList c)) else none
    else if "|>&*!%@\x60".toList.contains a then none
    else some (plainValue (Text.trim (beforeRemark ' ' (a :: tl))))

def plainKey? : List Char → Option (List Char × List Char)
  | [] => none
  | [':'] => some ([], [])
  | ':' :: ' ' :: tl => some ([], tl)
  | ' ' :: '#' :: _ => none
  | c :: tl => (plainKey? tl).map fun (k, v) => (c :: k, v)

def key? (t : List Char) : Option (String × List Char) :=
  match t with
  | '[' :: _ => none
  | '\x7b' :: _ => none
  | '"' :: _ => quotedKey t
  | '\'' :: _ => quotedKey t
  | _ => (plainKey? t).map fun (k, tl) => ((plainValue (Text.trim k)).plain, tl)
where
  quotedKey (t : List Char) : Option (String × List Char) := do
    let (c, tl) ← quoted? t
    match tl.dropWhile (· == ' ') with
    | [':'] => some (String.ofList c, [])
    | ':' :: ' ' :: tl => some (String.ofList c, tl)
    | _ => none

def item? (ln : Line) : Option Line :=
  match ln.text with
  | ['-'] => some { indent := ln.indent + 1, text := [] }
  | '-' :: ' ' :: tl =>
    let blanks := tl.takeWhile (· == ' ')
    some { indent := ln.indent + 2 + blanks.length, text := tl.drop blanks.length }
  | _ => none

mutual

def block : (fuel : Nat) → List Line → Option (Value × List Line)
  | 0, _ => none
  | _ + 1, [] => some (.null, [])
  | fuel + 1, ln :: tl =>
    if (item? ln).isSome then do
      let (xs, tl) ← sequence fuel ln.indent (ln :: tl)
      return (.list xs, tl)
    else if (key? ln.text).isSome then do
      let (fs, tl) ← mapping fuel ln.indent [] (ln :: tl)
      return (.record fs, tl)
    else do
      let v ← inlineValue ln.text
      return (v, tl)

def sequence : (fuel : Nat) → (indent : Nat) → List Line → Option (List Value × List Line)
  | 0, _, _ => none
  | _ + 1, _, [] => some ([], [])
  | fuel + 1, indent, ln :: tl =>
    if ln.indent != indent then some ([], ln :: tl)
    else
      match item? ln with
      | none => some ([], ln :: tl)
      | some x => do
        let (v, tl) ←
          if isRemark x.text then nested fuel indent tl else block fuel (x :: tl)
        let (vs, tl) ← sequence fuel indent tl
        return (v :: vs, tl)

def mapping : (fuel : Nat) → (indent : Nat) → List (String × Value) → List Line →
    Option (List (String × Value) × List Line)
  | 0, _, _, _ => none
  | _ + 1, _, known, [] => some (known, [])
  | fuel + 1, indent, known, ln :: tl =>
    if ln.indent != indent then some (known, ln :: tl)
    else do
      let (k, t) ← key? ln.text
      let (v, tl) ←
        if !isRemark t then (inlineValue t).map fun v => (v, tl)
        else match tl with
          | next :: _ =>
            if next.indent == indent && (item? next).isSome then do
              let (xs, tl) ← sequence fuel indent tl
              some (.list xs, tl)
            else nested fuel indent tl
          | [] => some (.null, [])
      mapping fuel indent (Value.setField k v known) tl

def nested : (fuel : Nat) → (indent : Nat) → List Line → Option (Value × List Line)
  | 0, _, _ => none
  | _ + 1, _, [] => some (.null, [])
  | fuel + 1, indent, ln :: tl =>
    if ln.indent > indent then block fuel (ln :: tl) else some (.null, ln :: tl)

end

def linesOf (t : String) : List Line :=
  (Str.splitLines t).filterMap fun ln =>
    let chars := ln.toList
    let blanks := (chars.takeWhile (· == ' ')).length
    let c := Text.trimRightWith Text.isBlank (chars.drop blanks)
    if isRemark c || c == "---".toList then none
    else some { indent := blanks, text := c }

def read? (t : String) : Option Value :=
  match t.toList.dropWhile Text.isBlank with
  | [] => some .null
  | a :: tl =>
    if a == '[' || a == '\x7b' then do
      let (v, tl) ← flowValue (tl.length + 2) (a :: tl)
      if tl.all Text.isBlank then some v else none
    else do
      let (v, tl) ← block (2 * t.length + 2) (linesOf t)
      if tl.isEmpty then some v else none

end SourceAudit.Yaml
