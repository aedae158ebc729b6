import SourceAudit.Text.CharTable

/-!
# Character classes and case

The classes that scanning, matching and quoting need, over all of Unicode: blank characters, word
characters, decimal digits, characters that are shown as themselves, and the three case mappings.
-/

namespace SourceAudit.Text

def inRunsFrom (inside : Bool) : List Nat → Nat → Bool
  | [], _ => false
  | length :: tl, distance =>
    if distance < length then inside else inRunsFrom (!inside) tl (distance - length)

def inRuns (runs : List Nat) (pt : Nat) : Bool :=
  inRunsFrom false runs (pt - 128)

def isBlank (c : Char) : Bool :=
  let pt := c.toNat
  (9 ≤ pt && pt ≤ 13) || (28 ≤ pt && pt ≤ 32) || pt == 0x85 || pt == 0xA0 ||
    pt == 0x1680 || (0x2000 ≤ pt && pt ≤ 0x200A) || pt == 0x2028 || pt == 0x2029 ||
    pt == 0x202F || pt == 0x205F || pt == 0x3000

def isAsciiBlank (c : Char) : Bool :=
  let pt := c.toNat
  (9 ≤ pt && pt ≤ 13) || pt == 32

def isAsciiDigit (c : Char) : Bool :=
  '0' ≤ c && c ≤ '9'

def isAsciiLetter (c : Char) : Bool :=
  ('a' ≤ c && c ≤ 'z') || ('A' ≤ c && c ≤ 'Z')

def isAsciiWord (c : Char) : Bool :=
  isAsciiLetter c || isAsciiDigit c || c == '_'

def isAlphanumeric (c : Char) : Bool :=
  if c.toNat < 128 then isAsciiLetter c || isAsciiDigit c
  else inRuns alphanumericRuns c.toNat

def isWord (c : Char) : Bool :=
  isAlphanumeric c || c == '_'

def decimalValue? (c : Char) : Option Nat :=
  if isAsciiDigit c then some (c.toNat - '0'.toNat)
  else if c.toNat < 128 then none
  else (decimalRanges.find? fun range => range.1 ≤ c.toNat && c.toNat ≤ range.2).map
    fun range => (c.toNat - range.1) % 10

def isDecimal (c : Char) : Bool :=
  (decimalValue? c).isSome

def isPrintable (c : Char) : Bool :=
  if c.toNat < 128 then 32 ≤ c.toNat && c.toNat < 127
  else inRuns printableRuns c.toNat

namespace CaseRun

def covers (run : CaseRun) (pt : Nat) : Bool :=
  run.first ≤ pt && pt ≤ run.last && (pt - run.first) % run.step == 0

end CaseRun

def mapRuns (runs : List CaseRun) (pt : Nat) : Option Nat :=
  (runs.find? fun run => run.covers pt).map fun run => (Int.ofNat pt + run.shift).toNat

def lowerChar (c : Char) : Char :=
  if c.toNat < 128 then c.toLower
  else ((mapRuns lowerRuns c.toNat).map Char.ofNat).getD c

def upperChar (c : Char) : Char :=
  if c.toNat < 128 then c.toUpper
  else ((mapRuns upperRuns c.toNat).map Char.ofNat).getD c

def specialCase (table : List (Nat × List Nat)) (c : Char) : Option (List Char) :=
  (table.find? fun e => e.1 == c.toNat).map fun e => e.2.map Char.ofNat

def isCased (c : Char) : Bool :=
  lowerChar c != c || upperChar c != c || (specialCase upperSpecials c).isSome

def capitalSigma : Char := Char.ofNat 0x3A3

def lowerFrom (prev : Option Char) : List Char → List Char
  | [] => []
  | c :: tl =>
    let head :=
      if c == capitalSigma then
        let afterLetter := prev.any isCased
        let beforeLetter := tl.head?.any isCased
        if afterLetter && !beforeLetter then [Char.ofNat 0x3C2] else [Char.ofNat 0x3C3]
      else if c.toNat < 128 then [c.toLower]
      else (specialCase lowerSpecials c).getD [lowerChar c]
    head ++ lowerFrom (some c) tl

def lower (t : List Char) : List Char :=
  lowerFrom none t

def upperOf (c : Char) : List Char :=
  if c.toNat < 128 then [c.toUpper]
  else (specialCase upperSpecials c).getD [upperChar c]

def upper (t : List Char) : List Char :=
  t.flatMap upperOf

def titleOf (c : Char) : List Char :=
  if c.toNat < 128 then [c.toUpper]
  else ((specialCase titleSpecials c).or
    ((mapRuns titleRuns c.toNat).map fun pt => [Char.ofNat pt])).getD (upperOf c)

def capitalize : List Char → List Char
  | [] => []
  | c :: tl => titleOf c ++ lowerFrom (some c) tl

end SourceAudit.Text
