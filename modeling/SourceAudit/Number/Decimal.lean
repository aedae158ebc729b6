/-!
# Decimal texts of binary numbers

A `Double` is a binary number of 64 bits. `shortest` finds the fewest decimal digits that read back
as the same number, and the nearest such decimal when there are several.
-/

namespace SourceAudit

structure Double where
  bits : UInt64
deriving DecidableEq, Repr, Inhabited

namespace Double

def ofFloat (n : Float) : Double :=
  ⟨n.toBits⟩

def toFloat (n : Double) : Float :=
  Float.ofBits n.bits

def isNegative (n : Double) : Bool :=
  n.bits >>> 63 == 1

def exponentField (n : Double) : Nat :=
  ((n.bits >>> 52) &&& 0x7FF).toNat

def fractionField (n : Double) : Nat :=
  (n.bits &&& 0xFFFFFFFFFFFFF).toNat

def isNaN (n : Double) : Bool :=
  n.exponentField == 2047 && n.fractionField != 0

def isInfinite (n : Double) : Bool :=
  n.exponentField == 2047 && n.fractionField == 0

def isZero (n : Double) : Bool :=
  n.exponentField == 0 && n.fractionField == 0

def parts (n : Double) : Nat × Int :=
  if n.exponentField = 0 then (n.fractionField, -1074)
  else (n.fractionField + Nat.pow 2 52, Int.ofNat n.exponentField - 1075)

def quotient (n : Double) : Nat × Nat :=
  let (significand, ex) := n.parts
  if 0 ≤ ex then (significand * Nat.pow 2 ex.toNat, 1)
  else (significand, Nat.pow 2 (-ex).toNat)

def ratio (n : Double) : Int × Nat :=
  let (num, den) := n.quotient
  ((if n.isNegative then -Int.ofNat num else Int.ofNat num), den)

def truncate (n : Double) : Int :=
  let (num, den) := n.quotient
  let magnitude := Int.ofNat (num / den)
  if n.isNegative then -magnitude else magnitude

end Double

namespace Decimal

def roundDiv (num den : Nat) : Nat :=
  let whole := num / den
  let tl := num % den
  if 2 * tl < den then whole
  else if den < 2 * tl then whole + 1
  else if whole % 2 = 0 then whole else whole + 1

structure Interval where
  low : Nat
  value : Nat
  high : Nat
  denominator : Nat
  closed : Bool

def interval (n : Double) : Interval :=
  let (significand, ex) := n.parts
  -- the neighbour below a power of two is half as far away
  let narrow := n.fractionField = 0 ∧ 1 < n.exponentField
  let value := 4 * significand
  let low := if narrow then value - 1 else value - 2
  let high := value + 2
  let closed := significand % 2 = 0
  if 0 ≤ ex then
    let factor := Nat.pow 2 ex.toNat
    { low := low * factor, value := value * factor, high := high * factor, denominator := 4,
      closed := closed }
  else
    { low, value, high, denominator := 4 * Nat.pow 2 (-ex).toNat, closed := closed }

def Interval.holds (range : Interval) (digits : Nat) (ex : Int) : Bool :=
  let (num, den) :=
    if 0 ≤ ex then (digits * Nat.pow 10 ex.toNat, 1)
    else (digits, Nat.pow 10 (-ex).toNat)
  let pt := num * range.denominator
  let low := range.low * den
  let high := range.high * den
  if range.closed then low ≤ pt && pt ≤ high else low < pt && pt < high

def magnitude (num den : Nat) : Int :=
  if den ≤ num then
    Int.ofNat (Nat.toDigits 10 (num / den)).length
  else
    -- the quotient denominator / numerator has as many digits as zeros follow the point
    let zeros := (Nat.toDigits 10 ((den - 1) / num)).length
    1 - Int.ofNat zeros

def nearestOn (range : Interval) (ex : Int) : Option (Nat × Int) :=
  let (num, den) :=
    if 0 ≤ ex then (range.value, range.denominator * Nat.pow 10 ex.toNat)
    else (range.value * Nat.pow 10 (-ex).toNat, range.denominator)
  let below := num / den
  let tl := num % den
  let belowHit := range.holds below ex && below != 0
  let aboveHit := range.holds (below + 1) ex
  if tl = 0 then (if belowHit then some (below, ex) else none)
  else match belowHit, aboveHit with
    | true, true =>
      if 2 * tl < den then some (below, ex)
      else if den < 2 * tl then some (below + 1, ex)
      else some ((if below % 2 = 0 then below else below + 1), ex)
    | true, false => some (below, ex)
    | false, true => some (below + 1, ex)
    | false, false => none

def searchGrids (range : Interval) (top : Int) : (tries : Nat) → (n : Nat) → Nat × Int
  | 0, _ => (range.value / range.denominator, 0)
  | tries + 1, n =>
    match nearestOn range (top - Int.ofNat n) with
    | some f => f
    | none => searchGrids range top tries (n + 1)

def stripZeros : (fuel : Nat) → Nat × Int → Nat × Int
  | 0, f => f
  | fuel + 1, (digits, ex) =>
    if digits ≠ 0 ∧ digits % 10 = 0 then stripZeros fuel (digits / 10, ex + 1)
    else (digits, ex)

def shortestDigits (n : Double) : Nat × Int :=
  let range := interval n
  let top := magnitude range.value range.denominator
  stripZeros 20 (searchGrids range top 18 1)

def write (digits : Nat) (ex : Int) : String :=
  let t := Nat.toDigits 10 digits
  let n := Int.ofNat t.length
  -- the exponent of scientific notation
  let scientific := ex + n - 1
  if -4 ≤ scientific ∧ scientific < 16 then
    if 0 ≤ ex then
      String.ofList (t ++ List.replicate ex.toNat '0') ++ ".0"
    else if 0 < ex + n then
      let whole := (ex + n).toNat
      String.ofList (t.take whole ++ '.' :: t.drop whole)
    else
      "0." ++ String.ofList (List.replicate (-(ex + n)).toNat '0' ++ t)
  else
    let sign := if scientific < 0 then "-" else "+"
    let size := toString scientific.natAbs
    let padded := if size.length < 2 then "0" ++ size else size
    let mantissa := match t with
      | [] => "0"
      | a :: [] => String.singleton a
      | a :: tl => String.ofList (a :: '.' :: tl)
    mantissa ++ "e" ++ sign ++ padded

def quotientOf (digits : Nat) (ex : Int) : Nat × Nat :=
  if 0 ≤ ex then (digits * Nat.pow 10 ex.toNat, 1)
  else (digits, Nat.pow 10 (-ex).toNat)

def scaled (num den : Nat) (pl : Int) : Nat × Nat :=
  if 0 ≤ pl then (num, den * Nat.pow 2 pl.toNat)
  else (num * Nat.pow 2 (-pl).toNat, den)

def lastPlace (num den : Nat) : Int :=
  let pl := Int.ofNat num.log2 - Int.ofNat den.log2 - 53
  let (above, below) := scaled num den pl
  max (-1074) (if above < Nat.pow 2 53 * below then pl else pl + 1)

def unboundedBits : Nat := 2047 * Nat.pow 2 52

def nearestTo (num den : Nat) : Nat :=
  if num = 0 then 0
  else
    let pl := lastPlace num den
    let (above, below) := scaled num den pl
    -- what is carried out of the significand is added to the exponent
    min unboundedBits ((pl + 1074).toNat * Nat.pow 2 52 + roundDiv above below)

def nearestBits (digits : Nat) (ex : Int) : Nat :=
  -- far from all numbers no power of ten is formed
  if digits = 0 ∨ ex + Int.ofNat digits.log2 + 1 < -400 then 0
  else if 400 < ex then unboundedBits
  else
    let (num, den) := quotientOf digits ex
    nearestTo num den

end Decimal

namespace Double

def signed (neg : Bool) (magnitude : Nat) : Double :=
  ⟨UInt64.ofNat ((if neg then Nat.pow 2 63 else 0) + magnitude)⟩

def ofInt (n : Int) : Double :=
  signed (n < 0) (Decimal.nearestTo n.natAbs 1)

def ofNat (n : Nat) : Double :=
  ofInt (Int.ofNat n)

def notANumber : Double := ⟨0x7FF8000000000000⟩

def negate (n : Double) : Double :=
  ⟨n.bits ^^^ 0x8000000000000000⟩

def add (l r : Double) : Double :=
  if l.isNaN || r.isNaN then notANumber
  else if l.isInfinite then
    if r.isInfinite && l.isNegative != r.isNegative then notANumber else l
  else if r.isInfinite then r
  else
    let (a, b) := l.ratio
    let (c, d) := r.ratio
    let sum := a * Int.ofNat d + c * Int.ofNat b
    -- a sum of zeros is negative only when both are
    if sum = 0 then signed (l.isNegative && r.isNegative) 0
    else signed (sum < 0) (Decimal.nearestTo sum.natAbs (b * d))

def sub (l r : Double) : Double :=
  l.add r.negate

def shortest (n : Double) : String :=
  if n.isNaN then "nan"
  else
    let sign := if n.isNegative then "-" else ""
    if n.isInfinite then sign ++ "inf"
    else if n.isZero then sign ++ "0.0"
    else
      let (digits, ex) := Decimal.shortestDigits n
      sign ++ Decimal.write digits ex

def fixed (pls : Nat) (n : Double) : String :=
  if n.isNaN then "nan"
  else
    let sign := if n.isNegative then "-" else ""
    if n.isInfinite then sign ++ "inf"
    else
      let (num, den) := n.quotient
      let scaled := Decimal.roundDiv (num * Nat.pow 10 pls) den
      let t := Nat.toDigits 10 scaled
      let padded := List.replicate (pls + 1 - t.length) '0' ++ t
      let whole := padded.length - pls
      if pls = 0 then sign ++ String.ofList padded
      else sign ++ String.ofList (padded.take whole ++ '.' :: padded.drop whole)

end Double

end SourceAudit
