import SourceAudit.Json.Reader
import Mathlib.Data.List.TakeWhile
import Mathlib.Tactic.SplitIfs
import Mathlib.Tactic.Push

/-!
# The texts of numbers

How numbers are written in a document and read from it. A whole number is read back as it is.
-/

open List Option

namespace SourceAudit.Json

def ends : List Char → Bool
  | [] => true
  | c :: _ => c == ',' || c == ']' || c == '\x7d' || c == '\n'

theorem ends_cons {c : Char} {tl : List Char} (stop : ends (c :: tl) = true) :
    Text.isAsciiDigit c = false ∧ c ≠ '.' ∧ c ≠ 'e' ∧ c ≠ 'E' := by
  simp only [ends, Bool.or_eq_true, beq_iff_eq] at stop
  rcases stop with ((rfl | rfl) | rfl) | rfl <;> decide

/-! ## Digits -/

def digits (n : Nat) : List Char :=
  Nat.toDigits 10 n

def NoDigit (t : List Char) : Prop :=
  ∀ c ∈ t.head?, Text.isAsciiDigit c = false

theorem noDigit_of_ends {tl : List Char} (stop : ends tl = true) : NoDigit tl := by
  intro c h1
  cases tl with
  | nil => cases h1
  | cons d tl =>
    cases h1
    exact (ends_cons stop).1

/-- At least one digit, and nothing else. -/
structure AreDigits (text : List Char) : Prop where
  all : ∀ c ∈ text, Text.isAsciiDigit c = true
  nonempty : text ≠ []

namespace AreDigits

variable {t tl : List Char}

theorem takeWhile_append (are : AreDigits t) (stop : NoDigit tl) :
    (t ++ tl).takeWhile Text.isAsciiDigit = t := by
  rw [takeWhile_append_of_pos are.all]
  cases tl with
  | nil => simp
  | cons c tl => simp [stop c rfl]

theorem dropWhile_append (are : AreDigits t) (stop : NoDigit tl) :
    (t ++ tl).dropWhile Text.isAsciiDigit = tl := by
  rw [dropWhile_append_of_pos are.all]
  cases tl with
  | nil => rfl
  | cons c tl => simp [stop c rfl]

theorem append (are : AreDigits t) (others : ∀ c ∈ tl, Text.isAsciiDigit c = true) :
    AreDigits (t ++ tl) where
  all := by
    intro c hm
    rcases mem_append.mp hm with h1 | h2
    · exact are.all c h1
    · exact others c h2
  nonempty := by simp [are.nonempty]

end AreDigits

variable {n : Nat}

theorem isAsciiDigit_of_mem_digits {c : Char} (hm : c ∈ digits n) : Text.isAsciiDigit c = true := by
  have digit := Nat.isDigit_of_mem_toDigits (by decide) (by decide) hm
  simp only [Char.isDigit, Bool.and_eq_true, decide_eq_true_eq, ge_iff_le] at digit
  simp only [Text.isAsciiDigit, Bool.and_eq_true, decide_eq_true_eq]
  exact digit

theorem digitsValue_digits (n : Nat) : digitsValue (digits n) = n := by
  have value : Nat.ofDigitChars 10 (digits n) 0 = n := Nat.ofDigitChars_ten_toDigits
  rw [Nat.ofDigitChars_eq_foldl] at value
  rw [digitsValue]
  simpa only [Nat.mul_comm] using value

theorem digits_eq_cons (n : Nat) :
    ∃ a others, digits n = a :: others ∧ (a = '0' → others = []) := by
  induction n using Nat.strong_induction_on with
  | _ n ih =>
    rw [digits, Nat.toDigits_eq_if (by decide)]
    split_ifs with single
    · exact ⟨_, [], rfl, fun _ => rfl⟩
    · obtain ⟨a, others, shape, leading⟩ := ih (n / 10) (by omega)
      have hpos : digitsValue (a :: others) ≠ 0 := by
        rw [← shape, digitsValue_digits]; omega
      have nonzero : a ≠ '0' := by
        rintro rfl
        rw [leading rfl] at hpos
        exact hpos rfl
      refine ⟨a, others ++ [(n % 10).digitChar], ?_, fun zero => absurd zero nonzero⟩
      rw [digits] at shape
      rw [shape]
      rfl

theorem areDigits_digits (n : Nat) : AreDigits (digits n) where
  all _ hm := isAsciiDigit_of_mem_digits hm
  nonempty := by
    obtain ⟨a, others, shape, _⟩ := digits_eq_cons n
    rw [shape]
    exact cons_ne_nil a others

theorem areDigits_zero : AreDigits ['0'] where
  all := by simp [Text.isAsciiDigit]
  nonempty := cons_ne_nil _ _

/-! ## Whole parts -/

/-- The digits in front of the point: a zero, or digits that do not start with one. -/
structure IsWhole (text : List Char) : Prop extends AreDigits text where
  leading : ∀ others, text = '0' :: others → others = []

theorem isWhole_zero : IsWhole ['0'] where
  toAreDigits := areDigits_zero
  leading := by simp

theorem isWhole_digits (n : Nat) : IsWhole (digits n) where
  toAreDigits := areDigits_digits n
  leading := by
    intro tl zero
    obtain ⟨a, others, shape, leading⟩ := digits_eq_cons n
    rw [shape, List.cons.injEq] at zero
    rw [← zero.2]
    exact leading zero.1

theorem isWhole_digits_append (nonzero : n ≠ 0) {more : List Char}
    (others : ∀ c ∈ more, Text.isAsciiDigit c = true) : IsWhole (digits n ++ more) where
  toAreDigits := (areDigits_digits n).append others
  leading := by
    intro tl zero
    obtain ⟨a, tail, shape, leading⟩ := digits_eq_cons n
    rw [shape, cons_append, List.cons.injEq] at zero
    have value := digitsValue_digits n
    rw [shape, leading zero.1, zero.1] at value
    exact absurd value.symm nonzero

theorem isWhole_take {cnt : Nat} (some : cnt ≠ 0) : IsWhole ((digits n).take cnt) where
  all c hm := isAsciiDigit_of_mem_digits (mem_of_mem_take hm)
  nonempty := by
    rw [ne_eq, take_eq_nil_iff, not_or]
    exact ⟨some, (areDigits_digits n).nonempty⟩
  leading := by
    intro tl zero
    obtain ⟨a, tail, shape, leading⟩ := digits_eq_cons n
    obtain ⟨fewer, rfl⟩ := Nat.exists_eq_succ_of_ne_zero some
    rw [shape, take_succ_cons, List.cons.injEq] at zero
    rw [← zero.2, leading zero.1, take_nil]

theorem readWhole_append {t tl : List Char} (whole : IsWhole t) (stop : NoDigit tl) :
    readWhole (t ++ tl) = some (t, tl) := by
  obtain ⟨a, others, rfl⟩ := exists_cons_of_ne_nil whole.nonempty
  by_cases zero : a = '0'
  · subst zero
    rw [whole.leading others rfl]
    rfl
  · rw [readWhole, whole.takeWhile_append stop, whole.dropWhile_append stop]
    · rfl
    · intro other hs
      exact zero (List.cons.inj hs).1

/-! ## Fractions and exponents -/

inductive IsFraction : List Char → Prop
  | none : IsFraction []
  | point {pls : List Char} (are : AreDigits pls) : IsFraction ('.' :: pls)

inductive IsExponent : List Char → Prop
  | none : IsExponent []
  | power {sign : Char} {size : List Char} (signed : sign = '+' ∨ sign = '-')
      (are : AreDigits size) : IsExponent ('e' :: sign :: size)

structure Stops (text : List Char) : Prop where
  noDigit : NoDigit text
  noPoint : ∀ rest, text ≠ '.' :: rest

theorem stops_of_ends {tl : List Char} (stop : ends tl = true) : Stops tl where
  noDigit := noDigit_of_ends stop
  noPoint := by
    rintro others rfl
    exact (ends_cons stop).2.1 rfl

theorem IsExponent.stops {t tl : List Char} (is : IsExponent t)
    (stop : ends tl = true) : Stops (t ++ tl) := by
  cases is with
  | none => exact stops_of_ends stop
  | power signed are =>
    constructor
    · intro c h1
      cases h1
      rfl
    · intro others hs
      exact absurd (List.cons.inj hs).1 (by decide)

theorem readFraction_eq_none {tl : List Char} (stop : Stops tl) : readFraction tl = none := by
  rw [readFraction]
  exact stop.noPoint

theorem readFraction_point {pls tl : List Char} (are : AreDigits pls)
    (stop : NoDigit tl) : readFraction ('.' :: (pls ++ tl)) = some (pls, tl) := by
  rw [readFraction, are.takeWhile_append stop, are.dropWhile_append stop]
  simp [are.nonempty]

theorem readExponent_eq_none {tl : List Char} (stop : ends tl = true) : readExponent tl = none := by
  cases tl with
  | nil => rfl
  | cons c tl =>
    obtain ⟨_, _, small, large⟩ := ends_cons stop
    simp [readExponent, small, large]

theorem readExponent_power {sign : Char} {size tl : List Char}
    (signed : sign = '+' ∨ sign = '-') (are : AreDigits size) (stop : NoDigit tl) :
    readExponent ('e' :: sign :: (size ++ tl)) =
      some (if sign = '-' then -Int.ofNat (digitsValue size) else Int.ofNat (digitsValue size),
        tl) := by
  have taken := are.takeWhile_append stop
  have dropped := are.dropWhile_append stop
  rcases signed with rfl | rfl <;> simp [readExponent, taken, dropped, are.nonempty]

variable {fraction : List Char}

theorem IsFraction.exists_read (is : IsFraction fraction) :
    ∃ pls, ∀ tl, Stops tl →
      (readFraction (fraction ++ tl)).getD ([], fraction ++ tl) = (pls, tl) := by
  cases is with
  | none =>
    refine ⟨[], fun tl stop => ?_⟩
    rw [nil_append, readFraction_eq_none stop]
    rfl
  | @point pls are =>
    refine ⟨pls, fun tl stop => ?_⟩
    rw [cons_append, readFraction_point are stop.noDigit]
    rfl

theorem IsExponent.exists_read {ex : List Char} (is : IsExponent ex) :
    ∃ power : Option Int, ∀ tl, ends tl = true → (readExponent (ex ++ tl)).map Prod.fst = power ∧
        ((readExponent (ex ++ tl)).map Prod.snd).getD (ex ++ tl) = tl := by
  cases is with
  | none =>
    refine ⟨.none, fun tl stop => ?_⟩
    rw [nil_append, readExponent_eq_none stop]
    exact ⟨rfl, rfl⟩
  | @power sign size signed are =>
    refine ⟨some (if sign = '-' then -Int.ofNat (digitsValue size)
      else Int.ofNat (digitsValue size)), fun tl stop => ?_⟩
    rw [cons_append, cons_append, readExponent_power signed are (noDigit_of_ends stop)]
    exact ⟨rfl, rfl⟩

theorem noDigit_fraction_append {tl : List Char} (is : IsFraction fraction) (stop : Stops tl) :
    NoDigit (fraction ++ tl) := by
  cases is with
  | none => exact stop.noDigit
  | point are =>
    intro c h1
    cases h1
    rfl

/-! ## Numerals -/

def IsNumeral (t : List Char) : Prop :=
  ∃ whole fraction ex, t = whole ++ (fraction ++ ex) ∧ IsWhole whole ∧
    IsFraction fraction ∧ IsExponent ex

theorem isNumeral_digits (n : Nat) : IsNumeral (digits n) :=
  ⟨_, [], [], by simp, isWhole_digits n, .none, .none⟩

def numeralValue (neg : Bool) (whole pls : List Char) (power : Option Int) : Value :=
  if pls.isEmpty && power.isNone then
    .int (if neg then -Int.ofNat (digitsValue whole) else Int.ofNat (digitsValue whole))
  else
    .float (doubleOfDecimal neg (digitsValue (whole ++ pls)) (power.getD 0 - Int.ofNat pls.length))

theorem IsNumeral.exists_read {t : List Char} (is : IsNumeral t) (neg : Bool) :
    ∃ v, ∀ tl, ends tl = true → readUnsigned neg (t ++ tl) = some (v, tl) := by
  obtain ⟨whole, fraction, ex, rfl, isWhole, isFraction, isExponent⟩ := is
  obtain ⟨pls, fractionRead⟩ := isFraction.exists_read
  obtain ⟨power, exponentRead⟩ := isExponent.exists_read
  refine ⟨numeralValue neg whole pls power, fun tl stop => ?_⟩
  have stops := isExponent.stops stop
  have ⟨powerRead, restRead⟩ := exponentRead tl stop
  rw [append_assoc, append_assoc, readUnsigned,
    readWhole_append isWhole (noDigit_fraction_append isFraction stops)]
  simp only [bind_eq_bind, bind_some, fractionRead _ stops, restRead]
  rw [← powerRead, numeralValue, isNone_map]
  split_ifs <;> rfl

theorem readUnsigned_digits (neg : Bool) (n : Nat) {tl : List Char} (stop : ends tl = true) :
    readUnsigned neg (digits n ++ tl) =
      some (.int (if neg then -Int.ofNat n else Int.ofNat n), tl) := by
  have stops := stops_of_ends stop
  rw [readUnsigned, readWhole_append (isWhole_digits n) stops.noDigit]
  simp [readFraction_eq_none stops, readExponent_eq_none stop, digitsValue_digits]

/-! ## The numerals of binary numbers -/

theorem toList_repr (n : Nat) : (toString n).toList = digits n := by
  rw [Nat.toString_eq_repr, Nat.repr_eq_ofList_toDigits, String.toList_ofList, digits]

theorem isNumeral_zeros (n cnt : Nat) (sound : n ≠ 0 ∨ cnt = 0) :
    IsNumeral (digits n ++ replicate cnt '0' ++ ['.', '0']) := by
  refine ⟨digits n ++ replicate cnt '0', ['.', '0'], [], by simp, ?_,
    .point areDigits_zero, .none⟩
  rcases sound with nonzero | rfl
  · apply isWhole_digits_append nonzero
    intro c hm
    rw [(mem_replicate.mp hm).2]
    rfl
  · simpa using isWhole_digits n

theorem isNumeral_point (num n : Nat) (some : n ≠ 0) (fewer : n < (digits num).length) :
    IsNumeral ((digits num).take n ++ '.' :: (digits num).drop n) := by
  refine ⟨(digits num).take n, '.' :: (digits num).drop n, [], by simp,
    isWhole_take some, .point ⟨?_, ?_⟩, .none⟩
  · intro c hm
    exact isAsciiDigit_of_mem_digits (mem_of_mem_drop hm)
  · rw [ne_eq, drop_eq_nil_iff]
    omega

theorem isNumeral_places (n cnt : Nat) :
    IsNumeral ('0' :: '.' :: (replicate cnt '0' ++ digits n)) := by
  refine ⟨['0'], '.' :: (replicate cnt '0' ++ digits n), [], by simp, isWhole_zero,
    .point ⟨?_, ?_⟩, .none⟩
  · intro c hm
    rcases mem_append.mp hm with zero | digit
    · rw [(mem_replicate.mp zero).2]
      rfl
    · exact isAsciiDigit_of_mem_digits digit
  · simp [(areDigits_digits n).nonempty]

variable {a : Char}

theorem isNumeral_scientific {sign : Char} {more : List Char} (size : Nat)
    (digit : Text.isAsciiDigit a = true) (is : IsFraction fraction)
    (signed : sign = '+' ∨ sign = '-') (zeros : ∀ c ∈ more, Text.isAsciiDigit c = true) :
    IsNumeral (a :: (fraction ++ 'e' :: sign :: (more ++ digits size))) := by
  have whole : IsWhole [a] := ⟨⟨by simpa using digit, cons_ne_nil _ _⟩, by simp⟩
  refine ⟨[a], fraction, _, rfl, whole, is, .power signed ⟨?_, ?_⟩⟩
  · intro c hm
    rcases mem_append.mp hm with padding | hw
    · exact zeros c padding
    · exact isAsciiDigit_of_mem_digits hw
  · simp [(areDigits_digits size).nonempty]

theorem exists_padded (size : Nat) :
    ∃ more, (∀ c ∈ more, Text.isAsciiDigit c = true) ∧
      (if (toString size).length < 2 then "0" ++ toString size else toString size).toList =
        more ++ digits size := by
  split
  · refine ⟨['0'], areDigits_zero.all, ?_⟩
    rw [String.toList_append, toList_repr]
    rfl
  · exact ⟨[], forall_mem_nil _, toList_repr size⟩

theorem isNumeral_write {ex : Int} (sound : n ≠ 0 ∨ ex = 0) :
    IsNumeral (Decimal.write n ex).toList := by
  rw [Decimal.write, ← digits]
  dsimp only
  split
  · split
    · have numeral := isNumeral_zeros n ex.toNat (sound.imp_right fun zero => by rw [zero]; rfl)
      simpa using numeral
    · split
      · next small inner =>
        have fewer : (ex + Int.ofNat (digits n).length).toNat < (digits n).length := by
          simp only [Int.ofNat_eq_natCast] at inner ⊢
          omega
        have numeral := isNumeral_point n _ (by omega) fewer
        simpa using numeral
      · have numeral := isNumeral_places n (-(ex + Int.ofNat (digits n).length)).toNat
        simpa using numeral
  · generalize ex + Int.ofNat (digits n).length - 1 = scientific
    obtain ⟨more, zeros, padded⟩ := exists_padded scientific.natAbs
    obtain ⟨sign, signed, shown⟩ : ∃ sign, (sign = '+' ∨ sign = '-') ∧
        (if scientific < 0 then "-" else "+").toList = [sign] := by
      split
      · exact ⟨'-', Or.inr rfl, rfl⟩
      · exact ⟨'+', Or.inl rfl, rfl⟩
    obtain ⟨a, others, shape, _⟩ := digits_eq_cons n
    have areDigits := (areDigits_digits n).all
    rw [shape] at areDigits ⊢
    have digit := areDigits a mem_cons_self
    have letter : "e".toList = ['e'] := rfl
    rw [String.toList_append, String.toList_append, String.toList_append, shown, padded, letter]
    cases others with
    | nil =>
      have numeral := isNumeral_scientific scientific.natAbs digit .none signed zeros
      simpa only [String.toList_singleton, singleton_append, cons_append,
        append_assoc, nil_append] using numeral
    | cons b others =>
      have places : AreDigits (b :: others) :=
        ⟨fun c hm => areDigits c (mem_cons_of_mem a hm), cons_ne_nil _ _⟩
      have numeral := isNumeral_scientific scientific.natAbs digit (.point places) signed zeros
      simpa only [String.toList_ofList, singleton_append, cons_append,
        append_assoc, nil_append] using numeral

/-! ### The shortest digits -/

def Sound (f : Nat × Int) : Prop :=
  f.1 ≠ 0 ∨ f.2 = 0

theorem nearestOn_ne_zero {range : Decimal.Interval} {ex : Int} {f : Nat × Int}
    (hit : Decimal.nearestOn range ex = some f) : f.1 ≠ 0 := by
  rw [Decimal.nearestOn] at hit
  dsimp only at hit
  generalize (if 0 ≤ ex then (range.value, range.denominator * Nat.pow 10 ex.toNat)
    else (range.value * Nat.pow 10 (-ex).toNat, range.denominator)) = grid at hit
  have nonzero {flag : Bool} (both : (flag && grid.1 / grid.2 != 0) = true) :
      grid.1 / grid.2 ≠ 0 := by
    rw [Bool.and_eq_true, bne_iff_ne] at both
    exact both.2
  split at hit
  · split at hit
    · next below =>
      cases hit
      exact nonzero below
    · cases hit
  · split at hit
    · next below _ =>
      split at hit
      · cases hit
        exact nonzero below
      · split at hit
        · cases hit
          exact Nat.succ_ne_zero _
        · cases hit
          dsimp only
          split
          · exact nonzero below
          · exact Nat.succ_ne_zero _
    · next below _ =>
      cases hit
      exact nonzero below
    · cases hit
      exact Nat.succ_ne_zero _
    · cases hit

theorem sound_searchGrids (range : Decimal.Interval) (top : Int) (tries n : Nat) :
    Sound (Decimal.searchGrids range top tries n) := by
  induction tries generalizing n with
  | zero => exact Or.inr rfl
  | succ tries ih =>
    rw [Decimal.searchGrids]
    split
    · next hit => exact Or.inl (nearestOn_ne_zero hit)
    · exact ih (n + 1)

theorem sound_stripZeros (fuel : Nat) {f : Nat × Int} (sound : Sound f) :
    Sound (Decimal.stripZeros fuel f) := by
  induction fuel generalizing f with
  | zero => exact sound
  | succ fuel ih =>
    rw [Decimal.stripZeros]
    split
    · next trailing =>
      apply ih
      left
      dsimp only
      omega
    · exact sound

theorem isNumeral_shortest (n : Double) :
    IsNumeral (Decimal.write (Decimal.shortestDigits n).1 (Decimal.shortestDigits n).2).toList :=
  isNumeral_write (sound_stripZeros 20 (sound_searchGrids _ _ 18 1))

/-! ## Signed numbers -/

theorem IsNumeral.exists_digit {t : List Char} (is : IsNumeral t) :
    ∃ a others, t = a :: others ∧ Text.isAsciiDigit a = true := by
  obtain ⟨whole, fraction, ex, rfl, isWhole, _, _⟩ := is
  obtain ⟨a, others, rfl⟩ := exists_cons_of_ne_nil isWhole.nonempty
  exact ⟨a, _, rfl, isWhole.all a mem_cons_self⟩

theorem readNumber_of_digit (digit : Text.isAsciiDigit a = true) (others : List Char) :
    readNumber (a :: others) = readUnsigned false (a :: others) := by
  rw [readNumber]
  intro t hs
  rw [(List.cons.inj hs).1] at digit
  exact absurd digit (by decide)

theorem readNumber_of_sign (digit : Text.isAsciiDigit a = true) (others : List Char) :
    readNumber ('-' :: a :: others) = readUnsigned true (a :: others) := by
  have finite : Text.after? "Infinity".toList (a :: others) = none := by
    have apart : 'I' ≠ a := by
      rintro rfl
      exact absurd digit (by decide)
    simp [Text.after?, apart]
  rw [readNumber, finite]

def signed (neg : Bool) (t : List Char) : List Char :=
  if neg then '-' :: t else t

theorem IsNumeral.exists_readNumber {t : List Char} (is : IsNumeral t) (neg : Bool) :
    ∃ v, ∀ tl, ends tl = true → readNumber (signed neg t ++ tl) = some (v, tl) := by
  obtain ⟨v, hr⟩ := is.exists_read neg
  obtain ⟨a, others, rfl, digit⟩ := is.exists_digit
  refine ⟨v, fun tl stop => ?_⟩
  rw [← hr tl stop]
  cases neg with
  | false => exact readNumber_of_digit digit (others ++ tl)
  | true => exact readNumber_of_sign digit (others ++ tl)

theorem exists_float_eq_signed {n : Double} (isNumber : n.isNaN = false)
    (finite : n.isInfinite = false) :
    ∃ numeral, IsNumeral numeral ∧ (float n).toList = signed n.isNegative numeral := by
  have zero : IsNumeral ['0', '.', '0'] :=
    ⟨['0'], ['.', '0'], [], rfl, isWhole_zero, .point areDigits_zero, .none⟩
  rw [float, isNumber, finite, if_neg Bool.false_ne_true, if_neg Bool.false_ne_true,
    Double.shortest, isNumber, finite, if_neg Bool.false_ne_true]
  dsimp only
  rw [if_neg Bool.false_ne_true]
  split
  · refine ⟨_, zero, ?_⟩
    rw [signed]
    split <;> simp
  · refine ⟨_, isNumeral_shortest n, ?_⟩
    rw [signed]
    split <;> simp

theorem toList_int (n : Int) :
    (toString n).toList = signed (decide (n < 0)) (digits n.natAbs) := by
  have shown : toString n = Int.repr n := rfl
  rw [shown, Int.repr_eq_if]
  split_ifs with positive
  · rw [decide_eq_false (by omega)]
    have hs : n.toNat = n.natAbs := by omega
    simp [Nat.repr_eq_ofList_toDigits, digits, signed, hs]
  · rw [decide_eq_true (by omega)]
    have hs : (-n).toNat = n.natAbs := by omega
    simp [Nat.repr_eq_ofList_toDigits, digits, signed, hs]

theorem readNumber_int (n : Int) {tl : List Char} (stop : ends tl = true) :
    readNumber ((toString n).toList ++ tl) = some (.int n, tl) := by
  obtain ⟨a, others, shape, _⟩ := digits_eq_cons n.natAbs
  have digit : Text.isAsciiDigit a = true := isAsciiDigit_of_mem_digits (shape ▸ mem_cons_self)
  rw [toList_int, signed]
  split
  · next negative =>
    have below : n < 0 := of_decide_eq_true negative
    have hr := readUnsigned_digits true n.natAbs stop
    rw [shape, cons_append] at hr
    have size : -Int.ofNat n.natAbs = n := by
      rw [Int.ofNat_eq_natCast]
      omega
    rw [shape, cons_append, cons_append, readNumber_of_sign digit, hr, if_pos rfl, size]
  · next hpos =>
    have above : ¬ n < 0 := fun below => hpos (decide_eq_true below)
    have hr := readUnsigned_digits false n.natAbs stop
    rw [shape, cons_append] at hr
    have size : Int.ofNat n.natAbs = n := by
      rw [Int.ofNat_eq_natCast]
      omega
    rw [shape, cons_append, readNumber_of_digit digit, hr, if_neg Bool.false_ne_true, size]

end SourceAudit.Json
