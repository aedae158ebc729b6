import SourceAudit.Proofs.Utf8RoundTrip

/-!
# Only encodings are decoded

A decoding step that reads a character has read exactly the bytes of that character: overlong forms,
surrogates and points beyond the last one are malformed.
-/

open List

namespace SourceAudit.Text.Utf8

/-! ## One character -/

theorem bytes_eq {n : Nat} {byte : UInt8} {bytes others : List UInt8}
    (hs : n = byte.toNat) (rest : bytes = others) : UInt8.ofNat n :: bytes = byte :: others := by
  rw [hs, UInt8.ofNat_toNat, rest]

theorem toNat_char {pt : Nat} (valid : pt < 0xD800 ∨ 0xDFFF < pt ∧ pt < 0x110000) :
    (Char.ofNat pt).val.toNat = pt := by
  rw [Char.ofNat, dif_pos valid]
  rfl

theorem toNat_of_isContinuation {byte : UInt8} (continues : isContinuation byte = true) :
    128 ≤ byte.toNat ∧ byte.toNat ≤ 191 := by
  rw [isContinuation, Bool.and_eq_true, decide_eq_true_eq, decide_eq_true_eq,
    UInt8.le_iff_toNat_le, UInt8.le_iff_toNat_le] at continues
  exact continues

def Encodes (head : UInt8) (tl : List UInt8) (read : Step) : Prop :=
  ∀ c width, read = .char c width →
    ∃ tail after, tl = tail ++ after ∧ width = tail.length + 1 ∧
      String.utf8EncodeChar c = head :: tail

section

variable {head : UInt8}

theorem Encodes.malformed (tl : List UInt8) (width : Nat) (why : Malformed) :
    Encodes head tl (.malformed width why) := nofun

theorem encodes_one (small : head.toNat < 128) (tl : List UInt8) :
    Encodes head tl (.char (Char.ofNat head.toNat) 1) := by
  rintro c width ⟨rfl, rfl⟩
  refine ⟨[], tl, rfl, rfl, ?_⟩
  rw [String.utf8EncodeChar, toNat_char (by omega), if_pos (by omega)]
  exact bytes_eq rfl rfl

theorem encodes_stepTwo (low : 194 ≤ head.toNat) (high : head.toNat < 224) (tl : List UInt8) :
    Encodes head tl (stepTwo head tl) := by
  fun_cases stepTwo head tl
  case case2 b after continues =>
    obtain ⟨above, below⟩ := toNat_of_isContinuation continues
    rintro c width ⟨rfl, rfl⟩
    refine ⟨[b], after, rfl, rfl, ?_⟩
    rw [tailBits, String.utf8EncodeChar, toNat_char (by omega), if_neg (by omega),
      if_pos (by omega)]
    exact bytes_eq (by omega) (bytes_eq (by omega) rfl)
  all_goals exact .malformed _ _ _

variable {b : UInt8}

theorem toNat_of_second {bound low high : UInt8}
    (fits : (isContinuation b && !(if b < bound then head == low else head == high)) =
      true) :
    128 ≤ b.toNat ∧ b.toNat ≤ 191 ∧ (head.toNat = low.toNat → bound.toNat ≤ b.toNat) ∧
        (head.toNat = high.toNat → b.toNat < bound.toNat) := by
  rw [Bool.and_eq_true, Bool.not_eq_true'] at fits
  obtain ⟨continues, allowed⟩ := fits
  obtain ⟨above, below⟩ := toNat_of_isContinuation continues
  refine ⟨above, below, fun h1 => Nat.le_of_not_lt fun small => ?_,
    fun h1 => Nat.lt_of_not_le fun large => ?_⟩
  · have short : b < bound := UInt8.lt_iff_toNat_lt.mpr small
    rw [if_pos short, UInt8.toNat_inj.mp h1, beq_self_eq_true] at allowed
    exact Bool.false_ne_true allowed.symm
  · have long : ¬ b < bound := fun short =>
      Nat.not_lt_of_le large (UInt8.lt_iff_toNat_lt.mp short)
    rw [if_neg long, UInt8.toNat_inj.mp h1, beq_self_eq_true] at allowed
    exact Bool.false_ne_true allowed.symm

theorem toNat_of_secondOfThree (fits : secondOfThree head b = true) :
    128 ≤ b.toNat ∧ b.toNat ≤ 191 ∧ (head.toNat = 224 → 160 ≤ b.toNat) ∧
      (head.toNat = 237 → b.toNat < 160) :=
  toNat_of_second fits

theorem toNat_of_secondOfFour (fits : secondOfFour head b = true) :
    128 ≤ b.toNat ∧ b.toNat ≤ 191 ∧ (head.toNat = 240 → 144 ≤ b.toNat) ∧
      (head.toNat = 244 → b.toNat < 144) :=
  toNat_of_second fits

theorem encodes_stepThree (low : 224 ≤ head.toNat) (high : head.toNat < 240) (tl : List UInt8) :
    Encodes head tl (stepThree head tl) := by
  fun_cases stepThree head tl
  case case4 b fits third after continues =>
    obtain ⟨above, below, notLong, noSurrogate⟩ := toNat_of_secondOfThree (by simpa using fits)
    obtain ⟨atLeast, atMost⟩ := toNat_of_isContinuation continues
    rintro c width ⟨rfl, rfl⟩
    refine ⟨[b, third], after, rfl, rfl, ?_⟩
    rw [tailBits, tailBits, String.utf8EncodeChar, toNat_char (by omega), if_neg (by omega),
      if_neg (by omega), if_pos (by omega)]
    exact bytes_eq (by omega) (bytes_eq (by omega) (bytes_eq (by omega) rfl))
  all_goals exact .malformed _ _ _

theorem encodes_stepFour (low : 240 ≤ head.toNat) (high : head.toNat < 245) (tl : List UInt8) :
    Encodes head tl (stepFour head tl) := by
  fun_cases stepFour head tl
  case case6 b fits third goesOn fourth after continues =>
    obtain ⟨above, below, notLong, notBeyond⟩ := toNat_of_secondOfFour (by simpa using fits)
    obtain ⟨atLeast, atMost⟩ := toNat_of_isContinuation (by simpa using goesOn)
    obtain ⟨least, most⟩ := toNat_of_isContinuation continues
    rintro c width ⟨rfl, rfl⟩
    refine ⟨[b, third, fourth], after, rfl, rfl, ?_⟩
    rw [tailBits, tailBits, tailBits, String.utf8EncodeChar, toNat_char (by omega),
      if_neg (by omega), if_neg (by omega), if_neg (by omega)]
    exact bytes_eq (by omega) (bytes_eq (by omega) (bytes_eq (by omega) (bytes_eq (by omega) rfl)))
  all_goals exact .malformed _ _ _

theorem encodes_step (head : UInt8) (tl : List UInt8) : Encodes head tl (step head tl) := by
  have bound (lim : UInt8) : head < lim ↔ head.toNat < lim.toNat := UInt8.lt_iff_toNat_lt
  rw [step]
  split_ifs with ascii low two three four
  · exact encodes_one ((bound 0x80).mp ascii) tl
  · exact .malformed _ _ _
  · exact encodes_stepTwo (Nat.le_of_not_lt (mt (bound 0xC2).mpr low)) ((bound 0xE0).mp two) tl
  · exact encodes_stepThree (Nat.le_of_not_lt (mt (bound 0xE0).mpr two)) ((bound 0xF0).mp three) tl
  · exact encodes_stepFour (Nat.le_of_not_lt (mt (bound 0xF0).mpr three)) ((bound 0xF5).mp four) tl
  · exact .malformed _ _ _

end

/-! ## Whole texts -/

theorem encoded_of_decodeWalk (all : List UInt8) {pos : Nat} {read t : List Char}
    {bytes : List UInt8} (decoded : decodeWalk all pos 0 read bytes = .ok t) :
    ∃ tl, t = read.reverse ++ tl ∧ tl.flatMap String.utf8EncodeChar = bytes := by
  -- a step takes several bytes at once, so the induction is on the number of bytes left
  induction counted : bytes.length using Nat.strongRecOn generalizing pos read bytes with
  | ind length ih =>
    rcases bytes with _ | ⟨head, others⟩
    · cases decoded
      exact ⟨[], (append_nil _).symm, rfl⟩
    · rw [decodeWalk] at decoded
      cases stepped : step head others with
      | malformed width why =>
        rw [stepped] at decoded
        cases decoded
      | char c width =>
        obtain ⟨tail, after, rfl, rfl, encoded⟩ := encodes_step head others c width stepped
        rw [stepped] at decoded
        dsimp only at decoded
        rw [Nat.add_sub_cancel, decodeWalk_skip] at decoded
        have shorter : after.length < length := by
          rw [← counted, length_cons, length_append]
          omega
        obtain ⟨tl, rfl, hs⟩ := ih after.length shorter decoded rfl
        refine ⟨c :: tl, by simp, ?_⟩
        rw [flatMap_cons, encoded, hs, cons_append]

theorem decode_eq_ok_iff {bytes : List UInt8} {t : String} :
    decode bytes = .ok t ↔ encode t = bytes := by
  constructor
  · intro decoded
    rw [decode] at decoded
    cases walked : decodeWalk bytes 0 0 [] bytes with
    | error problem =>
      rw [walked] at decoded
      cases decoded
    | ok characters =>
      rw [walked] at decoded
      cases decoded
      obtain ⟨tl, hs, encoded⟩ := encoded_of_decodeWalk bytes walked
      rw [reverse_nil, nil_append] at hs
      rw [encode_eq, String.toList_ofList, hs, encoded]
  · rintro rfl
    exact decode_encode t

end SourceAudit.Text.Utf8
