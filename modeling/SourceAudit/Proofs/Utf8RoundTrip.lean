import SourceAudit.Text.Utf8
import Mathlib.Tactic.SplitIfs

/-!
# Decoding what was encoded

The bytes of a text are the bytes of its characters one after the other, and a decoding step reads
the bytes of one character whatever follows them.
-/

open List

namespace SourceAudit.Text.Utf8

/-! ## Bytes of a text -/

theorem toList_loop_eq (bytes : ByteArray) (pos : Nat) (read : List UInt8) :
    ByteArray.toList.loop bytes pos read = read.reverse ++ bytes.data.toList.drop pos := by
  fun_induction ByteArray.toList.loop bytes pos read with
  | case1 pos read below ih =>
    have hi : pos < bytes.data.toList.length := by simpa using below
    rw [ih, drop_eq_getElem_cons hi]
    simp [ByteArray.get!, below]
  | case2 pos read beyond =>
    rw [drop_eq_nil_of_le (by simpa using Nat.le_of_not_lt beyond), append_nil]

theorem encode_eq (t : String) : encode t = t.toList.flatMap String.utf8EncodeChar := by
  have bytes : t.toUTF8 = (t.toList.flatMap String.utf8EncodeChar).toByteArray := by
    conv => lhs; rw [← String.ofList_toList (s := t)]
    rfl
  rw [encode, bytes, ByteArray.toList, toList_loop_eq, toList_data_toByteArray]
  rfl

theorem encode_append (l r : String) : encode (l ++ r) = encode l ++ encode r := by
  simp [encode_eq, String.toList_append]

/-! ## One character -/

variable {n : Nat}

theorem toNat_byte (small : n < 256) : (UInt8.ofNat n).toNat = n := UInt8.toNat_ofNat_of_lt' small

theorem isContinuation_byte {bits : Nat} (small : bits < 64) :
    isContinuation (UInt8.ofNat (bits + 128)) = true := by
  rw [isContinuation, Bool.and_eq_true, decide_eq_true_eq, decide_eq_true_eq,
    UInt8.le_iff_toNat_le, UInt8.le_iff_toNat_le, toNat_byte (by omega)]
  constructor
  · show 128 ≤ bits + 128
    omega
  · show bits + 128 ≤ 191
    omega

theorem tailBits_byte {bits : Nat} (small : bits < 64) :
    tailBits (UInt8.ofNat (bits + 128)) = bits := by
  rw [tailBits, toNat_byte (by omega)]
  omega

theorem byte_lt_iff (small : n < 256) {bound : UInt8} :
    UInt8.ofNat n < bound ↔ n < bound.toNat := by
  rw [UInt8.lt_iff_toNat_lt, toNat_byte small]

theorem byte_beq_iff (small : n < 256) {other : UInt8} :
    (UInt8.ofNat n == other) = true ↔ n = other.toNat := by
  rw [beq_iff_eq, ← UInt8.toNat_inj, toNat_byte small]

theorem step_byte (small : n < 256) (tl : List UInt8) :
    step (UInt8.ofNat n) tl =
      if n < 128 then .char (Char.ofNat n) 1
      else if n < 194 then .malformed 1 .start
      else if n < 224 then stepTwo (UInt8.ofNat n) tl
      else if n < 240 then stepThree (UInt8.ofNat n) tl
      else if n < 245 then stepFour (UInt8.ofNat n) tl
      else .malformed 1 .start := by
  simp only [step, byte_lt_iff small, toNat_byte small]
  rfl

theorem second_bytes {head bits : Nat} (small : head < 256) (tail : bits < 64)
    {bound low high : UInt8} (below : bits + 128 < bound.toNat → head ≠ low.toNat)
    (above : ¬ bits + 128 < bound.toNat → head ≠ high.toNat) :
    (isContinuation (UInt8.ofNat (bits + 128)) &&
      !(if UInt8.ofNat (bits + 128) < bound then UInt8.ofNat head == low
        else UInt8.ofNat head == high)) = true := by
  rw [isContinuation_byte tail, Bool.true_and, Bool.not_eq_true', Bool.eq_false_iff]
  intro excluded
  split_ifs at excluded with short
  · exact below ((byte_lt_iff (by omega)).mp short) ((byte_beq_iff small).mp excluded)
  · exact above (mt (byte_lt_iff (by omega)).mpr short) ((byte_beq_iff small).mp excluded)

section

variable {pt : Nat}

theorem step_one (below : pt < 128) (tl : List UInt8) :
    step (UInt8.ofNat pt) tl = .char (Char.ofNat pt) 1 := by
  rw [step_byte (by omega), if_pos below]

theorem step_two (low : 128 ≤ pt) (high : pt < 2048) (tl : List UInt8) :
    step (UInt8.ofNat (pt / 64 % 32 + 192)) (UInt8.ofNat (pt % 64 + 128) :: tl) =
      .char (Char.ofNat pt) 2 := by
  have small : pt / 64 % 32 + 192 < 256 := by omega
  have tail : pt % 64 < 64 := by omega
  have joined : (pt / 64 % 32 + 192) % 32 * 64 + pt % 64 = pt := by omega
  rw [step_byte small, if_neg (by omega), if_neg (by omega), if_pos (by omega), stepTwo,
    if_pos (isContinuation_byte tail), tailBits_byte tail, toNat_byte small, joined]

theorem secondOfThree_bytes (low : 2048 ≤ pt) (high : pt < 65536)
    (valid : pt < 0xD800 ∨ 0xDFFF < pt) :
    secondOfThree (UInt8.ofNat (pt / 4096 % 16 + 224)) (UInt8.ofNat (pt / 64 % 64 + 128)) =
      true := by
  apply second_bytes (by omega) (by omega) <;> simp only [UInt8.reduceToNat] <;> omega

theorem step_three (low : 2048 ≤ pt) (high : pt < 65536)
    (valid : pt < 0xD800 ∨ 0xDFFF < pt) (tl : List UInt8) :
    step (UInt8.ofNat (pt / 4096 % 16 + 224))
        (UInt8.ofNat (pt / 64 % 64 + 128) :: UInt8.ofNat (pt % 64 + 128) :: tl) =
      .char (Char.ofNat pt) 3 := by
  have small : pt / 4096 % 16 + 224 < 256 := by omega
  have middle : pt / 64 % 64 < 64 := by omega
  have tail : pt % 64 < 64 := by omega
  have h2 := secondOfThree_bytes low high valid
  have joined : (pt / 4096 % 16 + 224) % 16 * 4096 + pt / 64 % 64 * 64 + pt % 64 = pt := by
    omega
  rw [step_byte small, if_neg (by omega), if_neg (by omega), if_neg (by omega), if_pos (by omega),
    stepThree, h2, Bool.not_true, if_neg Bool.false_ne_true, if_pos (isContinuation_byte tail),
    tailBits_byte middle, tailBits_byte tail, toNat_byte small, joined]

theorem secondOfFour_bytes (low : 65536 ≤ pt) (high : pt < 0x110000) :
    secondOfFour (UInt8.ofNat (pt / 262144 % 8 + 240)) (UInt8.ofNat (pt / 4096 % 64 + 128)) =
      true := by
  apply second_bytes (by omega) (by omega) <;> simp only [UInt8.reduceToNat] <;> omega

theorem step_four (low : 65536 ≤ pt) (high : pt < 0x110000) (tl : List UInt8) :
    step (UInt8.ofNat (pt / 262144 % 8 + 240))
        (UInt8.ofNat (pt / 4096 % 64 + 128) :: UInt8.ofNat (pt / 64 % 64 + 128) ::
          UInt8.ofNat (pt % 64 + 128) :: tl) =
      .char (Char.ofNat pt) 4 := by
  have small : pt / 262144 % 8 + 240 < 256 := by omega
  have upper : pt / 4096 % 64 < 64 := by omega
  have middle : pt / 64 % 64 < 64 := by omega
  have tail : pt % 64 < 64 := by omega
  have h2 := secondOfFour_bytes low high
  have joined : (pt / 262144 % 8 + 240) % 8 * 262144 + pt / 4096 % 64 * 4096 +
      pt / 64 % 64 * 64 + pt % 64 = pt := by
    omega
  rw [step_byte small, if_neg (by omega), if_neg (by omega), if_neg (by omega), if_neg (by omega),
    if_pos (by omega), stepFour, h2, isContinuation_byte middle, Bool.not_true,
    if_neg Bool.false_ne_true, if_neg Bool.false_ne_true, if_pos (isContinuation_byte tail),
    tailBits_byte upper, tailBits_byte middle, tailBits_byte tail, toNat_byte small, joined]

end

theorem step_encoded (c : Char) (tl : List UInt8) :
    ∃ head tail, String.utf8EncodeChar c = head :: tail ∧
      step head (tail ++ tl) = .char c (tail.length + 1) := by
  have point : c.val.toNat = c.toNat := rfl
  have valid := c.valid
  rw [UInt32.isValidChar, Nat.isValidChar, point] at valid
  rw [String.utf8EncodeChar, point]
  split_ifs with one two three
  · refine ⟨_, _, rfl, ?_⟩
    rw [nil_append, step_one (by omega), Char.ofNat_toNat]
    rfl
  · refine ⟨_, _, rfl, ?_⟩
    rw [cons_append, nil_append, step_two (by omega) (by omega), Char.ofNat_toNat]
    rfl
  · refine ⟨_, _, rfl, ?_⟩
    rw [cons_append, cons_append, nil_append,
      step_three (by omega) (by omega) (by omega), Char.ofNat_toNat]
    rfl
  · refine ⟨_, _, rfl, ?_⟩
    rw [cons_append, cons_append, cons_append, nil_append,
      step_four (by omega) (by omega), Char.ofNat_toNat]
    rfl

/-! ## Whole texts -/

theorem decodeWalk_skip (all : List UInt8) (pos : Nat) (t : List Char) (used tl : List UInt8) :
    decodeWalk all pos used.length t (used ++ tl) = decodeWalk all (pos + used.length) 0 t tl := by
  induction used generalizing pos with
  | nil => rfl
  | cons byte used ih =>
    rw [length_cons, cons_append, decodeWalk, ih]
    congr 1
    omega

theorem decodeWalk_encoded (all : List UInt8) (pos : Nat) (read t : List Char) :
    decodeWalk all pos 0 read (t.flatMap String.utf8EncodeChar) = .ok (read.reverse ++ t) := by
  induction t generalizing pos read with
  | nil => simp [decodeWalk]
  | cons c t ih =>
    obtain ⟨head, tail, encoded, stepped⟩ := step_encoded c (t.flatMap String.utf8EncodeChar)
    rw [flatMap_cons, encoded, cons_append, decodeWalk, stepped]
    dsimp only
    rw [Nat.add_sub_cancel, decodeWalk_skip, ih]
    simp

theorem decode_encode (t : String) : decode (encode t) = .ok t := by
  rw [decode, encode_eq, decodeWalk_encoded]
  simp [Except.map]

end SourceAudit.Text.Utf8
