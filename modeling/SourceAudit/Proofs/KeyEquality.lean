import SourceAudit.Proofs.SortedValues

/-!
# Equality of keys

Sets and maps find a key by equality. A number is found under every spelling of itself, and what is
not a number is found as the value that it is, although it equals nothing.
-/

namespace SourceAudit.Value

variable {l r : Value}

theorem sameNaN_iff : l.sameNaN r = true ↔ l.isNaN = true ∧ l = r := by
  cases l <;> cases r <;> simp [sameNaN, isNaN]

theorem eq_of_sameNaN (twins : l.sameNaN r = true) : l = r := (sameNaN_iff.mp twins).2

theorem alike_of_same (equal : l.same r = true) : l.alike r = true := by
  rw [alike, equal, Bool.or_true]

inductive Amount where
  | undefined (n : Value)
  | infinite (up : Bool)
  | finite (size : Option ℚ)

def amount (n : Value) : Amount :=
  if n.isNaN then .undefined n
  else match n.infinite? with
    | some up => .infinite up
    | none => .finite n.rational?

theorem compareNumbers_iff_amount (one : l.isNumber = true) (two : r.isNumber = true)
    (defined : l.isNaN = false) : l.compareNumbers r = some .eq ↔ l.amount = r.amount := by
  cases also : r.isNaN with
  | true =>
    cases infinite : l.infinite? <;> simp [compareNumbers, amount, defined, also, infinite]
  | false =>
    rcases number_cases one with nan | ⟨_, ⟨up, infinite⟩, _⟩ | ⟨_, finite, _, _, ratio, _⟩
    · rw [defined] at nan
      cases nan
    · cases bounded : r.infinite? with
      | none => cases up <;> simp [compareNumbers, amount, defined, also, infinite, bounded]
      | some down =>
        cases up <;> cases down <;> simp [compareNumbers, amount, defined, also, infinite, bounded]
    · rcases number_cases two with nan | ⟨_, ⟨down, infinite⟩, _⟩ | ⟨_, bounded, _, _, ho, _⟩
      · rw [also] at nan
        cases nan
      · cases down <;> simp [compareNumbers, amount, defined, also, finite, infinite]
      · have h1 := congrArg (Option.map fun ratio => (ratio.1 / ratio.2 : ℚ)) ratio
        have h2 := congrArg (Option.map fun ratio => (ratio.1 / ratio.2 : ℚ)) ho
        rw [compareNumbers_eq h1 h2, amount, amount, defined, also, finite, bounded]
        simp [rational?, ratio, ho]

theorem alike_iff_amount (one : l.isNumber = true) (two : r.isNumber = true) :
    l.alike r = true ↔ l.amount = r.amount := by
  rw [alike, Bool.or_eq_true, sameNaN_iff, same_of_isNumber one two, beq_iff_eq]
  cases defined : l.isNaN with
  | false => simp [compareNumbers_iff_amount one two defined]
  | true =>
    have never : l.compareNumbers r ≠ some .eq := by
      simp [compareNumbers, defined]
    rw [amount, if_pos defined, amount]
    constructor
    · rintro (⟨_, rfl⟩ | equal)
      · rw [if_pos defined]
      · exact (never equal).elim
    · intro equal
      split at equal
      · exact Or.inl ⟨rfl, Amount.undefined.inj equal⟩
      · split at equal <;> cases equal

inductive Key where
  | null
  | text (c : String)
  | bytes (c : List UInt8)
  | code (c : String)
  | spelled (c : String)
  | number (amount : Amount)
  | tuple (xs : List Key)

mutual

def key? : Value → Option Key
  | .null => some .null
  | .text c => some (.text c)
  | .bytes c => some (.bytes c)
  | .code c => some (.code c)
  | .spelled _ c => some (.spelled c)
  | .tuple xs => (keys? xs).map .tuple
  | .list _ => none
  | .record _ => none
  | .table _ => none
  | .bool flag => some (.number (bool flag).amount)
  | .int n => some (.number (int n).amount)
  | .float n => some (.number (float n).amount)

def keys? : List Value → Option (List Key)
  | [] => some []
  | x :: tl => (key? x).bind fun own => (keys? tl).map (own :: ·)

end

theorem alike_iff_of_isNumber (number : l.isNumber = true) :
    l.alike r = true ↔ some (.number l.amount) = r.key? := by
  cases two : r.isNumber with
  | true =>
    rw [alike_iff_amount number two]
    cases r <;> simp_all [isNumber, key?]
  | false => cases l <;> cases r <;> simp_all [alike, sameNaN, same, isNumber, key?]

mutual

theorem alike_iff {l r : Value} {own : Key} (hk : l.key? = some own) :
    l.alike r = true ↔ some own = r.key? := by
  cases l with
  | tuple xs =>
    rw [key?, Option.map_eq_some_iff] at hk
    obtain ⟨keys, hi, rfl⟩ := hk
    cases r with
    | tuple others =>
      rw [key?, eq_comm (a := some _), Option.map_eq_some_iff]
      simp [alike, sameNaN, same, sameItems_iff hi]
    | _ => simp [alike, sameNaN, same, isNumber, key?]
  | list xs => simp [key?] at hk
  | record fs => simp [key?] at hk
  | table es => simp [key?] at hk
  | _ =>
    rw [key?, Option.some.injEq] at hk
    subst hk
    first
      | exact alike_iff_of_isNumber rfl
      | cases r <;> simp [alike, sameNaN, same, isNumber, key?]

theorem sameItems_iff {lefts rights : List Value} {own : List Key} (hk : keys? lefts = some own) :
    sameItems lefts rights = true ↔ keys? rights = some own := by
  cases lefts with
  | nil =>
    rw [keys?, Option.some.injEq] at hk
    subst hk
    cases rights <;> simp [sameItems, keys?, Option.bind_eq_some_iff]
  | cons l lefts =>
    rw [keys?, Option.bind_eq_some_iff] at hk
    obtain ⟨first, hh, hk⟩ := hk
    obtain ⟨tl, later, rfl⟩ := Option.map_eq_some_iff.mp hk
    cases rights with
    | nil => simp [sameItems, keys?]
    | cons r rights =>
      have heads : (l.sameNaN r || l.same r) = true ↔ _ := alike_iff hh
      rw [sameItems, Bool.and_eq_true, heads, sameItems_iff later, keys?, eq_comm (a := some first)]
      simp [Option.bind_eq_some_iff]

end

mutual

theorem exists_key {v : Value} (hhash : v.unhashable? = none) : ∃ own, v.key? = some own := by
  cases v with
  | tuple xs =>
    rw [unhashable?] at hhash
    obtain ⟨keys, hi⟩ := exists_keys hhash
    exact ⟨.tuple keys, by rw [key?, hi, Option.map_some]⟩
  | list xs => cases hhash
  | record fs => cases hhash
  | table es => cases hhash
  | _ => simp [key?]

theorem exists_keys {xs : List Value} (hhash : unhashableItem? xs = none) :
    ∃ own, keys? xs = some own := by
  cases xs with
  | nil => exact ⟨[], by rw [keys?]⟩
  | cons x tl =>
    rw [unhashableItem?] at hhash
    cases hh : x.unhashable? with
    | some k => simp [hh] at hhash
    | none =>
      obtain ⟨own, hk⟩ := exists_key hh
      rw [hh] at hhash
      obtain ⟨keys, hi⟩ := exists_keys hhash
      exact ⟨own :: keys, by rw [keys?, hk, hi]; rfl⟩

end

variable {first b third : Value}

theorem alike_self (hhash : first.unhashable? = none) : first.alike first = true := by
  obtain ⟨own, hk⟩ := exists_key hhash
  exact (alike_iff hk).mpr hk.symm

theorem alike_symm (hhash : first.unhashable? = none) (equal : first.alike b = true) :
    b.alike first = true := by
  obtain ⟨own, hk⟩ := exists_key hhash
  exact (alike_iff ((alike_iff hk).mp equal).symm).mpr hk.symm

theorem alike_trans (hhash : first.unhashable? = none) (begins : first.alike b = true)
    (ends : b.alike third = true) : first.alike third = true := by
  obtain ⟨own, hk⟩ := exists_key hhash
  exact (alike_iff hk).mpr ((alike_iff ((alike_iff hk).mp begins).symm).mp ends)

end SourceAudit.Value
