import SourceAudit.Proofs.NumberForms
import SourceAudit.Proofs.WrittenForms
import Mathlib.Tactic.IntervalCases

/-!
# Documents read back

The written form of a document is read as its decoded form: tuples come back as lists, tables as
records, and of repeated fields the last one stays at the place of the first. What is left of a
document that could not be written to its end is refused.
-/

open List

namespace SourceAudit.Json

variable {lay : Layout} {d : Nat}

/-! ## Texts -/

theorem readHex4_hex {n : Nat} (small : n < 32) (tl : List Char) :
    readHex4 (Text.Quote.hex 4 n ++ tl) = some (n, tl) := by
  interval_cases n <;> rfl

theorem readEscape_control {n : Nat} (small : n < 32) :
    ∃ spelled, encodeChar (Char.ofNat n) = '\\' :: spelled ∧
      ∀ tl, readEscape (spelled ++ tl) = some (Char.ofNat n, tl) := by
  have spelled : ∀ n < 32, n ∈ [8, 9, 10, 12, 13] ∨
      encodeChar (Char.ofNat n) = '\\' :: 'u' :: Text.Quote.hex 4 n := by decide
  rcases spelled n small with short | long
  · simp only [mem_cons, not_mem_nil, or_false] at short
    rcases short with rfl | rfl | rfl | rfl | rfl <;> exact ⟨_, rfl, fun _ => rfl⟩
  · refine ⟨_, long, fun tl => ?_⟩
    have below : ¬ 0xD800 ≤ n := by omega
    rw [cons_append, readEscape, readHex4_hex small]
    simp [isHighSurrogate, charOfUnit, below]

theorem readText_encodeChar (fuel : Nat) (con : List Char) (c : Char) (tl : List Char) :
    readText (fuel + 1) con (encodeChar c ++ tl) = readText fuel (c :: con) tl := by
  induction c using encodeChar_induction with
  | control n small =>
    obtain ⟨spelled, shape, hr⟩ := readEscape_control small
    rw [shape, cons_append, readText]
    simp [hr]
  | quote => rfl
  | backslash => rfl
  | plain c hs above quote backslash =>
    rw [hs, singleton_append, readText]
    simp [quote, backslash, above]

theorem readText_encoded (con known tl : List Char) {fuel : Nat} (enough : con.length < fuel) :
    readText fuel known (con.flatMap encodeChar ++ '"' :: tl) =
      some (String.ofList (known.reverse ++ con), tl) := by
  induction con generalizing known fuel with
  | nil =>
    obtain ⟨steps, rfl⟩ : ∃ steps, fuel = steps + 1 := ⟨fuel - 1, by omega⟩
    simp [readText]
  | cons c con ih =>
    obtain ⟨steps, rfl⟩ : ∃ steps, fuel = steps + 1 := ⟨fuel - 1, by omega⟩
    rw [flatMap_cons, append_assoc, readText_encodeChar]
    rw [ih (c :: known) (Nat.lt_of_succ_lt_succ enough)]
    simp

theorem length_le_flatMap_encodeChar (con : List Char) :
    con.length ≤ (con.flatMap encodeChar).length := by
  have some (c : Char) : 1 ≤ (encodeChar c).length := by
    induction c using encodeChar_induction with
    | control n small => decide +revert
    | quote => decide
    | backslash => decide
    | plain c hs => rw [hs, length_singleton]
  induction con with
  | nil => exact Nat.le_refl 0
  | cons c con ih =>
    have h1 := some c
    rw [flatMap_cons, length_append, length_cons]
    omega

/-! ## Space between the parts -/

variable {c : Char}

theorem skipSpace_cons (solid : isSpace c = false) (tl : List Char) :
    skipSpace (c :: tl) = c :: tl := by
  simp [skipSpace, solid]

theorem skipSpace_append {gap : List Char} (space : gap.all isSpace = true) (tl : List Char) :
    skipSpace (gap ++ tl) = skipSpace tl :=
  dropWhile_append_of_pos (all_eq_true.mp space)

theorem all_isSpace_lineBreak (lay : Layout) (d : Nat) :
    (lineBreak lay d).toList.all isSpace = true := by
  cases lay with
  | line => rfl
  | indented => simp [lineBreak, isSpace]

theorem separator_eq_cons (lay : Layout) (d : Nat) :
    ∃ gap, (separator lay d).toList = ',' :: gap ∧ gap.all isSpace = true := by
  cases lay with
  | line => exact ⟨[' '], by simp [separator], rfl⟩
  | indented =>
    exact ⟨(lineBreak .indented d).toList, by simp [separator],
      all_isSpace_lineBreak .indented d⟩

theorem skipSpace_lineBreak (lay : Layout) (d : Nat) (solid : isSpace c = false)
    (tl : List Char) : skipSpace ((lineBreak lay d).toList ++ c :: tl) = c :: tl := by
  rw [skipSpace_append (all_isSpace_lineBreak lay d)]
  exact skipSpace_cons solid tl

theorem ends_lineBreak_append (lay : Layout) (d : Nat) {tl : List Char}
    (stop : ends (c :: tl) = true) : ends ((lineBreak lay d).toList ++ c :: tl) = true := by
  cases lay with
  | line => exact stop
  | indented => simp [lineBreak, ends]

/-! ## The head of a written value -/

/-- Neither space nor the end of a list or a record. -/
def opens (c : Char) : Bool :=
  !isSpace c && c != ']' && c != '\x7d'

def Begins (t : List Char) : Prop :=
  t.head?.all opens = true

theorem Begins.skipSpace {t : List Char} (begins : Begins t) : skipSpace t = t := by
  cases t with
  | nil => rfl
  | cons c tl =>
    have opened : opens c = true := begins
    simp only [opens, Bool.and_eq_true, Bool.not_eq_true'] at opened
    exact skipSpace_cons opened.1.1 tl

def Numeric (c : Char) : Prop :=
  c = '-' ∨ Text.isAsciiDigit c = true

theorem Numeric.notMem (numeric : Numeric c) {others : List Char}
    (signs : others.all fun c => c != '-' && !Text.isAsciiDigit c) : c ∉ others := by
  intro hm
  have sign := all_eq_true.mp signs c hm
  rcases numeric with rfl | digit
  · cases sign
  · simp [digit] at sign

theorem Numeric.opens (numeric : Numeric c) : opens c = true := by
  have ho : c ∉ [' ', '\t', '\n', '\r', ']', '\x7d'] := numeric.notMem (by decide)
  simpa [Json.opens, isSpace, and_assoc] using ho

theorem exists_numeric {t : List Char} (is : IsNumeral t) (neg : Bool) :
    ∃ c tl, signed neg t = c :: tl ∧ Numeric c := by
  obtain ⟨a, others, rfl, digit⟩ := is.exists_digit
  cases neg with
  | false => exact ⟨a, others, rfl, Or.inr digit⟩
  | true => exact ⟨'-', _, rfl, Or.inl rfl⟩

theorem begins_signed {t : List Char} (is : IsNumeral t) (neg : Bool)
    (tl : List Char) : Begins (signed neg t ++ tl) := by
  obtain ⟨c, others, shape, numeric⟩ := exists_numeric is neg
  rw [shape]
  exact numeric.opens

inductive FloatText (n : Double) : Prop
  | notANumber (is : n.isNaN = true) (text : (float n).toList = "NaN".toList)
  | infinite (is : n.isNaN = false) (unbounded : n.isInfinite = true)
      (text : (float n).toList =
        if n.isNegative then "-Infinity".toList else "Infinity".toList)
  | finite (is : n.isNaN = false) (bounded : n.isInfinite = false) {numeral : List Char}
      (isNumeral : IsNumeral numeral)
      (text : (float n).toList = signed n.isNegative numeral)

theorem floatText (n : Double) : FloatText n := by
  cases is : n.isNaN with
  | true => exact .notANumber is (by rw [float, is]; rfl)
  | false =>
    cases bounded : n.isInfinite with
    | true =>
      refine .infinite is bounded ?_
      rw [float, is, bounded, if_neg Bool.false_ne_true, if_pos rfl]
      split <;> rfl
    | false =>
      obtain ⟨numeral, isNumeral, text⟩ := exists_float_eq_signed is bounded
      exact .finite is bounded isNumeral text

variable {v : Value}

theorem begins_written (lay : Layout) (d : Nat) {tl : List Char}
    (cut : writable v = false → tl = []) : Begins (written lay d v ++ tl) := by
  have list {xs : List Value} (cut : writableItems xs = false → tl = []) :
      Begins (written lay d (.list xs) ++ tl) := by
    cases xs with
    | nil => simp [written, write, Written.done, Begins, opens, isSpace]
    | cons x xs =>
      rw [written_list cut]
      rfl
  have record {fs : List (String × Value)} (cut : writableFields fs = false → tl = []) :
      Begins (written lay d (.record fs) ++ tl) := by
    cases fs with
    | nil => simp [written, write, Written.done, Begins, opens, isSpace]
    | cons fld fs =>
      rw [written_record cut]
      rfl
  cases v with
  | null => simp [written, write, Written.done, Begins, opens, isSpace]
  | bool flag => cases flag <;> simp [written, write, Written.done, Begins, opens, isSpace]
  | int n =>
    rw [written, write, Written.done, toList_int]
    exact begins_signed (isNumeral_digits _) _ tl
  | float n =>
    rw [written, write, Written.done]
    cases floatText n with
    | notANumber is text => rw [text]; rfl
    | infinite is unbounded text => rw [text]; split <;> rfl
    | finite is bounded isNumeral text =>
      rw [text]
      exact begins_signed isNumeral _ tl
  | text c => simp [written, write, Written.done, quote, Begins, opens, isSpace]
  | list xs => exact list cut
  | tuple xs =>
    rw [written_tuple]
    exact list cut
  | record fs => exact record cut
  | table es =>
    cases can : writableEntries es with
    | true =>
      rw [written_table can]
      exact record fun cannot => absurd (writableFields_named can) (by simp [cannot])
    | false =>
      rw [written_table_of_not can]
      rfl
  | bytes _ | code _ | spelled _ _ =>
    rw [cut rfl]
    rfl

def behind (lay : Layout) (d : Nat) (closing : List Char) (v : Value)
    (members : List (List Char × Value)) : List Char :=
  if writable v then gap lay d members ++ started lay d closing members else []

theorem behind_of_not {lay : Layout} {closing : List Char} {members : List (List Char × Value)}
    (cannot : writable v = false) : behind lay d closing v members = [] := by
  rw [behind, cannot, if_neg Bool.false_ne_true]

theorem begins_started_unlabelled (lay : Layout) (d : Nat) (closing : List Char)
    (x : Value) (xs : List Value) : Begins (started lay d closing (unlabelled (x :: xs))) :=
  begins_written lay d behind_of_not

theorem writtenKey_eq_cons (k : String) : ∃ tl, writtenKey k = '"' :: tl := by
  simp [writtenKey, quote]

theorem begins_started_labelled (lay : Layout) (d : Nat) (closing : List Char)
    (fld : String × Value) (fs : List (String × Value)) :
    Begins (started lay d closing (labelled (fld :: fs))) := by
  obtain ⟨tail, shape⟩ := writtenKey_eq_cons fld.1
  rw [labelled, map_cons, shape]
  rfl

/-! ## Decoded documents -/

def decodedFloat (n : Double) : Value :=
  if n.isNaN then notANumber
  else if n.isInfinite then infinity n.isNegative
  else ((readNumber (float n).toList).map Prod.fst).getD .null

mutual

def decoded : Value → Value
  | .float n => decodedFloat n
  | .list xs => .list (decodedItems xs)
  | .tuple xs => .list (decodedItems xs)
  | .record fs => .record (decodedFields [] fs)
  | .table es => .record (decodedEntries [] es)
  | other => other

def decodedItems : List Value → List Value
  | [] => []
  | x :: tl => decoded x :: decodedItems tl

def decodedFields (known : List (String × Value)) :
    List (String × Value) → List (String × Value)
  | [] => known
  | (k, v) :: tl => decodedFields (Value.setField k (decoded v) known) tl

def decodedEntries (known : List (String × Value)) :
    List (Value × Value) → List (String × Value)
  | [] => known
  | (k, v) :: tl =>
    match keyText k with
    | .ok nm => decodedEntries (Value.setField nm (decoded v) known) tl
    | .error _ => decodedEntries known tl

end

theorem decodedEntries_eq (known : List (String × Value)) (es : List (Value × Value)) :
    decodedEntries known es = decodedFields known (named es) := by
  induction es generalizing known with
  | nil => rw [named, decodedEntries, decodedFields]
  | cons e tl ih =>
    obtain ⟨k, v⟩ := e
    rw [decodedEntries, named]
    cases keyText k with
    | ok nm =>
      dsimp only
      rw [decodedFields, ih]
    | error err => exact ih known

/-! ## Reading values -/

/-- What comes of reading the text with enough steps. -/
def Gives (t : List Char) (r : Option (Value × List Char)) : Prop :=
  ∀ fuel, 2 * t.length ≤ fuel → readValue fuel t = r

theorem Gives.of_succ {t : List Char} {r : Option (Value × List Char)} (hfl : t ≠ [])
    (hr : ∀ fuel, 2 * t.length ≤ fuel + 1 → readValue (fuel + 1) t = r) : Gives t r := by
  intro fuel enough
  have hpos := length_pos_iff.mpr hfl
  obtain ⟨steps, rfl⟩ : ∃ steps, fuel = steps + 1 := ⟨fuel - 1, by omega⟩
  exact hr steps enough

theorem readValue_eq_readNumber (ho : c ∉ ['"', '[', '\x7b', 'n', 't', 'f', 'N', 'I']) (fuel : Nat)
    (tl : List Char) : readValue (fuel + 1) (c :: tl) = readNumber (c :: tl) := by
  simp only [mem_cons, not_mem_nil, or_false, not_or] at ho
  obtain ⟨quote, bracket, brace, n, t, f, capitalN, capitalI⟩ := ho
  have word : readWord (c :: tl) = none := by
    simp [readWord, Text.after?, Ne.symm n, Ne.symm t, Ne.symm f, Ne.symm capitalN,
      Ne.symm capitalI]
  rw [readValue, word]
  · intro txt hs
    exact quote (List.cons.inj hs).1
  · intro txt hs
    exact bracket (List.cons.inj hs).1
  · intro txt hs
    exact brace (List.cons.inj hs).1

variable {t tl : List Char}

theorem gives_number {others : List Char} (shape : t = c :: others) (numeric : Numeric c)
    {r : Option (Value × List Char)} (hr : readNumber (t ++ tl) = r) : Gives (t ++ tl) r := by
  subst shape
  refine .of_succ (cons_ne_nil _ _) fun fuel _ => ?_
  exact (readValue_eq_readNumber (numeric.notMem (by decide)) fuel _).trans hr

theorem gives_int (n : Int) (stop : ends tl = true) :
    Gives (written lay d (.int n) ++ tl) (some (.int n, tl)) := by
  obtain ⟨c, others, shape, numeric⟩ := exists_numeric (isNumeral_digits n.natAbs) (decide (n < 0))
  exact gives_number ((toList_int n).trans shape) numeric (readNumber_int n stop)

theorem gives_float (n : Double) (stop : ends tl = true) :
    Gives (written lay d (.float n) ++ tl) (some (decodedFloat n, tl)) := by
  rw [written, write, Written.done, decodedFloat]
  cases floatText n with
  | notANumber is text =>
    rw [text, if_pos is]
    refine .of_succ (by simp) fun fuel _ => ?_
    simp [readValue, readWord, Text.after?]
  | infinite is unbounded text =>
    rw [text, is, if_neg Bool.false_ne_true, if_pos unbounded]
    split
    · next negative =>
      rw [negative]
      have minus : "-Infinity".toList = '-' :: "Infinity".toList := rfl
      refine gives_number minus (Or.inl rfl) ?_
      simp [readNumber, Text.after?]
    · next hpos =>
      rw [Bool.eq_false_iff.mpr hpos]
      refine .of_succ (by simp) fun fuel _ => ?_
      simp [readValue, readWord, Text.after?]
  | finite is bounded isNumeral text =>
    obtain ⟨v, hr⟩ := isNumeral.exists_readNumber n.isNegative
    obtain ⟨c, others, shape, numeric⟩ := exists_numeric isNumeral n.isNegative
    have alone := hr [] rfl
    rw [append_nil] at alone
    rw [is, bounded, text, alone]
    exact gives_number shape numeric (hr tl stop)

theorem gives_text (c : String) (tl : List Char) :
    Gives (written lay d (.text c) ++ tl) (some (.text c, tl)) := by
  have shape : written lay d (.text c) ++ tl =
      '"' :: (c.toList.flatMap encodeChar ++ '"' :: tl) := by
    simp [written, write, Written.done, quote]
  have size := length_le_flatMap_encodeChar c.toList
  rw [shape]
  refine .of_succ (cons_ne_nil _ _) fun fuel enough => ?_
  rw [length_cons, length_append] at enough
  rw [readValue, readText_encoded c.toList [] tl (by omega)]
  simp

/-! ### Items and fields -/

/-- A value that can be written is read back, and what is left of another one is refused. -/
def Answers (lay : Layout) (v : Value) : Prop :=
  ∀ d tl, ends tl = true → (writable v = false → tl = []) →
    Gives (written lay d v ++ tl)
      (if writable v then some (decoded v, tl) else none)

variable {closing after : List Char} {xs : List Value} {fs known : List (String × Value)}

theorem ends_behind {members : List (List Char × Value)} (stop : ends closing = true) :
    ends (behind lay d closing v members) = true := by
  rw [behind]
  split
  · cases members with
    | nil => exact stop
    | cons member tl =>
      obtain ⟨blank, shape, _⟩ := separator_eq_cons lay d
      simp [gap, shape, ends]
  · rfl

theorem skipSpace_gap {members : List (List Char × Value)} (hfl : members ≠ [])
    (begins : Begins (started lay d closing members)) :
    ∃ later, skipSpace (gap lay d members ++ started lay d closing members) =
        ',' :: later ∧ skipSpace later = started lay d closing members ∧
      0 < (gap lay d members).length := by
  obtain ⟨blank, shape, space⟩ := separator_eq_cons lay d
  have apart : gap lay d members = ',' :: blank := by simp [gap, hfl, shape]
  rw [apart]
  refine ⟨_, skipSpace_cons (by decide) _, ?_, Nat.succ_pos _⟩
  exact (skipSpace_append space _).trans begins.skipSpace

theorem readItems_started (each : ∀ x ∈ xs, Answers lay x) (some : xs ≠ [])
    (closed : skipSpace closing = ']' :: after) (stop : ends closing = true) {fuel : Nat}
    (enough : 2 * (started lay d closing (unlabelled xs)).length < fuel) :
    readItems fuel (started lay d closing (unlabelled xs)) =
      if writableItems xs then .some (decodedItems xs, after) else none := by
  induction xs generalizing fuel with
  | nil => exact absurd rfl some
  | cons x xs ih =>
    obtain ⟨hh, others⟩ := forall_mem_cons.mp each
    obtain ⟨steps, rfl⟩ : ∃ steps, fuel = steps + 1 := ⟨fuel - 1, by omega⟩
    rw [unlabelled, map_cons, ← unlabelled, started, nil_append, ← behind] at enough ⊢
    rw [readItems, hh d _ (ends_behind stop) behind_of_not steps (by omega), writableItems]
    cases can : writable x with
    | false => rfl
    | true =>
      rw [behind, can, if_pos rfl, length_append, length_append] at enough
      simp only [behind, can, if_true, Bool.true_and]
      cases xs with
      | nil => simp [unlabelled, gap, started, closed, writableItems, decodedItems]
      | cons next xs =>
        obtain ⟨later, comma, skipped, hpos⟩ := skipSpace_gap
          (show unlabelled (next :: xs) ≠ [] from cons_ne_nil _ _)
          (begins_started_unlabelled lay d closing next xs)
        simp only [comma, skipped]
        rw [ih others (cons_ne_nil _ _) (by omega)]
        split <;> rfl

theorem length_writtenKey (k : String) : k.toList.length + 4 ≤ (writtenKey k).length := by
  have size := length_le_flatMap_encodeChar k.toList
  simp [writtenKey, quote] at size ⊢
  omega

theorem readText_writtenKey (k : String) (c : List Char) {fuel : Nat}
    (enough : k.toList.length < fuel) :
    ∃ named, writtenKey k ++ c = '"' :: named ∧
      readText fuel [] named = some (k, ':' :: ' ' :: c) := by
  have hr := readText_encoded k.toList [] (':' :: ' ' :: c) enough
  simp only [reverse_nil, nil_append, String.ofList_toList] at hr
  exact ⟨_, by simp [writtenKey, quote], hr⟩

/-- The closing text is that of a record, or missing. -/
def Closes (closing : List Char) (tl : Option (List Char)) : Prop :=
  ends closing = true ∧
    tl.elim (closing = []) fun after => skipSpace closing = '\x7d' :: after

theorem readFields_started {tl : Option (List Char)} (closes : Closes closing tl)
    (each : ∀ fld ∈ fs, Answers lay fld.2) (some : fs ≠ [] ∨ tl = none) {fuel : Nat}
    (enough : 2 * (started lay d closing (labelled fs)).length < fuel) :
    readFields fuel known (started lay d closing (labelled fs)) =
      if writableFields fs then tl.map (decodedFields known fs, ·) else none := by
  obtain ⟨stop, closed⟩ := closes
  induction fs generalizing fuel known with
  | nil =>
    obtain rfl := some.resolve_left (fun hfl => hfl rfl)
    obtain rfl : closing = [] := closed
    cases fuel <;> simp [labelled, started, readFields]
  | cons fld fs ih =>
    obtain ⟨hh, others⟩ := forall_mem_cons.mp each
    obtain ⟨steps, rfl⟩ : ∃ steps, fuel = steps + 1 := ⟨fuel - 1, by omega⟩
    have size := length_writtenKey fld.1
    rw [labelled, map_cons, ← labelled, started, ← behind] at enough ⊢
    rw [length_append] at enough
    obtain ⟨named, shape, hr⟩ := readText_writtenKey fld.1 (written lay d fld.2 ++
      behind lay d closing fld.2 (labelled fs)) (show _ < steps by omega)
    have colon (t : List Char) : skipSpace (':' :: t) = ':' :: t := skipSpace_cons (by decide) t
    have content : skipSpace (' ' :: (written lay d fld.2 ++
        behind lay d closing fld.2 (labelled fs))) = _ :=
      (begins_written lay d behind_of_not).skipSpace
    rw [shape, readFields, hr]
    simp only [colon, content]
    rw [hh d _ (ends_behind stop) behind_of_not steps (by omega), writableFields]
    cases can : writable fld.2 with
    | false => rfl
    | true =>
      rw [behind, can, if_pos rfl, length_append, length_append] at enough
      simp only [behind, can, if_true]
      cases fs with
      | nil =>
        cases tl with
        | none =>
          obtain rfl : closing = [] := closed
          rfl
        | some after =>
          have closed : skipSpace closing = '\x7d' :: after := closed
          simp [labelled, gap, started, closed, writableFields, decodedFields]
      | cons next fs =>
        obtain ⟨later, comma, skipped, hpos⟩ := skipSpace_gap
          (show labelled (next :: fs) ≠ [] from cons_ne_nil _ _)
          (begins_started_labelled lay d closing next fs)
        simp only [comma, skipped]
        rw [ih others (Or.inl (cons_ne_nil _ _)) (by omega)]
        rfl

/-! ## Reading documents back -/

theorem gives_list (each : ∀ x ∈ xs, Answers lay x) (d : Nat)
    (cut : writableItems xs = false → tl = []) :
    Gives (written lay d (.list xs) ++ tl)
      (if writableItems xs then some (.list (decodedItems xs), tl) else none) := by
  cases xs with
  | nil =>
    refine .of_succ (by simp [written, write, Written.done]) fun fuel _ => ?_
    simp [written, write, Written.done, readValue, skipSpace, isSpace, writableItems, decodedItems]
  | cons x xs =>
    have begins := begins_started_unlabelled lay (d + 1)
      ((lineBreak lay d).toList ++ ']' :: tl) x xs
    rw [written_list cut]
    refine .of_succ (cons_ne_nil _ _) fun fuel enough => ?_
    rw [length_cons, length_append] at enough
    rw [readValue, skipSpace_append (all_isSpace_lineBreak lay (d + 1)), begins.skipSpace]
    split
    · next closed =>
      rw [closed] at begins
      cases begins
    · rw [readItems_started each (cons_ne_nil _ _) (skipSpace_lineBreak lay d rfl tl)
        (ends_lineBreak_append lay d rfl) (by omega)]
      split <;> rfl

theorem gives_fields {closed : Option (List Char)} (closes : Closes closing closed)
    (each : ∀ fld ∈ fs, Answers lay fld.2) (hfl : fs ≠ [] ∨ closed = none) :
    Gives ('\x7b' :: ((lineBreak lay d).toList ++ started lay d closing (labelled fs)))
      (if writableFields fs then closed.map (.record (decodedFields [] fs), ·)
        else none) := by
  have begins : Begins (started lay d closing (labelled fs)) := by
    cases fs with
    | nil =>
      obtain rfl := hfl.resolve_left (fun some => some rfl)
      rw [show closing = [] from closes.2]
      rfl
    | cons fld fs => exact begins_started_labelled lay d closing fld fs
  refine .of_succ (cons_ne_nil _ _) fun fuel enough => ?_
  rw [length_cons, length_append] at enough
  rw [readValue, skipSpace_append (all_isSpace_lineBreak lay d), begins.skipSpace]
  split
  · next closed =>
    rw [closed] at begins
    cases begins
  · rw [readFields_started closes each hfl (by omega)]
    split
    · rw [Option.map_map]
      rfl
    · rfl

theorem gives_record (each : ∀ fld ∈ fs, Answers lay fld.2) (d : Nat)
    (cut : writableFields fs = false → tl = []) :
    Gives (written lay d (.record fs) ++ tl)
      (if writableFields fs then some (.record (decodedFields [] fs), tl) else none) := by
  cases fs with
  | nil =>
    refine .of_succ (by simp [written, write, Written.done]) fun fuel _ => ?_
    simp [written, write, Written.done, readValue, skipSpace, isSpace, writableFields, decodedFields]
  | cons fld fs =>
    have closes : Closes ((lineBreak lay d).toList ++ '\x7d' :: tl) (some tl) :=
      ⟨ends_lineBreak_append lay d rfl, skipSpace_lineBreak lay d rfl tl⟩
    rw [written_record cut]
    exact gives_fields closes each (Or.inl (cons_ne_nil _ _))

def contents : Value → List Value
  | .list xs => xs
  | .tuple xs => xs
  | .record fs => fs.map Prod.snd
  | .table es => es.map Prod.snd
  | _ => []

theorem contents_induction {motive : Value → Prop}
    (step : ∀ value, (∀ part ∈ contents value, motive part) → motive value) (value : Value) :
    motive value := by
  apply step
  intro part member
  exact contents_induction step part
termination_by sizeOf value
decreasing_by cases value with
  | list items | tuple items =>
    have smaller := sizeOf_lt_of_mem (show part ∈ items from member)
    simp only [Value.list.sizeOf_spec, Value.tuple.sizeOf_spec]
    omega
  | record fields | table fields =>
    obtain ⟨⟨key, value⟩, inside, rfl⟩ := mem_map.mp member
    have smaller := sizeOf_lt_of_mem inside
    simp only [Prod.mk.sizeOf_spec, Value.record.sizeOf_spec, Value.table.sizeOf_spec] at smaller ⊢
    omega
  | _ => cases member

theorem mem_contents_of_mem_named {es : List (Value × Value)} {fld : String × Value}
    (hm : fld ∈ named es) : fld.2 ∈ contents (.table es) := by
  rw [contents]
  induction es with
  | nil => cases hm
  | cons e tl ih =>
    rw [map_cons, mem_cons]
    rw [named] at hm
    split at hm
    · rcases mem_cons.mp hm with rfl | later
      · exact Or.inl rfl
      · exact Or.inr (ih later)
    · exact Or.inr (ih hm)

theorem answers (lay : Layout) (v : Value) : Answers lay v := by
  induction v using contents_induction with
  | step v ih =>
    intro d tl stop cut
    cases v with
    | null =>
      refine .of_succ (by simp [written, write, Written.done]) fun fuel _ => ?_
      simp [written, write, Written.done, readValue, readWord, Text.after?, writable, decoded]
    | bool flag =>
      cases flag <;> refine .of_succ (by simp [written, write, Written.done]) fun fuel _ => ?_ <;>
        simp [written, write, Written.done, readValue, readWord, Text.after?, writable, decoded]
    | int n => exact gives_int n stop
    | float n => exact gives_float n stop
    | text c => exact gives_text c tl
    | list xs => exact gives_list ih d cut
    | tuple xs =>
      rw [written_tuple]
      exact gives_list ih d cut
    | record fs => exact gives_record (fun fld hm => ih _ (mem_map_of_mem hm)) d cut
    | table es =>
      have each {fs : List (String × Value)} (within : fs ⊆ named es) :
          ∀ fld ∈ fs, Answers lay fld.2 :=
        fun fld hm => ih _ (mem_contents_of_mem_named (within hm))
      cases can : writableEntries es with
      | true =>
        have canNamed := writableFields_named can
        have hr := gives_record (each (Subset.refl _)) d
          (show _ → tl = [] from fun cannot => absurd canNamed (by simp [cannot]))
        rw [canNamed] at hr
        rw [written_table can, writable, can, decoded, decodedEntries_eq]
        exact hr
      | false =>
        have hr := @gives_fields lay (d + 1) [] _ none ⟨rfl, rfl⟩
          (each (namedFront_subset es)) (Or.inr rfl)
        rw [cut can, written_table_of_not can, writable, can]
        simpa using hr
    | bytes _ | code _ | spelled _ _ =>
      rw [cut rfl]
      rintro (_ | fuel) _ <;>
        simp [written, write, unwritable, readValue, readWord, readNumber, readUnsigned, readWhole,
          Text.after?, writable]

/-- A document is read back if it was written to its end, and what is left of another is refused. -/
theorem read?_write (lay : Layout) (doc : Value) :
    read? (write lay 0 doc).text = if writable doc then some (decoded doc) else none := by
  have hr := answers lay doc 0 [] rfl fun _ => rfl
  have begins : Begins (written lay 0 doc ++ []) := begins_written lay 0 fun _ => rfl
  rw [append_nil] at hr begins
  rw [read?, ← written, begins.skipSpace, hr _ (by omega)]
  cases writable doc <;> rfl

/-! ## Plain documents -/

theorem setField_of_notMem {k : String} (v : Value) (fresh : k ∉ fs.map Prod.fst) :
    Value.setField k v fs = fs ++ [(k, v)] := by
  induction fs with
  | nil => rfl
  | cons e tl ih =>
    simp only [map_cons, mem_cons, not_or] at fresh
    rw [Value.setField, ih fresh.2]
    simp [Ne.symm fresh.1]

mutual

theorem decoded_of_isPlain : (v : Value) → isPlain v = true → decoded v = v
  | .null, _ => rfl
  | .bool _, _ => rfl
  | .int _, _ => rfl
  | .text _, _ => rfl
  | .list xs, hp => by rw [decoded, decodedItems_of_arePlain xs hp]
  | .record fs, hp => by
    rw [isPlain, Bool.and_eq_true, decide_eq_true_eq] at hp
    rw [decoded, decodedFields_of_plainFields fs [] hp.2 hp.1, nil_append]

theorem decodedItems_of_arePlain :
    (xs : List Value) → arePlain xs = true → decodedItems xs = xs
  | [], _ => rfl
  | x :: tl, hp => by
    rw [arePlain, Bool.and_eq_true] at hp
    rw [decodedItems, decoded_of_isPlain x hp.1, decodedItems_of_arePlain tl hp.2]

theorem decodedFields_of_plainFields :
    (fs known : List (String × Value)) → plainFields fs = true →
      ((known ++ fs).map Prod.fst).Nodup → decodedFields known fs = known ++ fs
  | [], known, _, _ => by rw [decodedFields, append_nil]
  | (k, v) :: tl, known, hp, hdis => by
    rw [plainFields, Bool.and_eq_true] at hp
    have fresh : k ∉ known.map Prod.fst := by
      rw [map_append] at hdis
      intro hm
      exact (nodup_append.mp hdis).2.2 k hm k mem_cons_self rfl
    rw [decodedFields, decoded_of_isPlain v hp.1, setField_of_notMem v fresh,
      decodedFields_of_plainFields tl _ hp.2 (by simpa using hdis),
      append_assoc, singleton_append]

end

/-! ## Line ends -/

theorem notMem_quote (con : String) : '\r' ∉ (quote con).toList := by
  have hi (c : Char) : '\r' ∉ encodeChar c := by
    induction c using encodeChar_induction with
    | control n small => decide +revert
    | quote | backslash => decide
    | plain c hs above =>
      rw [hs, mem_singleton]
      rintro rfl
      exact absurd above (by decide)
  simp [quote, hi]

theorem notMem_lineBreak (lay : Layout) (d : Nat) : '\r' ∉ (lineBreak lay d).toList := by
  cases lay <;> simp [lineBreak]

theorem AreDigits.notMem {t : List Char} (are : AreDigits t) : '\r' ∉ t := by
  intro hm
  exact absurd (are.all _ hm) (by decide)

theorem IsNumeral.notMem {t : List Char} (is : IsNumeral t) : '\r' ∉ t := by
  obtain ⟨whole, fraction, ex, rfl, isWhole, isFraction, isExponent⟩ := is
  rw [mem_append, mem_append, not_or, not_or]
  refine ⟨isWhole.notMem, ?_, ?_⟩
  · cases isFraction with
    | none => exact not_mem_nil
    | point are => simp [are.notMem]
  · cases isExponent with
    | none => exact not_mem_nil
    | power signed are =>
      rcases signed with rfl | rfl
      · simp [are.notMem]
      · simp [are.notMem]

theorem notMem_signed {t : List Char} (is : IsNumeral t) (neg : Bool) : '\r' ∉ signed neg t := by
  cases neg with
  | false => exact is.notMem
  | true => simp [signed, is.notMem]

theorem notMem_started {members : List (List Char × Value)} (closed : '\r' ∉ closing)
    (each : ∀ member ∈ members, '\r' ∉ member.1 ∧ '\r' ∉ written lay d member.2) :
    '\r' ∉ started lay d closing members := by
  induction members with
  | nil => exact closed
  | cons member tl ih =>
    obtain ⟨⟨label, value⟩, others⟩ := forall_mem_cons.mp each
    have apart : '\r' ∉ gap lay d tl := by cases lay <;> simp [gap, separator, lineBreak]
    have later := ih others
    rw [started]
    split <;> simp [*]

theorem notMem_labelled (closed : '\r' ∉ closing)
    (each : ∀ fld ∈ fs, ∀ d, '\r' ∉ written lay d fld.2) (d : Nat) :
    '\r' ∉ '\x7b' :: ((lineBreak lay d).toList ++ started lay d closing (labelled fs)) := by
  have inner : '\r' ∉ started lay d closing (labelled fs) :=
    notMem_started closed (forall_mem_map.mpr fun fld hm =>
      ⟨by simp [writtenKey, notMem_quote], each fld hm d⟩)
  simp [notMem_lineBreak, inner]

theorem notMem_record (each : ∀ fld ∈ fs, ∀ d, '\r' ∉ written lay d fld.2)
    (d : Nat) : '\r' ∉ written lay d (.record fs) := by
  cases fs with
  | nil => simp [written, write, Written.done]
  | cons fld fs =>
    have shape := @written_record lay d fld fs [] fun _ => rfl
    rw [append_nil] at shape
    rw [shape]
    exact notMem_labelled (by simp [notMem_lineBreak]) each (d + 1)

theorem notMem_list (each : ∀ x ∈ xs, ∀ d, '\r' ∉ written lay d x)
    (d : Nat) : '\r' ∉ written lay d (.list xs) := by
  cases xs with
  | nil => simp [written, write, Written.done]
  | cons x xs =>
    have shape := @written_list lay d x xs [] fun _ => rfl
    have inner : '\r' ∉ started lay (d + 1) ((lineBreak lay d).toList ++ [']'])
        (unlabelled (x :: xs)) :=
      notMem_started (by simp [notMem_lineBreak])
        (forall_mem_map.mpr fun x hm => ⟨not_mem_nil, each x hm (d + 1)⟩)
    rw [append_nil] at shape
    rw [shape]
    simp [notMem_lineBreak, inner]

theorem notMem_written (lay : Layout) (d : Nat) (v : Value) : '\r' ∉ written lay d v := by
  induction v using contents_induction generalizing d with
  | step v ih =>
    cases v with
    | null => simp [written, write, Written.done]
    | bool flag => cases flag <;> simp [written, write, Written.done]
    | int n =>
      rw [written, write, Written.done, toList_int]
      exact notMem_signed (isNumeral_digits _) _
    | float n =>
      rw [written, write, Written.done]
      cases floatText n with
      | notANumber is text => rw [text]; decide
      | infinite is unbounded text => rw [text]; split <;> decide
      | finite is bounded isNumeral text =>
        rw [text]
        exact notMem_signed isNumeral _
    | text c => exact notMem_quote c
    | list xs => exact notMem_list ih d
    | tuple xs =>
      rw [written_tuple]
      exact notMem_list ih d
    | record fs =>
      exact notMem_record (fun _ hm => ih _ (mem_map_of_mem hm)) d
    | table es =>
      have each : ∀ fld ∈ named es, ∀ d, '\r' ∉ written lay d fld.2 :=
        fun _ hm => ih _ (mem_contents_of_mem_named hm)
      cases can : writableEntries es with
      | true =>
        rw [written_table can]
        exact notMem_record each d
      | false =>
        rw [written_table_of_not can]
        exact notMem_labelled not_mem_nil (fun fld hm => each fld (namedFront_subset es hm)) (d + 1)
    | bytes _ | code _ | spelled _ _ => exact not_mem_nil

end SourceAudit.Json
