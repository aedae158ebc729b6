import SourceAudit.Json.Reader
import Mathlib.Tactic.SplitIfs

/-!
# Written documents

The written forms of documents, part by part. Writing a document ends well exactly when JSON has a
form for each of its parts, whatever the layout.
-/

namespace SourceAudit.Json

/-! ## Documents that can be written -/

mutual

def writable : Value → Bool
  | .list xs => writableItems xs
  | .tuple xs => writableItems xs
  | .record fs => writableFields fs
  | .table es => writableEntries es
  | .bytes _ => false
  | .code _ => false
  | .spelled _ _ => false
  | _ => true

def writableItems : List Value → Bool
  | [] => true
  | x :: tl => writable x && writableItems tl

def writableFields : List (String × Value) → Bool
  | [] => true
  | (_, v) :: tl => writable v && writableFields tl

def writableEntries : List (Value × Value) → Bool
  | [] => true
  | (k, v) :: tl => (keyText k).toOption.isSome && writable v && writableEntries tl

end

namespace Written

@[simp]
theorem fault_done (t : String) : (done t).fault = none := rfl

@[simp]
theorem fault_andThen_eq_none (a : Written) (b : Unit → Written) :
    (a.andThen b).fault = none ↔ a.fault = none ∧ (b ()).fault = none := by
  rw [andThen]
  cases stopped : a.fault with
  | none => simp
  | some err => simp [stopped]

theorem complete_eq_ok {written : Written} {t : String} :
    written.complete = .ok t ↔ written.fault = none ∧ written.text = t := by
  rw [complete]
  cases written.fault <;> simp

end Written

mutual

theorem fault_write_eq_none (lay : Layout) (d : Nat) :
    (v : Value) → ((write lay d v).fault = none ↔ writable v = true)
  | .null | .bool true | .bool false | .int _ | .float _ | .text _ => by simp [write, writable]
  | .bytes _ | .code _ | .spelled _ _ => by simp [write, writable, unwritable]
  | .list [] | .tuple [] => by simp [write, writable, writableItems]
  | .list (x :: tl) | .tuple (x :: tl) => by
    simp [write, writable, writableItems, fault_write_eq_none lay (d + 1) x,
      fault_writeItems_eq_none lay (d + 1) tl]
  | .record [] => by simp [write, writable, writableFields]
  | .record ((k, v) :: tl) => by
    simp [write, writable, writableFields, fault_write_eq_none lay (d + 1) v,
      fault_writeFields_eq_none lay (d + 1) tl]
  | .table [] => by simp [write, writable, writableEntries]
  | .table ((k, v) :: tl) => by
    rw [write, writable, writableEntries]
    cases keyText k with
    | error err => simp [Except.toOption]
    | ok nm =>
      simp [Except.toOption, fault_write_eq_none lay (d + 1) v,
        fault_writeEntries_eq_none lay (d + 1) tl]

theorem fault_writeItems_eq_none (lay : Layout) (d : Nat) :
    (xs : List Value) → ((writeItems lay d xs).fault = none ↔ writableItems xs = true)
  | [] => by simp [writeItems, writableItems]
  | x :: tl => by
    simp [writeItems, writableItems, fault_write_eq_none lay d x, fault_writeItems_eq_none lay d tl]

theorem fault_writeFields_eq_none (lay : Layout) (d : Nat) :
    (fs : List (String × Value)) → ((writeFields lay d fs).fault = none ↔ writableFields fs = true)
  | [] => by simp [writeFields, writableFields]
  | (k, v) :: tl => by
    simp [writeFields, writableFields, fault_write_eq_none lay d v,
      fault_writeFields_eq_none lay d tl]

theorem fault_writeEntries_eq_none (lay : Layout) (d : Nat) :
    (es : List (Value × Value)) → ((writeEntries lay d es).fault = none ↔ writableEntries es = true)
  | [] => by simp [writeEntries, writableEntries]
  | (k, v) :: tl => by
    rw [writeEntries, writableEntries]
    cases keyText k with
    | error err => simp [Except.toOption]
    | ok nm =>
      simp [Except.toOption, fault_write_eq_none lay d v, fault_writeEntries_eq_none lay d tl]

end

theorem complete_write_isOk (lay : Layout) (d : Nat) (doc : Value) :
    (∃ t, (write lay d doc).complete = .ok t) ↔ writable doc = true := by
  rw [← fault_write_eq_none lay d doc]
  simp [Written.complete_eq_ok]

/-! ### Sorted fields -/

theorem writableFields_insertByKey (e : String × Value) (fs : List (String × Value)) :
    writableFields (insertByKey e fs) = (writable e.2 && writableFields fs) := by
  induction fs with
  | nil => rfl
  | cons other tl ih =>
    rw [insertByKey]
    split_ifs
    · rfl
    · rw [writableFields, writableFields, ih, Bool.and_left_comm]

mutual

theorem writable_sortFields : (v : Value) → writable (sortFields v) = writable v
  | .list xs => writableItems_sortItems xs
  | .tuple xs => writableItems_sortItems xs
  | .record fs => writableFields_sortRecord fs
  | .null | .bool _ | .int _ | .float _ | .text _ | .bytes _ | .code _ | .spelled _ _ | .table _ =>
    rfl

theorem writableItems_sortItems :
    (xs : List Value) → writableItems (sortItems xs) = writableItems xs
  | [] => rfl
  | x :: tl => by
    rw [sortItems, writableItems, writableItems, writable_sortFields x, writableItems_sortItems tl]

theorem writableFields_sortRecord :
    (fs : List (String × Value)) → writableFields (sortRecord fs) = writableFields fs
  | [] => rfl
  | (k, v) :: tl => by
    rw [sortRecord, writableFields_insertByKey, writableFields, writable_sortFields v,
      writableFields_sortRecord tl]

end

/-! ## Plain documents -/

mutual

def isPlain : Value → Bool
  | .null => true
  | .bool _ => true
  | .int _ => true
  | .text _ => true
  | .list xs => arePlain xs
  | .record fs => decide (fs.map Prod.fst).Nodup && plainFields fs
  | _ => false

def arePlain : List Value → Bool
  | [] => true
  | x :: tl => isPlain x && arePlain tl

def plainFields : List (String × Value) → Bool
  | [] => true
  | (_, v) :: tl => isPlain v && plainFields tl

end

mutual

theorem writable_of_isPlain : (v : Value) → isPlain v = true → writable v = true
  | .null, _ | .bool _, _ | .int _, _ | .text _, _ => rfl
  | .list xs, hp => writableItems_of_arePlain xs hp
  | .record fs, hp => by
    rw [isPlain, Bool.and_eq_true] at hp
    exact writableFields_of_plainFields fs hp.2

theorem writableItems_of_arePlain :
    (xs : List Value) → arePlain xs = true → writableItems xs = true
  | [], _ => rfl
  | x :: tl, hp => by
    rw [arePlain, Bool.and_eq_true] at hp
    rw [writableItems, writable_of_isPlain x hp.1, writableItems_of_arePlain tl hp.2]
    rfl

theorem writableFields_of_plainFields :
    (fs : List (String × Value)) → plainFields fs = true → writableFields fs = true
  | [], _ => rfl
  | (_, v) :: tl, hp => by
    rw [plainFields, Bool.and_eq_true] at hp
    rw [writableFields, writable_of_isPlain v hp.1, writableFields_of_plainFields tl hp.2]
    rfl

end

/-! ### Characters -/

/-- Control characters, the quote and the backslash are escaped, the others stand for themselves. -/
@[elab_as_elim]
theorem encodeChar_induction {motive : Char → Prop}
    (control : ∀ number < 32, motive (Char.ofNat number)) (quote : motive '"')
    (backslash : motive '\\')
    (plain : ∀ c, encodeChar c = [c] → 32 ≤ c.toNat → c ≠ '"' → c ≠ '\\' → motive c) (c : Char) :
    motive c := by
  by_cases low : c.toNat < 32
  · exact Char.ofNat_toNat c ▸ control c.toNat low
  by_cases quoted : c = '"'
  · exact quoted ▸ quote
  by_cases slashed : c = '\\'
  · exact slashed ▸ backslash
  have other {number : Nat} (small : number < 32) : c ≠ Char.ofNat number := by
    rintro rfl
    revert number
    decide
  have feed := @other 10 (by decide)
  have carriage := @other 13 (by decide)
  have tab := @other 9 (by decide)
  refine plain c ?_ (Nat.le_of_not_lt low) quoted slashed
  rw [encodeChar, if_neg quoted, if_neg slashed, if_neg feed, if_neg carriage, if_neg tab,
    if_neg (other (by decide)), if_neg (other (by decide)), if_neg low]

/-! ### Written parts -/

def written (lay : Layout) (d : Nat) (v : Value) : List Char :=
  (write lay d v).text.toList

def writtenKey (k : String) : List Char :=
  (quote k).toList ++ [':', ' ']

def gap (lay : Layout) (d : Nat) (members : List (List Char × Value)) : List Char :=
  if members.isEmpty then [] else (separator lay d).toList

/-- The values of a list or a record, each behind its label, and the text that closes them. Nothing
follows a value that cannot be written. -/
def started (lay : Layout) (d : Nat) (closing : List Char) :
    List (List Char × Value) → List Char
  | [] => closing
  | (label, v) :: tl => label ++ (written lay d v ++
      if writable v then gap lay d tl ++ started lay d closing tl else [])

def unlabelled (xs : List Value) : List (List Char × Value) :=
  xs.map fun x => ([], x)

def labelled (fs : List (String × Value)) : List (List Char × Value) :=
  fs.map fun fld => (writtenKey fld.1, fld.2)

variable {lay : Layout} {d : Nat} {closing : List Char}

theorem toList_text_started (pre : String) (v : Value) (next : Written) :
    (((Written.done pre).andThen fun _ => write lay d v).andThen fun _ => next).text.toList =
      pre.toList ++ (written lay d v ++ if writable v then next.text.toList else []) := by
  have hb := fault_write_eq_none lay d v
  cases h1 : (write lay d v).fault <;> rw [h1] at hb <;>
    simp_all [Written.andThen, Written.done, written]

theorem toList_text_closed {pre closing : String} {v : Value} {next : Written} {can : Bool}
    {after : List Char} (he : next.fault = none ↔ can = true)
    (cut : (writable v && can) = false → after = []) :
    ((((Written.done pre).andThen fun _ => write lay d v).andThen fun _ =>
      next).andThen fun _ => .done closing).text.toList ++ after =
      pre.toList ++ (written lay d v ++ if writable v then
        next.text.toList ++ (if can then closing.toList ++ after else []) else []) := by
  have hb := fault_write_eq_none lay d v
  cases h1 : (write lay d v).fault <;> cases last : next.fault <;>
    rw [h1] at hb <;> rw [last] at he <;>
    simp_all [Written.andThen, Written.done, written]

theorem toList_text_writeItems (closing : List Char) (xs : List Value) :
    (writeItems lay d xs).text.toList ++ (if writableItems xs then closing else []) =
      gap lay d (unlabelled xs) ++ started lay d closing (unlabelled xs) := by
  induction xs with
  | nil => simp [writeItems, Written.done, writableItems, unlabelled, gap, started]
  | cons x tl ih =>
    rw [writeItems, toList_text_started, writableItems, unlabelled, List.map_cons, ← unlabelled,
      started, ← ih]
    cases writable x <;> simp [gap]

theorem toList_text_writeFields (closing : List Char) (fs : List (String × Value)) :
    (writeFields lay d fs).text.toList ++ (if writableFields fs then closing else []) =
      gap lay d (labelled fs) ++ started lay d closing (labelled fs) := by
  induction fs with
  | nil => simp [writeFields, Written.done, writableFields, labelled, gap, started]
  | cons fld tl ih =>
    rw [writeFields, toList_text_started, writableFields, labelled, List.map_cons, ← labelled,
      started, ← ih]
    cases writable fld.2 <;> simp [gap, writtenKey]

theorem written_list {x : Value} {tl : List Value} {after : List Char}
    (cut : writableItems (x :: tl) = false → after = []) :
    written lay d (.list (x :: tl)) ++ after =
      '[' :: ((lineBreak lay (d + 1)).toList ++ started lay (d + 1)
        ((lineBreak lay d).toList ++ ']' :: after) (unlabelled (x :: tl))) := by
  rw [written, write, toList_text_closed (fault_writeItems_eq_none lay (d + 1) tl) cut,
    toList_text_writeItems]
  simp [unlabelled, started]

theorem written_record {fld : String × Value} {tl : List (String × Value)} {after : List Char}
    (cut : writableFields (fld :: tl) = false → after = []) :
    written lay d (.record (fld :: tl)) ++ after =
      '\x7b' :: ((lineBreak lay (d + 1)).toList ++ started lay (d + 1)
        ((lineBreak lay d).toList ++ '\x7d' :: after) (labelled (fld :: tl))) := by
  rw [written, write, toList_text_closed (fault_writeFields_eq_none lay (d + 1) tl) cut,
    toList_text_writeFields]
  simp [labelled, started, writtenKey]

theorem exists_started {fs : List (String × Value)} (can : writableFields fs = true) :
    ∃ pre, ∀ closing, started lay d closing (labelled fs) = pre ++ closing := by
  induction fs with
  | nil => exact ⟨[], fun _ => rfl⟩
  | cons fld tl ih =>
    rw [writableFields, Bool.and_eq_true] at can
    obtain ⟨pre, shape⟩ := ih can.2
    refine ⟨writtenKey fld.1 ++ (written lay d fld.2 ++
      (gap lay d (labelled tl) ++ pre)), fun closing => ?_⟩
    rw [labelled, List.map_cons, ← labelled, started, if_pos can.1, shape]
    simp only [List.append_assoc]

/-! ### Tuples and tables -/

theorem write_tuple (xs : List Value) : write lay d (.tuple xs) = write lay d (.list xs) := by
  cases xs <;> rw [write, write]

def named : List (Value × Value) → List (String × Value)
  | [] => []
  | (k, v) :: tl =>
    match keyText k with
    | .ok nm => (nm, v) :: named tl
    | .error _ => named tl

theorem exists_name_of_writableEntries {k v : Value} {tl : List (Value × Value)}
    (can : writableEntries ((k, v) :: tl) = true) :
    ∃ nm, keyText k = .ok nm ∧ writable v = true ∧ writableEntries tl = true := by
  rw [writableEntries, Bool.and_eq_true, Bool.and_eq_true] at can
  cases keyed : keyText k with
  | error err =>
    rw [keyed] at can
    exact absurd can.1.1 Bool.false_ne_true
  | ok nm => exact ⟨nm, rfl, can.1.2, can.2⟩

variable {es : List (Value × Value)}

theorem writableFields_named (can : writableEntries es = true) :
    writableFields (named es) = true := by
  induction es with
  | nil => rfl
  | cons e tl ih =>
    obtain ⟨nm, keyed, h1, others⟩ := exists_name_of_writableEntries can
    rw [named, keyed, writableFields, h1, ih others]
    rfl

theorem writeEntries_eq_writeFields (can : writableEntries es = true) :
    writeEntries lay d es = writeFields lay d (named es) := by
  induction es with
  | nil => rw [named, writeEntries, writeFields]
  | cons e tl ih =>
    obtain ⟨nm, keyed, _, others⟩ := exists_name_of_writableEntries can
    rw [named, writeEntries, keyed, writeFields, ih others]

theorem write_table (can : writableEntries es = true) :
    write lay d (.table es) = write lay d (.record (named es)) := by
  cases es with
  | nil => rw [named, write, write]
  | cons e tl =>
    obtain ⟨nm, keyed, _, others⟩ := exists_name_of_writableEntries can
    rw [named, write, keyed, write, writeEntries_eq_writeFields others]

theorem written_tuple (xs : List Value) : written lay d (.tuple xs) = written lay d (.list xs) := by
  rw [written, write_tuple, written]

theorem written_table (can : writableEntries es = true) :
    written lay d (.table es) = written lay d (.record (named es)) := by
  rw [written, write_table can, written]

/-- The fields in front of the first key that has no text. -/
def namedFront : List (Value × Value) → List (String × Value)
  | [] => []
  | (k, v) :: tl =>
    match keyText k with
    | .ok nm => (nm, v) :: namedFront tl
    | .error _ => []

theorem text_writeEntries (es : List (Value × Value)) :
    (writeEntries lay d es).text.toList =
      gap lay d (labelled (namedFront es)) ++ started lay d [] (labelled (namedFront es)) := by
  rw [← toList_text_writeFields, ite_self, List.append_nil]
  induction es with
  | nil => rw [writeEntries, namedFront, writeFields]
  | cons e tl ih =>
    rw [writeEntries, namedFront]
    cases keyText e.1 with
    | error err => simp [writeFields, Written.done]
    | ok nm =>
      dsimp only
      rw [toList_text_started, ih, writeFields, toList_text_started]

theorem written_table_of_not (cannot : writableEntries es = false) :
    written lay d (.table es) =
      '\x7b' :: ((lineBreak lay (d + 1)).toList ++
        started lay (d + 1) [] (labelled (namedFront es))) := by
  cases es with
  | nil => cases cannot
  | cons e tl =>
    rw [written, write, namedFront]
    rw [writableEntries] at cannot
    cases keyed : keyText e.1 with
    | error err => simp [labelled, started]
    | ok nm =>
      have unclosed : (writable e.2 && writableEntries tl) = false := by
        simpa [keyed, Except.toOption] using cannot
      dsimp only
      rw [← List.append_nil (Written.text _).toList,
        toList_text_closed (fault_writeEntries_eq_none lay (d + 1) tl) fun _ => rfl,
        text_writeEntries]
      cases h1 : writable e.2 with
      | false => simp [labelled, started, writtenKey, h1]
      | true =>
        rw [h1, Bool.true_and] at unclosed
        simp [labelled, started, writtenKey, h1, unclosed]

theorem namedFront_subset (es : List (Value × Value)) : namedFront es ⊆ named es := by
  induction es with
  | nil => exact List.Subset.refl []
  | cons e tl ih =>
    rw [namedFront, named]
    cases keyText e.1 with
    | ok nm => exact List.cons_subset_cons _ ih
    | error err => exact List.nil_subset _

end SourceAudit.Json
