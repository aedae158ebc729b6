import SourceAudit.Page.Markup
import SourceAudit.Proofs.TextCutting
import Mathlib

/-!
# Special characters as entities

Escaping takes five passes over a text, one for each special character. A later pass meets the
entities that the earlier ones wrote, so the order decides: the ampersand, which begins every entity,
comes first.
-/

open List

namespace SourceAudit.Text

/-! ## One character replaced -/

theorem join_splitWalk (c : Char) (image piece t : List Char) :
    join image (splitWalk [c] 0 0 piece t) =
      piece.reverse ++ t.flatMap fun d => if d = c then image else [d] := by
  induction t generalizing piece with
  | nil => simp [splitWalk, join]
  | cons d t ih =>
    rw [splitWalk, startsWith, after?, flatMap_cons]
    by_cases hs : d = c
    · obtain ⟨pieces, split⟩ := exists_splitOn (cons_ne_nil c []) t
      have longer : join image (piece.reverse :: splitWalk [c] 0 0 [] t) =
          piece.reverse ++ (image ++ join image (splitWalk [c] 0 0 [] t)) := by
        change splitWalk [c] 0 0 [] t = _ at split
        simp [split, join]
      simp [hs, after?, longer, ih]
    · simp [hs, Ne.symm hs, ih]

theorem replace_singleton (c : Char) (image t : List Char) :
    replace [c] image t = t.flatMap fun d => if d = c then image else [d] :=
  join_splitWalk c image [] t

end SourceAudit.Text

namespace SourceAudit.Page.Markup

/-! ## Coding and decoding -/

def coded (c : Char) : List Char :=
  ((entities.lookup c).map String.toList).getD [c]

def entityAt? (t : List Char) : Option (Char × String) :=
  entities.find? fun e => Text.startsWith e.2.toList t

def decodedFrom : (skip : Nat) → List Char → List Char
  | _, [] => []
  | skip + 1, _ :: t => decodedFrom skip t
  | 0, c :: t =>
    match entityAt? (c :: t) with
    | some (special, entity) => special :: decodedFrom (entity.length - 1) t
    | none => c :: decodedFrom 0 t

def decoded (t : String) : String :=
  String.ofList (decodedFrom 0 t.toList)

/--
A property of a character and its code holds of all characters if it holds of the five special ones
with their entities and of every other one with itself.
-/
theorem coded_induction {motive : Char → List Char → Prop}
    (special : ∀ entry ∈ entities, motive entry.1 entry.2.toList)
    (plain : ∀ c, (∀ entry ∈ entities, c ≠ entry.1) → motive c [c]) (c : Char) :
    motive c (coded c) := by
  by_cases among : ∃ entry ∈ entities, c = entry.1
  · obtain ⟨entry, member, rfl⟩ := among
    have same : coded entry.1 = entry.2.toList := by
      revert entry
      decide
    exact same ▸ special entry member
  · have other : ∀ entry ∈ entities, c ≠ entry.1 := fun entry member same =>
      among ⟨entry, member, same⟩
    have missing : entities.lookup c = none :=
      lookup_eq_none_iff.mpr fun entry member => bne_iff_ne.mpr (other entry member)
    rw [coded, missing]
    exact plain c other

theorem toList_escape (t : String) : (escape t).toList = t.toList.flatMap coded := by
  -- Every pass maps the characters one by one, so all passes together do.
  simp only [escape, entities, foldl_cons, foldl_nil, Str.replace, String.toList_ofList,
    String.toList_singleton, Text.replace_singleton, flatMap_assoc]
  refine congrArg (t.toList.flatMap ·) (funext fun c => ?_)
  induction c using coded_induction with
  | special e hm =>
    revert e
    decide
  | plain c ho =>
    simp only [entities, forall_mem_cons] at ho
    simp [ho]

/-! ## Entities in coded texts -/

theorem exists_spelling : ∀ e ∈ entities, ∃ others, e.2.toList = '&' :: others ∧ '&' ∉ others := by
  simp [entities]

theorem decodedFrom_coded (c : Char) (tl : List Char) :
    decodedFrom 0 (coded c ++ tl) = c :: decodedFrom 0 tl := by
  induction c using coded_induction with
  | special e hm =>
    simp only [entities, mem_cons, not_mem_nil, or_false] at hm
    rcases hm with rfl | rfl | rfl | rfl | rfl <;> rfl
  | plain c ho =>
    have hmiss : entityAt? (c :: tl) = none := by
      refine find?_eq_none.mpr fun e hm => ?_
      have ampersand : c ≠ '&' := ho ('&', "&amp;") mem_cons_self
      obtain ⟨others, spelled, _⟩ := exists_spelling e hm
      simp [spelled, Text.startsWith, Text.after?, Ne.symm ampersand]
    rw [singleton_append, decodedFrom, hmiss]

theorem decodedFrom_flatMap (t : List Char) : decodedFrom 0 (t.flatMap coded) = t := by
  induction t with
  | nil => rfl
  | cons c t ih => rw [flatMap_cons, decodedFrom_coded, ih]

/-- In the code of a character an ampersand stands at the front only, where an entity begins. -/
theorem entity_of_coded {c : Char} {pre tl : List Char} (hh : coded c = pre ++ '&' :: tl) :
    pre = [] ∧ ∃ e ∈ entities, e.2.toList = '&' :: tl := by
  induction c using coded_induction with
  | special e hm =>
    obtain ⟨others, spelled, single⟩ := exists_spelling e hm
    cases pre with
    | nil => exact ⟨rfl, e, hm, hh⟩
    | cons d pre =>
      rw [spelled, cons_append] at hh
      exact absurd (List.cons.inj hh).2 fun hs => single (by simp [hs])
  | plain c ho =>
    have ampersand : c ≠ '&' := ho ('&', "&amp;") mem_cons_self
    cases pre with
    | nil => exact absurd (List.cons.inj hh).1 ampersand
    | cons d pre => simp at hh

theorem plain_of_mem_coded (c : Char) : ∀ d ∈ coded c, d ∉ ['<', '>', '\x22', '\x27'] := by
  induction c using coded_induction with
  | special e hm =>
    have all : entities.all (·.2.toList.all (· ∉ ['<', '>', '\x22', '\x27'])) = true := by decide
    simpa using all_eq_true.mp (all_eq_true.mp all e hm)
  | plain c ho =>
    simp only [entities, forall_mem_cons] at ho
    simp [ho]

theorem entity_of_flatMap {t pre tl : List Char} (hh : t.flatMap coded = pre ++ '&' :: tl) :
    ∃ e ∈ entities, e.2.toList <+: '&' :: tl := by
  induction t generalizing pre with
  | nil => simp at hh
  | cons c t ih =>
    rw [flatMap_cons, append_eq_append_iff] at hh
    rcases hh with ⟨pre, rfl, later⟩ | ⟨behind, hi, later⟩
    · exact ih later
    · cases behind with
      | nil =>
        have begins : t.flatMap coded = [] ++ '&' :: tl := later.symm
        exact ih begins
      | cons d behind =>
        obtain ⟨rfl, rfl⟩ := List.cons.inj later
        obtain ⟨_, e, hm, spelled⟩ := entity_of_coded hi
        exact ⟨e, hm, spelled ▸ prefix_append _ _⟩

/--
Escaping maps every character to its code.  So it respects concatenation, no special character but
the ampersand is left, every ampersand begins an entity, and decoding gives the text back.
-/
theorem escape_codes_characters (text other : String) :
    escape text = String.ofList (text.toList.flatMap coded) ∧
      escape (text ++ other) = escape text ++ escape other ∧
        (∀ c ∈ (escape text).toList, c ∉ ['<', '>', '\x22', '\x27']) ∧
          (∀ front rest, (escape text).toList = front ++ '&' :: rest →
            ∃ entry ∈ entities, entry.2.toList <+: '&' :: rest) ∧
            decoded (escape text) = text := by
  refine ⟨?_, ?_, ?_, ?_, ?_⟩
  · rw [← toList_escape, String.ofList_toList]
  · rw [← String.toList_inj, String.toList_append]
    simp only [toList_escape, String.toList_append, flatMap_append]
  · rw [toList_escape]
    intro c member
    obtain ⟨d, _, inside⟩ := mem_flatMap.mp member
    exact plain_of_mem_coded d c inside
  · intro front rest here
    exact entity_of_flatMap (toList_escape text ▸ here)
  · rw [decoded, toList_escape, decodedFrom_flatMap, String.ofList_toList]

end SourceAudit.Page.Markup
