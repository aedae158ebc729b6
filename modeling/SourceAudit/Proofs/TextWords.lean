import SourceAudit.Proofs.TextCutting
import Mathlib

/-!
# Words and removals

The words of a text stand between its blanks. A word that is removed from a text everywhere leaves
the characters that are none of its own where they were.
-/

open List

namespace SourceAudit.Text

variable {w pre tl t : List Char} {c : Char}

def Solid (t : List Char) : Prop :=
  ∀ c ∈ t, isBlank c = false

instance : Decidable (Solid t) := decidableBAll (fun c => isBlank c = false) t

theorem Solid.takeWhile_append (solid : Solid pre) (blank : isBlank c = true) :
    (pre ++ c :: tl).takeWhile (!isBlank ·) = pre := by
  rw [takeWhile_append_of_pos fun c hm => by simp [solid c hm],
    takeWhile_cons_of_neg (by simp [blank]), append_nil]

theorem Solid.eq_of_append_cons {other behind : List Char} {d : Char} (solid : Solid pre)
    (otherSolid : Solid other) (blank : isBlank c = true) (otherBlank : isBlank d = true)
    (hs : pre ++ c :: tl = other ++ d :: behind) : pre = other := by
  rw [← solid.takeWhile_append blank, hs, otherSolid.takeWhile_append otherBlank]

/-! ## Words -/

theorem wordsFrom_append_cons (blank : isBlank c = true) (begun pre tl : List Char) :
    wordsFrom begun (pre ++ c :: tl) = wordsFrom begun pre ++ words tl := by
  induction pre generalizing begun with
  | nil =>
    simp only [nil_append, wordsFrom, blank, if_true]
    split_ifs <;> rfl
  | cons d pre ih =>
    rw [cons_append, wordsFrom, wordsFrom]
    split_ifs with other empty
    · exact ih []
    · rw [ih, cons_append]
    · exact ih (d :: begun)

theorem words_append_cons (blank : isBlank c = true) (pre tl : List Char) :
    words (pre ++ c :: tl) = words pre ++ words tl :=
  wordsFrom_append_cons blank [] pre tl

theorem words_cons_blank (blank : isBlank c = true) (tl : List Char) : words (c :: tl) = words tl :=
  words_append_cons blank [] tl

theorem wordsFrom_of_ne_nil {begun : List Char} (hne : begun ≠ []) (t : List Char) :
    wordsFrom begun t = (begun.reverse ++ t.takeWhile (!isBlank ·)) ::
      words (t.dropWhile (!isBlank ·)) := by
  induction t generalizing begun with
  | nil => simp [wordsFrom, words, hne]
  | cons d t ih =>
    rw [wordsFrom]
    split_ifs with blank empty
    · exact absurd (List.isEmpty_iff.mp empty) hne
    · simp only [takeWhile_cons, dropWhile_cons, blank, Bool.not_true,
        Bool.false_eq_true, if_false, append_nil, words_cons_blank]
      rfl
    · rw [ih (cons_ne_nil d begun)]
      simp [blank]

theorem words_append (hne : pre ≠ []) (solid : Solid pre) (tl : List Char) :
    words (pre ++ tl) = (pre ++ tl.takeWhile (!isBlank ·)) ::
      words (tl.dropWhile (!isBlank ·)) := by
  obtain ⟨d, pre, rfl⟩ := exists_cons_of_ne_nil hne
  have visible : isBlank d = false := solid d mem_cons_self
  have others : ∀ c ∈ pre, (!isBlank c) = true := fun c hm => by
    simp [solid c (mem_cons_of_mem d hm)]
  rw [cons_append, words, wordsFrom, if_neg (by simp [visible]),
    wordsFrom_of_ne_nil (cons_ne_nil d []), takeWhile_append_of_pos others,
    dropWhile_append_of_pos others]
  rfl

theorem words_solid (hne : t ≠ []) (solid : Solid t) : words t = [t] := by
  simpa [words, wordsFrom] using words_append hne solid []

/-! ## Blanks around a text -/

theorem apply_indent {α : Type} {f : List Char → α} {indent : List Char}
    (before : ∀ c t, isBlank c = true → f (c :: t) = f t)
    (blank : ∀ c ∈ indent, isBlank c = true) (t : List Char) : f (indent ++ t) = f t := by
  induction indent with
  | nil => rfl
  | cons c indent ih =>
    rw [forall_mem_cons] at blank
    rw [cons_append, before c _ blank.1]
    exact ih blank.2

theorem apply_trim {α : Type} {f : List Char → α}
    (before : ∀ c t, isBlank c = true → f (c :: t) = f t)
    (behind : ∀ c t, isBlank c = true → f (t ++ [c]) = f t) (t : List Char) : f (trim t) = f t := by
  have left : f (trimLeftWith isBlank t) = f t := by
    have blank : ∀ c ∈ t.takeWhile isBlank, isBlank c = true := fun _ => mem_takeWhile_imp
    have whole := apply_indent before blank (t.dropWhile isBlank)
    rw [takeWhile_append_dropWhile] at whole
    exact whole.symm
  rw [trim, trimWith, ← left]
  generalize trimLeftWith isBlank t = t
  induction t using List.reverseRecOn with
  | nil => rfl
  | append_singleton t c ih =>
    by_cases blank : isBlank c = true
    · have shorter : trimRightWith isBlank (t ++ [c]) = trimRightWith isBlank t := by
        simp [trimRightWith, blank]
      rw [shorter, behind c t blank]
      exact ih
    · rw [trimRightWith_append_cons (by simpa using blank)]
      rfl

theorem words_trim (t : List Char) : words (trim t) = words t :=
  apply_trim (fun _ t blank => words_cons_blank blank t)
    (fun _ t blank => (words_append_cons blank t []).trans (append_nil _)) t

/-! ## Removals -/

def remove (w t : List Char) : List Char :=
  replace w [] t

theorem remove_of_missing (hne : w ≠ []) (hmiss : cut? w t = none) : remove w t = t := by
  simp [remove, replace, join, splitOn_of_missing hne hmiss]

theorem remove_of_cut? (hne : w ≠ []) {before : List Char} (hf : cut? w t = some (before, tl)) :
    remove w t = before ++ remove w tl := by
  obtain ⟨pieces, split⟩ := exists_splitOn hne tl
  rw [remove, remove, replace, replace, join, join, splitOn_of_cut? hne hf, split]
  rfl

theorem remove_sublist (hne : w ≠ []) (t : List Char) : (remove w t).Sublist t := by
  rcases hf : cut? w t with _ | ⟨before, tl⟩
  · simp only [remove_of_missing hne hf, List.Sublist.refl]
  · have shorter := cut?_length hf
    have hpos := length_pos_iff.mpr hne
    rw [remove_of_cut? hne hf, cut?_eq_some hf, append_assoc]
    exact (List.Sublist.refl before).append
      ((remove_sublist hne tl).trans (sublist_append_right w tl))
termination_by t.length

theorem remove_eq_self_iff (hne : w ≠ []) : remove w t = t ↔ occurs w t = false := by
  rw [occurs_eq_false_iff]
  refine ⟨fun hs => ?_, remove_of_missing hne⟩
  rcases hf : cut? w t with _ | ⟨before, tl⟩
  · rfl
  · have shorter := cut?_length hf
    have fewer := (remove_sublist hne tl).length_le
    have hpos := length_pos_iff.mpr hne
    rw [← hs, remove_of_cut? hne hf, length_append] at shorter
    omega

theorem remove_append_cons (hfor : c ∉ w) (hne : w ≠ []) (pre tl : List Char) :
    remove w (pre ++ c :: tl) = remove w pre ++ c :: remove w tl := by
  rcases hf : cut? w pre with _ | ⟨before, behind⟩
  · have later := cut?_append_cons hfor hne hf tl
    rw [remove_of_missing hne hf]
    rcases hmiss : cut? w tl with _ | ⟨a, b⟩
    · rw [remove_of_missing hne (by rw [later, hmiss]; rfl),
        remove_of_missing hne hmiss]
    · rw [hmiss] at later
      rw [remove_of_cut? hne later, remove_of_cut? hne hmiss, append_assoc, cons_append]
  · have shorter := cut?_length hf
    have hpos := length_pos_iff.mpr hne
    rw [remove_of_cut? hne hf, remove_of_cut? hne (cut?_append_of_found hfor hf tl),
      remove_append_cons hfor hne behind tl, append_assoc]
termination_by pre.length

end SourceAudit.Text
