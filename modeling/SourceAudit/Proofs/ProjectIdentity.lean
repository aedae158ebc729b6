import Mathlib.Data.List.Sort
import Mathlib.Data.String.Basic
import SourceAudit.Project.Index
import SourceAudit.Proofs.SortedValues
import SourceAudit.Proofs.Utf8RoundTrip

/-!
# What the identity of a project tells

The identity is a hash of the paths and texts of the files, one behind the other in the order of the
paths and with nothing between them.  The order in which the files are found does not matter, but the
places where one text ends and the next begins are lost.
-/

open List

namespace SourceAudit.Project.Index

open Text.Utf8

/-- A finite map from the paths of files to their texts. -/
structure IsProject (files : List (String × String)) : Prop where
  distinct : (files.map Prod.fst).Nodup
  named : ∀ file ∈ files, file.1 ≠ ""

def ordered (files : List (String × String)) : List (String × String) :=
  files.mergeSort fun a b => decide (a.1 ≤ b.1)

def joined : List (String × String) → String
  | [] => ""
  | file :: tl => file.1 ++ file.2 ++ joined tl

/-- The paths and texts of a project as one text. -/
def identityText (files : List (String × String)) : String :=
  joined (ordered files)

variable {files other : List (String × String)}

theorem encode_joined (files : List (String × String)) :
    encode (joined files) = files.flatMap fun (p, code) => encode p ++ encode code := by
  induction files with
  | nil => simp [joined, encode_eq]
  | cons file tl ih => rw [joined, encode_append, encode_append, ih, flatMap_cons]

theorem identityBytes_eq_iff :
    identityBytes other = identityBytes files ↔ identityText other = identityText files := by
  have bytes (files : List (String × String)) : identityBytes files = encode (identityText files) :=
    (encode_joined _).symm
  rw [bytes, bytes]
  refine ⟨fun hs => ?_, congrArg encode⟩
  have decoded := congrArg decode hs
  rwa [decode_encode, decode_encode, Except.ok.injEq] at decoded

/-! ## The order of the files -/

theorem ordered_perm (files : List (String × String)) : (ordered files).Perm files :=
  mergeSort_perm files _

theorem ordered_eq_of_perm (hdis : (files.map Prod.fst).Nodup) (hs : files.Perm other) :
    ordered other = ordered files := by
  have alike : (ordered other).Perm (ordered files) :=
    (ordered_perm other).trans (hs.symm.trans (ordered_perm files).symm)
  refine alike.eq_of_pairwise (fun a b one two below above => ?_)
    (Sorting.pairwise_mergeSort_key Prod.fst other) (Sorting.pairwise_mergeSort_key Prod.fst files)
  exact inj_on_of_nodup_map hdis
    ((ordered_perm files).mem_iff.mp (alike.mem_iff.mp one)) ((ordered_perm files).mem_iff.mp two)
    (le_antisymm below above)

/-! ## Texts that can be cut in one way only -/

theorem eq_of_joined_short (hn : ∀ file ∈ files, file.1 ≠ "") (short : (joined files).length ≤ 1) :
    files = if joined files = "" then [] else [(joined files, "")] := by
  cases files with
  | nil => rfl
  | cons file tl =>
    have path : file.1.length ≠ 0 := by
      rw [Ne, String.length_eq_zero_iff]
      exact hn file mem_cons_self
    have sizes : (joined (file :: tl)).length =
        file.1.length + file.2.length + (joined tl).length := by
      simp [joined, String.length_append]
    have code : file.2 = "" := String.length_eq_zero_iff.mp (by omega)
    have none : joined tl = "" := String.length_eq_zero_iff.mp (by omega)
    have last : tl = [] := by
      cases tl with
      | nil => rfl
      | cons next tl =>
        have path := hn next (by simp)
        simp [joined] at none
        exact absurd none.1.1 path
    subst last
    simp [joined, code, hn file mem_cons_self]
    rw [← code]

theorem ordered_eq_of_short (project : IsProject files) (short : (identityText files).length ≤ 1) :
    ordered files = if identityText files = "" then [] else [(identityText files, "")] :=
  eq_of_joined_short (fun file hl => project.named file ((ordered_perm files).mem_iff.mp hl)) short

theorem identityText_single (p code : String) : identityText [(p, code)] = p ++ code := by
  simp [identityText, ordered, joined]

theorem isProject_single {p : String} (hn : p ≠ "") (code : String) : IsProject [(p, code)] :=
  ⟨by simp, by simpa using hn⟩

theorem exists_cut {t : String} (long : 2 ≤ t.length) :
    ∃ p code, p ++ code = t ∧ p ≠ "" ∧ code ≠ "" := by
  rw [← String.length_toList] at long
  rcases parts : t.toList with _ | ⟨a, _ | ⟨b, tl⟩⟩
  · simp [parts] at long
  · simp [parts] at long
  · refine ⟨String.ofList [a], String.ofList (b :: tl), ?_, by simp, by simp⟩
    rw [← String.ofList_append, singleton_append, ← parts, String.ofList_toList]

/-- Any text that can be cut is the text of two projects. -/
theorem exists_other (long : 2 ≤ (identityText files).length) :
    ∃ other, IsProject other ∧ ¬ other.Perm files ∧ identityText other = identityText files := by
  obtain ⟨p, code, whole, hn, hfl⟩ := exists_cut long
  by_cases hs : [(p, code)].Perm files
  · refine ⟨[(p ++ code, "")], isProject_single (by simp [hn]) _, fun alike => ?_, ?_⟩
    · have cut := alike.trans hs.symm
      simp [hfl] at cut
    · rw [identityText_single, String.append_empty, whole]
  · exact ⟨[(p, code)], isProject_single hn _, hs, by rw [identityText_single, whole]⟩

/-- The bytes under the identity do not depend on the order of the files.  They are equal for two
projects if their texts, put together, are; so they tell a project from all others only if it has at
most one character. -/
theorem identity_separates_iff_short (project : IsProject files) :
    (∀ other, files.Perm other → identityBytes other = identityBytes files) ∧
      (∀ other, identityBytes other = identityBytes files ↔ identityText other = identityText files) ∧
        ((∀ other, IsProject other → identityBytes other = identityBytes files → other.Perm files) ↔
          (identityText files).length ≤ 1) ∧ (2 ≤ (identityText files).length →
            ∃ other, IsProject other ∧ ¬ other.Perm files ∧ identity other = identity files) := by
  have others (long : 2 ≤ (identityText files).length) : ∃ other, IsProject other ∧
      ¬ other.Perm files ∧ identityBytes other = identityBytes files := by
    obtain ⟨other, fine, different, same⟩ := exists_other long
    exact ⟨other, fine, different, identityBytes_eq_iff.mpr same⟩
  refine ⟨fun other same => ?_, fun other => identityBytes_eq_iff, ⟨fun separate => ?_,
    fun short other fine same => ?_⟩, fun long => ?_⟩
  · rw [identityBytes_eq_iff, identityText, ordered_eq_of_perm project.distinct same, identityText]
  · by_contra long
    obtain ⟨other, fine, different, same⟩ := others (by omega)
    exact different (separate other fine same)
  · rw [identityBytes_eq_iff] at same
    have alike : ordered other = ordered files := by
      rw [ordered_eq_of_short project short, ordered_eq_of_short fine (same ▸ short), same]
    exact (ordered_perm other).symm.trans (alike ▸ ordered_perm files)
  · obtain ⟨other, fine, different, same⟩ := others long
    exact ⟨other, fine, different, by rw [identity, same, identity]⟩

/-- The file `a` with text `bc` has another project's identity. -/
theorem identity_separates_iff_short_of_cut :
    ∃ other, IsProject other ∧ ¬ other.Perm [("a", "bc")] ∧ identity other = identity [("a", "bc")] :=
  (identity_separates_iff_short (isProject_single (by decide) _)).2.2.2
    (by rw [identityText_single]; decide)

end SourceAudit.Project.Index
