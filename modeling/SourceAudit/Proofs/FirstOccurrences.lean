import Mathlib.Data.List.Nodup

/-!
# First occurrences

Lists of threats and of observations are kept free of repetitions by their keys: an item is taken
over when its key was not met before.
-/

open List

namespace SourceAudit

variable {α κ : Type} (k : α → κ) (same : κ → κ → Bool)

def firstsBy (known : List κ) : List α → List α
  | [] => []
  | x :: tl =>
    (if known.any (same (k x)) then [] else [x]) ++ firstsBy (known ++ [k x]) tl

variable {k same} {known others : List κ} {x : α} {xs : List α}

theorem firstsBy_sublist : (firstsBy k same known xs).Sublist xs := by
  induction xs generalizing known with
  | nil => exact .slnil
  | cons x tl ih =>
    rw [firstsBy]
    split
    · exact .cons x ih
    · exact .cons_cons x ih

theorem firstsBy_append {more : List α} :
    firstsBy k same known (xs ++ more) =
      firstsBy k same known xs ++ firstsBy k same (known ++ xs.map k) more := by
  induction xs generalizing known with
  | nil => simp [firstsBy]
  | cons x tl ih => simp [firstsBy, ih]

theorem firstsBy_congr (alike : ∀ x ∈ xs, known.any (same (k x)) = others.any (same (k x))) :
    firstsBy k same known xs = firstsBy k same others xs := by
  induction xs generalizing known others with
  | nil => rfl
  | cons x tl ih =>
    obtain ⟨hh, behind⟩ := forall_mem_cons.mp alike
    rw [firstsBy, firstsBy, hh]
    refine congrArg _ (ih fun other hl => ?_)
    rw [any_append, any_append, behind other hl]

theorem firstsBy_new :
    (∀ x ∈ firstsBy k same known xs, known.any (same (k x)) = false) ∧
      (firstsBy k same known xs).Pairwise fun earlier later =>
        same (k later) (k earlier) = false := by
  induction xs generalizing known with
  | nil => simp [firstsBy]
  | cons x tl ih =>
    obtain ⟨unknown, hdis⟩ := @ih (known ++ [k x])
    simp only [any_append, Bool.or_eq_false_iff] at unknown
    rw [firstsBy]
    split
    · exact ⟨fun later hl => (unknown later hl).1, hdis⟩
    · next new =>
        refine ⟨forall_mem_cons.mpr ⟨Bool.not_eq_true _ ▸ new,
          fun later hl => (unknown later hl).1⟩, pairwise_cons.mpr ⟨?_, hdis⟩⟩
        intro later hl
        simpa using (unknown later hl).2

section Equality

variable (trans : ∀ x mid last, same (k x) mid = true → same mid last = true →
  same (k x) last = true)

include trans

theorem any_concat_of_any (ht : known.any (same (k x)) = true) (other : α) :
    (known ++ [k x]).any (same (k other)) = known.any (same (k other)) := by
  obtain ⟨mid, hl, equal⟩ := any_eq_true.mp ht
  rw [any_append, Bool.eq_iff_iff, Bool.or_eq_true, or_iff_left_iff_imp, any_cons,
    any_nil, Bool.or_false]
  exact fun last => any_eq_true.mpr ⟨mid, hl, trans other _ _ last equal⟩

theorem firstsBy_cons_of_any (ht : known.any (same (k x)) = true) :
    firstsBy k same known (x :: xs) = firstsBy k same known xs := by
  rw [firstsBy, if_pos ht, nil_append]
  exact firstsBy_congr fun other _ => any_concat_of_any trans ht other

theorem firstsBy_eq_nil (all : ∀ x ∈ xs, known.any (same (k x)) = true) :
    firstsBy k same known xs = [] := by
  induction xs with
  | nil => rfl
  | cons x tl ih =>
    obtain ⟨hh, behind⟩ := forall_mem_cons.mp all
    rw [firstsBy_cons_of_any trans hh, ih behind]

theorem any_firstsBy (other : α) :
    (known ++ (firstsBy k same known xs).map k).any (same (k other)) =
      (known ++ xs.map k).any (same (k other)) := by
  induction xs generalizing known with
  | nil => simp [firstsBy]
  | cons x tl ih =>
    by_cases ht : known.any (same (k x)) = true
    · rw [firstsBy_cons_of_any trans ht, ih, map_cons, append_cons,
        any_append, any_append, any_concat_of_any trans ht]
    · have continued := @ih (known ++ [k x])
      rw [append_assoc, append_assoc] at continued
      rw [firstsBy, if_neg ht]
      exact continued

theorem firstsBy_firstsBy (before : List κ) :
    firstsBy k same (before ++ known) (firstsBy k same known xs) =
      firstsBy k same (before ++ known) xs := by
  induction xs generalizing known with
  | nil => rfl
  | cons x tl ih =>
    by_cases ht : known.any (same (k x)) = true
    · have also : (before ++ known).any (same (k x)) = true := by
        rw [any_append, ht, Bool.or_true]
      rw [firstsBy_cons_of_any trans also, ← ih, firstsBy_cons_of_any trans ht]
    · have continued := @ih (known ++ [k x])
      rw [← append_assoc] at continued
      rw [firstsBy, if_neg ht, singleton_append, firstsBy, firstsBy, continued]

end Equality

/-! ## Keys with an equality -/

section Keys

variable [DecidableEq κ]

def equalKeys (one other : κ) : Bool :=
  decide (one = other)

def firstOfEach (k : α → κ) (known : List κ) (xs : List α) : List α :=
  firstsBy k equalKeys known xs

structure OncePer (key : α → κ) (items kept : List α) : Prop where
  first : kept = firstOfEach key [] items
  ordered : kept.Sublist items
  distinct : (kept.map key).Nodup
  complete : ∀ value, value ∈ kept.map key ↔ value ∈ items.map key

theorem equalKeys_trans (x : α) (mid last : κ) (begins : equalKeys (k x) mid = true)
    (ends : equalKeys mid last = true) : equalKeys (k x) last = true :=
  decide_eq_true ((of_decide_eq_true begins).trans (of_decide_eq_true ends))

theorem any_equalKeys {v : κ} : known.any (equalKeys v) = true ↔ v ∈ known := by
  simp [equalKeys]

theorem oncePer_firstOfEach : OncePer k xs (firstOfEach k [] xs) where
  first := rfl
  ordered := firstsBy_sublist
  distinct := by
    rw [List.Nodup, pairwise_map]
    refine List.Pairwise.imp (fun differ hs => ?_) firstsBy_new.2
    exact of_decide_eq_false differ hs.symm
  complete v := by
    refine ⟨fun hl => (firstsBy_sublist.map k).subset hl, fun hl => ?_⟩
    obtain ⟨x, _, rfl⟩ := mem_map.mp hl
    rw [← any_equalKeys, ← nil_append (List.map k _)] at hl ⊢
    rwa [firstOfEach, any_firstsBy equalKeys_trans]

theorem firstOfEach_append (past more : List α) :
    firstOfEach k [] (past ++ more) = firstOfEach k [] past ++
      firstOfEach k ((firstOfEach k [] past).map k) more := by
  refine firstsBy_append.trans (congrArg _ (firstsBy_congr fun x _ => ?_))
  exact (any_firstsBy equalKeys_trans x).symm

theorem firstOfEach_concat (past : List α) (x : α) :
    firstOfEach k [] (past ++ [x]) =
      if k x ∈ past.map k then firstOfEach k [] past
      else firstOfEach k [] past ++ [x] := by
  rw [firstOfEach, firstsBy_append, firstsBy, firstsBy, nil_append, append_nil]
  by_cases hk : k x ∈ past.map k
  · rw [if_pos (any_equalKeys.mpr hk), if_pos hk, append_nil]
    rfl
  · rw [if_neg (mt any_equalKeys.mp hk), if_neg hk]
    rfl

theorem foldl_firstOfEach {σ ρ : Type} (k : α → κ) (known : List κ) (image : ρ → Option α)
    (note : σ → ρ → σ) (put : List α → σ)
    (step : ∀ taken raw, note (put taken) raw = match image raw with
      | none => put taken
      | some x =>
        if k x ∈ known ++ taken.map k then put taken else put (taken ++ [x]))
    (raws : List ρ) (taken : List α) :
    raws.foldl note (put taken) =
      put (taken ++ firstOfEach k (known ++ taken.map k) (raws.filterMap image)) := by
  induction raws generalizing taken with
  | nil => simp [firstOfEach, firstsBy]
  | cons raw tl ih =>
    rw [foldl_cons, step]
    cases shown : image raw with
    | none => rw [filterMap_cons_none shown, ih]
    | some x =>
      rw [filterMap_cons_some shown, firstOfEach]
      dsimp only
      by_cases ht : k x ∈ known ++ taken.map k
      · rw [firstsBy_cons_of_any equalKeys_trans (any_equalKeys.mpr ht), if_pos ht, ih]
        rfl
      · rw [firstsBy, if_neg (mt any_equalKeys.mp ht), if_neg ht, ih]
        simp [firstOfEach]

end Keys

end SourceAudit
