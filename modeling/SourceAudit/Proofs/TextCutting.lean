import SourceAudit.Text.Search
import Mathlib.Data.List.Induction

/-!
# Cutting texts that are put together

A text is often put together from parts with a separator between them, and later cut at a word.
-/

open List Option

namespace SourceAudit.Text

variable {w pre tl t : List Char} {c : Char}

/-! ## Beginnings -/

theorem after?_append (word tl : List Char) : after? word (word ++ tl) = some tl := by
  induction word with
  | nil => rfl
  | cons w word ih => simp [after?, ih]

theorem endsWith_append (pre w : List Char) : endsWith w (pre ++ w) = true := by
  rw [endsWith, startsWith, reverse_append, after?_append]
  rfl

theorem after?_of_append (a b t : List Char) :
    after? (a ++ b) t = (after? a t).bind (after? b) := by
  induction a generalizing t with
  | nil => rfl
  | cons w a ih =>
    cases t with
    | nil => rfl
    | cons c t =>
      rw [cons_append, after?, after?]
      split_ifs
      · exact ih t
      · rfl

theorem after?_append_cons (hfor : c ∉ w) (hmiss : after? w pre = none) (tl : List Char) :
    after? w (pre ++ c :: tl) = none := by
  induction w generalizing pre with
  | nil => cases hmiss
  | cons a w ih =>
    cases pre with
    | nil => simp_all [after?, eq_comm]
    | cons d pre => grind [after?]

/-! ## The leftmost occurrence -/

theorem cut?_eq_none_of_notMem (hm : c ∈ w) (hfor : c ∉ t) : cut? w t = none := by
  rcases hf : cut? w t with _ | ⟨before, tl⟩
  · rfl
  · rw [cut?_eq_some hf] at hfor
    simp [hm] at hfor

theorem exists_cut?_append (pre w tl : List Char) :
    ∃ before behind, cut? w (pre ++ (w ++ tl)) = some (before, behind) ∧
      before.length ≤ pre.length := by
  induction pre with
  | nil =>
    cases shape : w ++ tl with
    | nil =>
      obtain ⟨rfl, rfl⟩ := append_eq_nil_iff.mp shape
      exact ⟨[], [], rfl, Nat.le_refl 0⟩
    | cons d others =>
      have hb := after?_append w tl
      rw [shape] at hb
      refine ⟨[], tl, ?_, Nat.le_refl 0⟩
      rw [nil_append, cut?, hb]
  | cons d pre ih =>
    obtain ⟨before, behind, hf, short⟩ := ih
    rw [cons_append, cut?]
    cases after? w (d :: (pre ++ (w ++ tl))) with
    | some rem => exact ⟨[], rem, rfl, Nat.zero_le _⟩
    | none =>
      rw [hf]
      exact ⟨d :: before, behind, rfl, Nat.succ_le_succ short⟩

theorem cut?_append (w tl : List Char) : cut? w (w ++ tl) = some ([], tl) := by
  obtain ⟨before, behind, hf, short⟩ := exists_cut?_append [] w tl
  obtain rfl := length_eq_zero_iff.mp (Nat.le_zero.mp short)
  have shape := cut?_eq_some hf
  rw [nil_append, nil_append] at shape
  rw [nil_append] at hf
  rw [hf, append_cancel_left shape]

theorem cut?_append_cons (hfor : c ∉ w) (hne : w ≠ [])
    (hmiss : cut? w pre = none) (tl : List Char) :
    cut? w (pre ++ c :: tl) =
      (cut? w tl).map fun parts => (pre ++ c :: parts.1, parts.2) := by
  induction pre with
  | nil =>
    have hb : after? w ([] ++ c :: tl) = none := by
      apply after?_append_cons hfor
      cases w with
      | nil => exact absurd rfl hne
      | cons a w => rfl
    rw [nil_append] at hb ⊢
    rw [cut?, hb]
    rfl
  | cons d pre ih =>
    rw [cut?] at hmiss
    cases hb : after? w (d :: pre) with
    | some rem =>
      rw [hb] at hmiss
      cases hmiss
    | none =>
      rw [hb, map_eq_none_iff] at hmiss
      have later := after?_append_cons hfor hb tl
      rw [cons_append] at later ⊢
      rw [cut?, later, ih hmiss, Option.map_map]
      rfl

theorem cut?_nil (hne : w ≠ []) : cut? w [] = none := by
  rw [cut?, if_neg (by rwa [List.isEmpty_iff])]

theorem cut?_append_of_found (hfor : c ∉ w) {before behind : List Char}
    (hf : cut? w t = some (before, behind)) (tl : List Char) :
    cut? w (t ++ c :: tl) = some (before, behind ++ c :: tl) := by
  induction t generalizing before with
  | nil =>
    cases w with
    | nil => cases hf; rfl
    | cons a w => cases hf
  | cons d t ih =>
    rw [cut?] at hf
    rw [cons_append, cut?, ← cons_append]
    cases hb : after? w (d :: t) with
    | some rem =>
      rw [hb] at hf
      cases hf
      rw [after?_eq_some hb, append_assoc, after?_append]
    | none =>
      rw [hb, map_eq_some_iff] at hf
      obtain ⟨⟨a, b⟩, inner, hs⟩ := hf
      cases hs
      rw [after?_append_cons hfor hb, ih inner]
      rfl

theorem cut?_concat (hfor : c ∉ w) (hne : w ≠ []) (t : List Char) :
    cut? w (t ++ [c]) = (cut? w t).map fun parts => (parts.1, parts.2 ++ [c]) := by
  rcases hf : cut? w t with _ | ⟨before, behind⟩
  · rw [cut?_append_cons hfor hne hf, cut?_nil hne]
    rfl
  · exact cut?_append_of_found hfor hf []

theorem replaceFirst_between {a last : Char} (opening : a ∉ w) (closing : last ∉ w)
    (hne : w ≠ []) (t : List Char) :
    replaceFirst w [] (a :: (t ++ [last])) = a :: (replaceFirst w [] t ++ [last]) := by
  have behind := cut?_append_cons opening hne (cut?_nil hne) (t ++ [last])
  rw [nil_append, cut?_concat closing hne] at behind
  rw [replaceFirst, replaceFirst, behind]
  cases cut? w t with
  | none => rfl
  | some parts => simp

theorem cut?_singleton (absent : c ∉ pre) (tl : List Char) :
    cut? [c] (pre ++ c :: tl) = some (pre, tl) := by
  induction pre with
  | nil => exact cut?_append [c] tl
  | cons d pre ih =>
    rw [mem_cons, not_or] at absent
    obtain ⟨ho, absent⟩ := absent
    rw [cons_append, cut?, after?, if_neg ho, ih absent]
    rfl

theorem cut?_ne_none (pre w tl : List Char) : cut? w (pre ++ (w ++ tl)) ≠ none := by
  obtain ⟨before, behind, hf, _⟩ := exists_cut?_append pre w tl
  simp [hf]

theorem not_isInfix_iff : ¬w <:+: t ↔ cut? w t = none := by
  constructor
  · intro absent
    by_contra hf
    obtain ⟨⟨before, tl⟩, cut⟩ := ne_none_iff_exists'.mp hf
    exact absent ⟨before, tl, (cut?_eq_some cut).symm⟩
  · rintro hmiss ⟨before, tl, rfl⟩
    rw [append_assoc] at hmiss
    exact cut?_ne_none before w tl hmiss

theorem occurs_eq_false_iff : occurs w t = false ↔ cut? w t = none := by
  rw [occurs, isSome_eq_false_iff, isNone_iff_eq_none]

theorem exists_of_occurs (hf : occurs w t = true) : ∃ before tl, t = before ++ (w ++ tl) := by
  obtain ⟨⟨before, tl⟩, cut⟩ := isSome_iff_exists.mp hf
  exact ⟨before, tl, by rw [cut?_eq_some cut, append_assoc]⟩

theorem occurs_append (ht : occurs w pre = true) (tl : List Char) :
    occurs w (pre ++ tl) = true := by
  obtain ⟨before, behind, rfl⟩ := exists_of_occurs ht
  rw [occurs, isSome_iff_ne_none, append_assoc, append_assoc]
  exact cut?_ne_none before w _

theorem occurs_append_cons (hfor : c ∉ w) (hne : w ≠ []) (pre tl : List Char) :
    occurs w (pre ++ c :: tl) = (occurs w pre || occurs w tl) := by
  rcases hmiss : cut? w pre with _ | ⟨before, behind⟩
  · simp [occurs, cut?_append_cons hfor hne hmiss, hmiss]
  · have ht : occurs w pre = true := by simp [occurs, hmiss]
    rw [ht, Bool.true_or, occurs_append ht]

theorem occurs_nil (hne : w ≠ []) : occurs w [] = false := by
  rw [occurs, cut?_nil hne]
  rfl

theorem occurs_cons_of_notMem (hfor : c ∉ w) (hne : w ≠ []) (tl : List Char) :
    occurs w (c :: tl) = occurs w tl := by
  rw [← nil_append (c :: tl), occurs_append_cons hfor hne, occurs_nil hne, Bool.false_or]

theorem occurs_eq_false_of_notMem (hm : c ∈ w) (hfor : c ∉ t) : occurs w t = false :=
  occurs_eq_false_iff.mpr (cut?_eq_none_of_notMem hm hfor)

/-! ## The part before a word -/

def upTo (w t : List Char) : List Char :=
  match cut? w t with
  | some parts => parts.1
  | none => t

theorem upTo_isPrefix (w t : List Char) : upTo w t <+: t := by
  rw [upTo]
  split
  · next parts hf =>
    obtain ⟨before, tl⟩ := parts
    rw [cut?_eq_some hf, append_assoc]
    exact prefix_append _ _
  · exact prefix_rfl

theorem upTo_append_cons (hfor : c ∉ w) (hne : w ≠ [])
    (hmiss : cut? w pre = none) (tl : List Char) :
    upTo w (pre ++ c :: tl) = pre ++ c :: upTo w tl := by
  rw [upTo, upTo, cut?_append_cons hfor hne hmiss]
  cases cut? w tl <;> rfl

theorem upTo_append (w tl : List Char) : upTo w (w ++ tl) = [] := by
  rw [upTo, cut?_append]

theorem length_upTo_le (pre w tl : List Char) :
    (upTo w (pre ++ (w ++ tl))).length ≤ pre.length := by
  obtain ⟨before, behind, hf, short⟩ := exists_cut?_append pre w tl
  rw [upTo, hf]
  exact short

/-! ## Pieces -/

theorem splitWalk_skip (width : Nat) (piece pre tl : List Char) :
    splitWalk w width pre.length piece (pre ++ tl) = splitWalk w width 0 piece tl := by
  induction pre with
  | nil => rfl
  | cons d pre ih => exact ih

theorem splitWalk_eq {a : Char} {others : List Char} (piece t : List Char) :
    splitWalk (a :: others) others.length 0 piece t =
      match cut? (a :: others) t with
      | some (before, tl) => (piece.reverse ++ before) :: splitOn (a :: others) tl
      | none => [piece.reverse ++ t] := by
  induction t generalizing piece with
  | nil => simp [splitWalk, cut?]
  | cons d t ih =>
    rw [splitWalk, cut?, startsWith]
    cases hb : after? (a :: others) (d :: t) with
    | some tl =>
      have shape := after?_eq_some hb
      rw [cons_append, List.cons.injEq] at shape
      rw [shape.2, isSome_some, if_pos rfl, splitWalk_skip]
      simp [splitOn]
    | none =>
      rw [isSome_none, if_neg Bool.false_ne_true, ih]
      rcases cut? (a :: others) t with _ | ⟨before, tl⟩ <;> simp

theorem splitOn_eq (hne : w ≠ []) (t : List Char) :
    splitOn w t =
      match cut? w t with
      | some (before, tl) => before :: splitOn w tl
      | none => [t] := by
  cases w with
  | nil => exact absurd rfl hne
  | cons a others => exact splitWalk_eq [] t

theorem splitOn_of_cut? (hne : w ≠ []) {before tl : List Char} (hf : cut? w t = some (before, tl)) :
    splitOn w t = before :: splitOn w tl := by
  rw [splitOn_eq hne, hf]

theorem splitOn_of_missing (hne : w ≠ []) (hmiss : cut? w t = none) : splitOn w t = [t] := by
  rw [splitOn_eq hne, hmiss]

theorem exists_splitOn (hne : w ≠ []) (t : List Char) :
    ∃ pieces, splitOn w t = upTo w t :: pieces := by
  rw [splitOn_eq hne, upTo]
  rcases cut? w t with _ | ⟨before, tl⟩
  · exact ⟨[], rfl⟩
  · exact ⟨splitOn w tl, rfl⟩

/-! ## Trimming -/

section

variable {drop : Char → Bool}

theorem trimRightWith_append_cons (kept : drop c = false) (pre tl : List Char) :
    trimRightWith drop (pre ++ c :: tl) = pre ++ c :: trimRightWith drop tl := by
  rw [trimRightWith, trimRightWith, reverse_append, reverse_cons, append_assoc,
    List.dropWhile_append]
  split_ifs with empty
  · rw [List.isEmpty_iff.mp empty]
    simp [kept]
  · simp

theorem trimWith_append {a last : Char} (opening : drop a = false)
    (closing : drop last = false) (before inner after : List Char) :
    trimWith drop (before ++ (a :: (inner ++ [last]) ++ after)) =
      trimLeftWith drop before ++ (a :: (inner ++ [last]) ++ trimRightWith drop after) := by
  have start : trimLeftWith drop (before ++ (a :: (inner ++ [last]) ++ after)) =
      trimLeftWith drop before ++ (a :: inner) ++ last :: after := by
    rw [trimLeftWith, List.dropWhile_append]
    split_ifs with empty
    · rw [trimLeftWith, List.isEmpty_iff.mp empty]
      simp [opening]
    · simp [trimLeftWith]
  rw [trimWith, start, trimRightWith_append_cons closing]
  simp

theorem occurs_trimRightWith (kept : (w.any drop) = false) (hne : w ≠ [])
    (t : List Char) : occurs w (trimRightWith drop t) = occurs w t := by
  induction t using List.reverseRecOn with
  | nil => rfl
  | append_singleton t c ih =>
    by_cases dropped : drop c = true
    · have hfor : c ∉ w := by
        intro hm
        exact absurd dropped (List.any_eq_false.mp kept c hm)
      have shorter : trimRightWith drop (t ++ [c]) = trimRightWith drop t := by
        simp [trimRightWith, dropped]
      rw [shorter, ih, occurs_append_cons hfor hne, occurs_nil hne, Bool.or_false]
    · rw [Bool.not_eq_true] at dropped
      rw [trimRightWith_append_cons dropped]
      rfl

end

theorem isBlank_of_isWord (word : isWord c = true) : isBlank c = false := by
  by_contra blank
  have hm : c.toNat ∈ List.range' 9 5 ++ List.range' 28 5 ++ List.range' 0x2000 11 ++
      [0x85, 0xA0, 0x1680, 0x2028, 0x2029, 0x202F, 0x205F, 0x3000] := by
    simp [isBlank] at blank ⊢
    omega
  have hfor : ∀ pt ∈ List.range' 9 5 ++ List.range' 28 5 ++ List.range' 0x2000 11 ++
      [0x85, 0xA0, 0x1680, 0x2028, 0x2029, 0x202F, 0x205F, 0x3000],
      isWord (Char.ofNat pt) = false := by
    decide +kernel
  have ho := hfor _ hm
  rw [Char.ofNat_toNat, word] at ho
  cases ho

theorem trim_cons_of_blank (blank : isBlank c = true) (t : List Char) : trim (c :: t) = trim t := by
  simp [trim, trimWith, trimLeftWith, blank]

theorem trim_cons_of_solid (solid : isBlank c = false) (t : List Char) :
    trim (c :: t) = c :: trimRightWith isBlank t := by
  rw [trim, trimWith, trimLeftWith, dropWhile_cons_of_neg (by simp [solid])]
  exact trimRightWith_append_cons solid [] t

theorem trim_concat_of_blank (blank : isBlank c = true) (t : List Char) :
    trim (t ++ [c]) = trim t := by
  rw [trim, trim, trimWith, trimWith, trimLeftWith, trimLeftWith, List.dropWhile_append]
  split_ifs with empty
  · rw [List.isEmpty_iff.mp empty]
    simp [blank]
  · simp [trimRightWith, blank]

theorem trim_eq_self (opening : ∀ c ∈ t.head?, isBlank c = false)
    (closing : ∀ c ∈ t.getLast?, isBlank c = false) : trim t = t := by
  cases t with
  | nil => rfl
  | cons c t =>
    rw [trim_cons_of_solid (opening c rfl)]
    rcases eq_nil_or_concat t with rfl | ⟨pre, last, rfl⟩
    · rfl
    · have solid : isBlank last = false :=
        closing last (by rw [concat_eq_append, ← cons_append, getLast?_concat]; rfl)
      rw [concat_eq_append, trimRightWith_append_cons solid]
      rfl

theorem mem_of_mem_trim (hm : c ∈ trim t) : c ∈ t :=
  (dropWhile_sublist isBlank).mem ((trimRightWith_isPrefix _).sublist.mem hm)

theorem length_trim_le (t : List Char) : (trim t).length ≤ t.length := by
  have left : (trimLeftWith isBlank t).length ≤ t.length := (dropWhile_suffix isBlank).length_le
  exact Nat.le_trans (trimRightWith_isPrefix _).length_le left

end SourceAudit.Text
