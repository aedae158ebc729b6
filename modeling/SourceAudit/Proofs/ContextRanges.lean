import Mathlib.Algebra.Order.Group.Abs
import Mathlib.Algebra.Order.Group.Int
import SourceAudit.Page.LineRange
import SourceAudit.Proofs.SortedValues

/-!
# Ranges around lines

Ranges that come in the order of their first lines are joined from the front: a range that touches
the current one extends it, and any other range becomes the current one.
-/

open List

namespace SourceAudit.Page.LineRange

def Holds (range : LineRange) (ln : Int) : Prop :=
  range.first ≤ ln ∧ ln ≤ range.last

def Precedes (range other : LineRange) : Prop :=
  range.first ≤ other.first ∧ range.last + 1 < other.first

def Within (total : Int) (range : LineRange) : Prop :=
  1 ≤ range.first ∧ range.first ≤ range.last ∧ range.last ≤ total

def Rising (ranges : List LineRange) : Prop :=
  ranges.Pairwise fun range other => range.first ≤ other.first

variable {cur : LineRange}

theorem holds_joined {range : LineRange} (order : cur.first ≤ range.first)
    (touches : range.isApart cur = false) (ln : Int) :
    Holds { cur with last := max cur.last range.last } ln ↔ cur.Holds ln ∨ range.Holds ln := by
  rw [isApart, decide_eq_false_iff_not] at touches
  simp only [Holds]
  omega

theorem Rising.joined {range : LineRange} {tl : List LineRange}
    (rising : Rising (cur :: range :: tl)) (last : Int) : Rising ({ cur with last } :: tl) :=
  let parts := pairwise_cons.mp rising
  pairwise_cons.mpr ⟨fun other hl => parts.1 other (.tail _ hl), (pairwise_cons.mp parts.2).2⟩

variable {ranges : List LineRange}

theorem holds_mergeInto (rising : Rising (cur :: ranges)) (ln : Int) :
    (∃ range ∈ mergeInto cur ranges, range.Holds ln) ↔ ∃ range ∈ cur :: ranges, range.Holds ln := by
  fun_induction mergeInto cur ranges with
  | case1 => rfl
  | case2 cur range tl apart ih =>
    have behind := ih (List.Pairwise.of_cons rising)
    simp only [mem_cons, exists_eq_or_imp] at behind ⊢
    rw [behind]
  | case3 cur range tl touches ih =>
    have order := (pairwise_cons.mp rising).1 range (.head _)
    rw [ih (rising.joined _)]
    simp only [mem_cons, exists_eq_or_imp]
    rw [holds_joined order (Bool.eq_false_of_not_eq_true touches), or_assoc]

theorem precedes_mergeInto (rising : Rising (cur :: ranges)) :
    (mergeInto cur ranges).Pairwise Precedes ∧
      ∀ range ∈ mergeInto cur ranges, cur.first ≤ range.first := by
  fun_induction mergeInto cur ranges with
  | case1 => simp
  | case2 cur range tl apart ih =>
    have order := (pairwise_cons.mp rising).1 range (.head _)
    obtain ⟨separate, later⟩ := ih (List.Pairwise.of_cons rising)
    rw [isApart, decide_eq_true_iff] at apart
    refine ⟨pairwise_cons.mpr ⟨fun other hl => ?_, separate⟩, fun other hl => ?_⟩
    · have := later other hl
      exact ⟨order.trans this, by omega⟩
    · rcases mem_cons.mp hl with rfl | hl
      · exact le_rfl
      · exact order.trans (later other hl)
  | case3 cur range tl touches ih => exact ih (rising.joined _)

theorem within_mergeInto {total : Int} (all : ∀ range ∈ cur :: ranges, range.Within total) :
    ∀ range ∈ mergeInto cur ranges, range.Within total := by
  fun_induction mergeInto cur ranges with
  | case1 => exact all
  | case2 cur range tl apart ih =>
    obtain ⟨hh, behind⟩ := forall_mem_cons.mp all
    exact forall_mem_cons.mpr ⟨hh, ih behind⟩
  | case3 cur range tl touches ih =>
    obtain ⟨hh, next, behind⟩ := all |> forall_mem_cons.mp |>.imp_right forall_mem_cons.mp
    refine ih (forall_mem_cons.mpr ⟨?_, behind⟩)
    simp only [Within] at hh next ⊢
    omega

/-! ## The ranges of contexts -/

theorem holds_context (total reach ln other : Int) :
    (context total reach ln).Holds other ↔ 1 ≤ other ∧ other ≤ total ∧ |other - ln| ≤ reach := by
  rw [abs_le]
  simp only [Holds, context]
  omega

theorem within_context {total reach ln : Int} (wide : 0 ≤ reach)
    (hi : 1 ≤ ln ∧ ln ≤ total) : (context total reach ln).Within total := by
  simp only [Within, context]
  omega

/-- The ranges around lines lie apart from each other in the order of the text, and hold exactly the
lines of the text that are near one of the given lines.  Lines of the text give ranges in it. -/
theorem around_covers_exactly (total reach : Int) (lines : List Int) :
    (around total reach lines).Pairwise Precedes ∧
      (∀ line, (∃ range ∈ around total reach lines, range.Holds line) ↔
        1 ≤ line ∧ line ≤ total ∧ ∃ marked ∈ lines, |line - marked| ≤ reach) ∧
      (0 ≤ reach → (∀ marked ∈ lines, 1 ≤ marked ∧ marked ≤ total) →
        ∀ range ∈ around total reach lines, range.Within total) := by
  have rising : Rising _ :=
    Sorting.pairwise_mergeSort_key LineRange.first (lines.map (context total reach))
  have members (range : LineRange) : range ∈ (lines.map (context total reach)).mergeSort
      (fun range other => decide (range.first ≤ other.first)) ↔
        ∃ marked ∈ lines, context total reach marked = range := by
    rw [List.mem_mergeSort, List.mem_map]
  rw [around]
  generalize (lines.map (context total reach)).mergeSort _ = ranges at rising members ⊢
  have covers (line : Int) : (∃ range ∈ ranges, range.Holds line) ↔
      1 ≤ line ∧ line ≤ total ∧ ∃ marked ∈ lines, |line - marked| ≤ reach := by
    simp only [members, exists_exists_and_eq_and, holds_context]
    grind
  have inside (wide : 0 ≤ reach) (all : ∀ marked ∈ lines, 1 ≤ marked ∧ marked ≤ total) :
      ∀ range ∈ ranges, range.Within total := by
    intro range listed
    obtain ⟨marked, given, rfl⟩ := (members range).mp listed
    exact within_context wide (all marked given)
  cases ranges with
  | nil => exact ⟨.nil, covers, inside⟩
  | cons current rest =>
    refine ⟨(precedes_mergeInto rising).1, fun line => ?_, fun wide all => ?_⟩
    · rw [merge, holds_mergeInto rising, covers]
    · exact within_mergeInto (inside wide all)

/-- The line between two others is near both of them, and the one behind them near none. -/
theorem around_covers_exactly_of_three :
    (∀ marked ∈ [8, 2, 4], 1 ≤ marked ∧ marked ≤ (9 : Int)) ∧
      (∃ range ∈ around 9 1 [8, 2, 4], range.Holds 3) ∧
      (¬ ∃ range ∈ around 9 1 [8, 2, 4], range.Holds 6) ∧
      ∀ range ∈ around 9 1 [8, 2, 4], range.Within 9 := by
  obtain ⟨_, covers, inside⟩ := around_covers_exactly 9 1 [8, 2, 4]
  exact ⟨by decide, (covers 3).mpr (by decide), mt (covers 6).mp (by decide),
    inside (by decide) (by decide)⟩

end SourceAudit.Page.LineRange
