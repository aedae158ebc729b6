import SourceAudit.Proofs.LineNumbers

/-!
# Nesting of blocks

A block ends at the first line, from its first on, after which the level of braces is what it was
before the block, and with the source if there is no such line.  A line that closes several blocks
steps over the levels between, so blocks can overlap: a block that starts within another also ends
within it exactly when its level is met again there, or when the other one ends with the source.
Where lines close one block at a time, blocks are nested.
-/

open List

namespace SourceAudit.Source

variable {ls : List (List Char)}

/-- How many braces are open after the first lines of a source. -/
def level (ls : List (List Char)) (n : Nat) : Int :=
  (ls.take n).foldl (fun sum ln => sum + braceBalance ln) 0

theorem level_succ {n : Nat} {ln : List Char} (hh : ls[n]? = some ln) :
    level ls (n + 1) = level ls n + braceBalance ln := by
  rw [level, level, take_add_one, hh, foldl_append]
  rfl

/-! ## Ends -/

/-- The first line after `before` where the level is `target`, or the end of the source. -/
structure Returns (lines : List (List Char)) (target : Int) (before last : Nat) : Prop where
  lower : min (before + 1) lines.length ≤ last
  upper : last ≤ lines.length
  meets : level lines last = target ∨ last = lines.length
  earlier : ∀ line, before < line → line < last → level lines line ≠ target

theorem returns_balancedLine? (tgt : Int) {before : Nat} {tl : List (List Char)}
    (cut : ls.drop before = tl) (hi : before ≤ ls.length) :
    Returns ls tgt before
      ((balancedLine? (level ls before - tgt) (before + 1) tl).getD ls.length) := by
  induction tl generalizing before with
  | nil =>
    have full : before = ls.length := by
      have length := congrArg List.length cut
      rw [length_drop, length_nil] at length
      omega
    exact ⟨Nat.min_le_right _ _, Nat.le_refl _, .inr rfl,
      fun _ behind hi => absurd hi (full ▸ Nat.lt_asymm behind)⟩
  | cons ln tl ih =>
    have hh : ls[before]? = some ln := by
      rw [← head?_drop, cut, head?_cons]
    have next : ls.drop (before + 1) = tl := by
      rw [← tail_drop, cut, tail_cons]
    have step : level ls before - tgt + braceBalance ln = level ls (before + 1) - tgt := by
      rw [level_succ hh]
      omega
    have short : before + 1 ≤ ls.length := (List.getElem?_eq_some_iff.mp hh).1
    rw [balancedLine?, step]
    split_ifs with closed
    · rw [Option.getD_some]
      exact ⟨Nat.min_le_left _ _, short, .inl (by omega), fun _ _ _ => by omega⟩
    · have later := ih next short
      refine ⟨Nat.le_trans (by omega) later.lower, later.upper, later.meets, ?_⟩
      intro n behind earlier
      by_cases now : n = before + 1
      · rw [now]
        omega
      · exact later.earlier n (by omega) earlier

theorem drop_of_mem_withRests {start num : Nat} {ln : List Char} {tl : List (List Char)}
    (hm : (num, ln, tl) ∈ withRests start ls) : ∃ n, num = start + n ∧ ls.drop n = ln :: tl := by
  induction ls generalizing start with
  | nil => cases hm
  | cons a ls ih =>
    rw [withRests, mem_cons] at hm
    rcases hm with hh | behind
    · cases hh
      exact ⟨0, rfl, rfl⟩
    · obtain ⟨n, rfl, cut⟩ := ih behind
      exact ⟨n + 1, by omega, cut⟩

/-- A block ends where the level before it is met again. -/
theorem returns_of_mem_blocksOf {openings : List Opening} {skips : List Char → Bool} {block : Block}
    (hm : block ∈ blocksOf openings skips ls) :
    0 < block.first ∧ block.first ≤ block.last ∧
      Returns ls (level ls (block.first - 1)) (block.first - 1) block.last := by
  obtain ⟨⟨a, ln, tl⟩, ht, made⟩ := mem_filterMap.mp hm
  obtain ⟨n, rfl, cut⟩ := drop_of_mem_withRests ht
  have hi : n < ls.length := by
    have length := congrArg List.length cut
    rw [length_drop, length_cons] at length
    omega
  have hf := returns_balancedLine? (level ls n) cut (Nat.le_of_lt hi)
  rw [Int.sub_self, Nat.add_comm n 1] at hf
  have lower := hf.lower
  dsimp only at made
  split_ifs at made with skipped
  obtain ⟨opened, _, rfl⟩ := Option.map_eq_some_iff.mp made
  dsimp only
  rw [Nat.add_sub_cancel_left]
  exact ⟨by omega, by omega, hf⟩

/-! ## Nesting -/

/-- A level left upwards in steps that never go down by two stays below until it is met. -/
theorem lt_level_of_unmet {tgt : Int} (start stop : Nat) (small : ∀ ln ∈ ls, -1 ≤ braceBalance ln)
    (above : tgt < level ls start) (unmet : ∀ n, start < n → n ≤ stop → level ls n ≠ tgt) :
    ∀ n, start ≤ n → n ≤ stop → n ≤ ls.length → tgt < level ls n := by
  intro n behind
  induction n, behind using Nat.le_induction with
  | base => exact fun _ _ => above
  | succ n behind ih =>
    intro before hi
    have hh : ls[n]? = some ls[n] := getElem?_eq_getElem hi
    have lower := ih (by omega) (by omega)
    have step := level_succ hh
    have down := small _ (getElem_mem hi)
    have ho := unmet (n + 1) (by omega) before
    omega

namespace Dialect

/-- The lines of a source, without comments, as the search for blocks sees them. -/
def blockLines (src : String) : List (List Char) :=
  stripLines (Text.splitLines src.toList)

theorem returns_of_mem_blocks {d : Dialect} {src : String} {block : Block}
    (hm : block ∈ d.blocks src) :
    0 < block.first ∧ block.first ≤ block.last ∧
      Returns (blockLines src) (level (blockLines src) (block.first - 1)) (block.first - 1)
        block.last := by
  cases d with
  | go =>
    rw [blocks, Go.blocks] at hm
    exact returns_of_mem_blocksOf hm
  | java =>
    rw [blocks, Java.blocks] at hm
    exact returns_of_mem_blocksOf hm

/--
A block that starts within another one ends within it exactly when the level before it is met again
there or the other one ends with the source.  This is so when no line closes two blocks and the lines
that open the blocks close no others.
-/
theorem block_last_le_iff_level_met (dialect : Dialect) (source : String) {outer inner : Block}
    (outside : outer ∈ dialect.blocks source) (within : inner ∈ dialect.blocks source)
    (after : outer.first < inner.first) (inside : inner.first ≤ outer.last) :
    (inner.last ≤ outer.last ↔ outer.last = (blockLines source).length ∨
        ∃ line, inner.first ≤ line ∧ line ≤ outer.last ∧
          level (blockLines source) line = level (blockLines source) (inner.first - 1)) ∧
    ((∀ line ∈ blockLines source, -1 ≤ braceBalance line) → (∀ block ∈ [outer, inner],
        level (blockLines source) (block.first - 1) ≤ level (blockLines source) block.first) →
      inner.last ≤ outer.last) := by
  obtain ⟨started, _, outerEnds⟩ := returns_of_mem_blocks outside
  obtain ⟨_, _, innerEnds⟩ := returns_of_mem_blocks within
  have nested_iff : inner.last ≤ outer.last ↔ outer.last = (blockLines source).length ∨
        ∃ line, inner.first ≤ line ∧ line ≤ outer.last ∧
          level (blockLines source) line = level (blockLines source) (inner.first - 1) := by
    constructor
    · intro nested
      rcases innerEnds.meets with met | last
      · exact .inr ⟨inner.last, by omega, nested, met⟩
      · have upper := outerEnds.upper
        exact .inl (by omega)
    · rintro (last | ⟨line, behind, before, met⟩)
      · exact last ▸ innerEnds.upper
      · by_contra longer
        exact innerEnds.earlier line (by omega) (by omega) met
  refine ⟨nested_iff, fun small opens => nested_iff.mpr ?_⟩
  by_contra! beyond
  obtain ⟨further, unmet⟩ := beyond
  have upper := outerEnds.upper
  -- Inside the outer block the level stays above the one before it, ...
  have above : level (blockLines source) (outer.first - 1) <
      level (blockLines source) (inner.first - 1) := by
    refine lt_level_of_unmet outer.first (inner.first - 1) small ?_
      (fun number behind before => outerEnds.earlier number (by omega) (by omega))
      _ (by omega) (by omega) (by omega)
    have rises := opens outer (by simp)
    have left := outerEnds.earlier outer.first (by omega) (by omega)
    omega
  -- ... and from the inner one on above the level before that, so the outer block cannot end.
  have stays : level (blockLines source) (inner.first - 1) <
      level (blockLines source) outer.last := by
    refine lt_level_of_unmet inner.first outer.last small ?_
      (fun number behind before => unmet number (by omega) before)
      _ inside (Nat.le_refl _) upper
    have rises := opens inner (by simp)
    have left := unmet inner.first (Nat.le_refl _) inside
    omega
  have met := outerEnds.meets.resolve_right further
  omega

/-- Two blocks closed on one line: the inner one is taken to last until the end of the source. -/
theorem overlapping_blocks :
    ((Go.blocks "if a \x7b\nif b \x7b\n\x7d\x7d\nx\n").map fun block => (block.first, block.last)) =
        [(1, 3), (2, 4)] ∧
      ∃ outer ∈ Dialect.go.blocks "if a \x7b\nif b \x7b\n\x7d\x7d\nx\n",
        ∃ inner ∈ Dialect.go.blocks "if a \x7b\nif b \x7b\n\x7d\x7d\nx\n",
          outer.first < inner.first ∧ inner.first ≤ outer.last ∧ ¬ inner.last ≤ outer.last := by
  have found : ((Go.blocks "if a \x7b\nif b \x7b\n\x7d\x7d\nx\n").map
      fun block => (block.first, block.last)) = [(1, 3), (2, 4)] := by decide +kernel
  have some_outer : ((1, 3) : Nat × Nat) ∈ [(1, 3), (2, 4)] := by decide
  have some_inner : ((2, 4) : Nat × Nat) ∈ [(1, 3), (2, 4)] := by decide
  rw [← found, List.mem_map] at some_outer some_inner
  obtain ⟨outer, outside, same⟩ := some_outer
  obtain ⟨inner, within, alike⟩ := some_inner
  obtain ⟨outerFirst, outerLast⟩ := Prod.ext_iff.mp same
  obtain ⟨innerFirst, innerLast⟩ := Prod.ext_iff.mp alike
  dsimp only at outerFirst outerLast innerFirst innerLast
  refine ⟨found, outer, outside, inner, within, by omega, by omega, ?_⟩
  rw [(block_last_le_iff_level_met .go _ outside within (by omega) (by omega)).1, outerLast,
    innerFirst]
  rintro (last | ⟨line, behind, before, met⟩)
  · exact absurd last (by decide)
  · obtain rfl | rfl : line = 2 ∨ line = 3 := by omega
    · exact absurd met (by decide +kernel)
    · exact absurd met (by decide +kernel)

end Dialect

end SourceAudit.Source
