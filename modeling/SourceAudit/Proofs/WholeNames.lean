import SourceAudit.Proofs.PatternRuns

/-!
# Names as whole words

A name is looked for by a pattern: its characters between two assertions about the characters that
stand around them. A place that an assertion refuses does not hide a later one, so the name is found
exactly if it stands somewhere with nothing at its ends that would belong to a longer name.
-/

open List

namespace SourceAudit.Text

variable {nm t : List Char}

theorem getLast?_cons_or (c : Char) (t : List Char) (previous : Option Char) :
    (c :: t).getLast?.or previous = t.getLast?.or (some c) := by
  rw [getLast?_cons]
  cases t.getLast? <;> rfl

/-- The name stands at the start of the text with both ends free, or it stands further on. -/
theorem occursWholeAfter_cons (nm : List Char) (previous : Option Char) (c : Char) (t : List Char) :
    occursWholeAfter nm previous (c :: t) = ((!previous.any joinsLeft &&
      (after? nm (c :: t)).any fun tl => !tl.head?.any isWord) ||
        occursWholeAfter nm (some c) t) := by
  rw [occursWholeAfter]
  cases after? nm (c :: t) <;> rfl

/-- What stands before the text counts for a place at its very start, and for no other. -/
theorem occursWholeAfter_iff (hne : nm ≠ []) (previous : Option Char) :
    occursWholeAfter nm previous t = true ↔ ∃ before after, t = before ++ (nm ++ after) ∧
      (before.getLast?.or previous).any joinsLeft = false ∧ after.head?.any isWord = false := by
  induction t generalizing previous with
  | nil =>
    rw [occursWholeAfter]
    simp [hne]
  | cons c t ih =>
    rw [occursWholeAfter_cons, Bool.or_eq_true, ih, Bool.and_eq_true, Bool.not_eq_true',
      Option.any_eq_true]
    constructor
    · rintro (⟨free, after, hf, ends⟩ | ⟨before, after, rfl, free, ends⟩)
      · have shape : c :: t = nm ++ after := after?_eq_some hf
        exact ⟨[], after, shape, free, by simpa using ends⟩
      · refine ⟨c :: before, after, rfl, ?_, ends⟩
        rwa [getLast?_cons_or]
    · rintro ⟨before, after, shape, free, ends⟩
      cases before with
      | nil =>
        rw [nil_append] at shape
        exact .inl ⟨free, after, shape ▸ after?_append nm after, by simpa using ends⟩
      | cons d before =>
        obtain ⟨rfl, rfl⟩ := cons.inj shape
        refine .inr ⟨before, after, rfl, ?_, ends⟩
        rwa [getLast?_cons_or] at free

end SourceAudit.Text

namespace SourceAudit.Pattern

open SourceAudit.Text

/-- A word character or a point. -/
def joinChar : Node := .set false [.category .word false false, .char '.'] .exact

def wordChar : Node := .set false [.category .word false false] .exact

/-- The pattern of a name: no word character and no point before it, no word character behind. -/
def wholeName (nm : List Char) : Pattern where
  node := .seq (.behind true 1 joinChar) (.word nm (.ahead true wordChar))
  groups := 0
  names := []

example :
    (Pattern.ofText "(?<![\\w\\.])a\\.b(?![\\w])").node = (wholeName ['a', '.', 'b']).node := by
  cbv

theorem isSome_stepWhere (test : Char → Bool) (pl : Place) :
    (stepWhere test some pl).isSome = pl.rest.head?.any test := by
  rw [stepWhere]
  cases ahead : pl.rest with
  | nil =>
    rw [Place.advance, ahead]
    rfl
  | cons c tl =>
    rw [Place.advance_cons ahead]
    cases hc : test c <;> simp [hc]

theorem isSome_run_wordChar (pl : Place) :
    (wordChar.run some pl).isSome = pl.rest.head?.any isWord := by
  rw [wordChar, Node.run, isSome_stepWhere]
  simp [SetItem.holds, Category.holds]

theorem isSome_run_joinChar (pl : Place) :
    ((pl.back 1).bind (joinChar.run some)).isSome = pl.before.head?.any joinsLeft := by
  have items (c : Char) : ([.category .word false false, .char '.'].any fun item =>
      SetItem.holds .exact c item) = joinsLeft c := by
    simp [SetItem.holds, Category.holds, joinsLeft, Folding.same, Folding.small, BEq.comm]
  cases behind : pl.before with
  | nil =>
    rw [Place.back, behind]
    rfl
  | cons c before =>
    have stepped : pl.back 1 =
        some { pl with before, rest := c :: pl.rest, position := pl.position - 1 } := by
      rw [Place.back, behind]
      rfl
    rw [stepped, Option.bind_some, joinChar, Node.run, isSome_stepWhere]
    simp [items]

/-- The pattern fits at a place if neither end of the name is joined to anything. -/
theorem isSome_matchAt_wholeName (nm whole : List Char) (pl : Place) :
    ((wholeName nm).matchAt whole false pl).isSome = (!pl.before.head?.any joinsLeft &&
      (after? nm pl.rest).any fun tl => !tl.head?.any isWord) := by
  let clear : Place := { pl with groups := [] }
  have joins : ((clear.back 1).bind (joinChar.run some)).isSome = pl.before.head?.any joinsLeft :=
    isSome_run_joinChar clear
  rw [Pattern.matchAt, Option.isSome_map, wholeName, Node.run, Node.run, ← joins]
  cases (clear.back 1).bind (joinChar.run some) with
  | some => rfl
  | none =>
    dsimp only
    rw [Node.run_word]
    cases after? nm pl.rest with
    | none => rfl
    | some tl =>
      have ends : (wordChar.run some (clear.behind nm tl)).isSome = tl.head?.any isWord :=
        isSome_run_wordChar (clear.behind nm tl)
      dsimp only
      rw [Node.run, Option.any_some, ← ends]
      cases wordChar.run some (clear.behind nm tl) <;> rfl

/-- The search tries every place, whatever the places before have refused. -/
theorem isSome_searchFrom_wholeName {nm t : List Char} (hne : nm ≠ []) (whole : List Char)
    (pl : Place) (ahead : pl.rest = t) :
    ((wholeName nm).searchFrom whole t false pl).isSome =
      occursWholeAfter nm pl.before.head? t := by
  induction t generalizing pl with
  | nil =>
    rw [Pattern.searchFrom, Option.isSome_map, isSome_matchAt_wholeName, ahead, occursWholeAfter]
    cases nm with
    | nil => exact absurd rfl hne
    | cons => simp [after?]
  | cons c t ih =>
    rw [Pattern.searchFrom, occursWholeAfter_cons, ← ahead, ← isSome_matchAt_wholeName nm whole]
    cases (wholeName nm).matchAt whole false pl with
    | some => rfl
    | none =>
      rw [Place.advance_cons ahead]
      exact ih (pl.behind [c] t) rfl

theorem isSome_search?_wholeName {nm : List Char} (hne : nm ≠ []) (t : List Char) :
    ((wholeName nm).search? t).isSome = occursWholeAfter nm none t := by
  rw [Pattern.search?, Option.isSome_map]
  exact isSome_searchFrom_wholeName hne t (Place.start t) rfl

end SourceAudit.Pattern

namespace SourceAudit.Text

/-- A name occurs exactly if it stands at some place of the text that no word character and no point
comes before and no word character follows. The search for the pattern of the name decides it. -/
theorem occursWhole_iff_stands_free (name text : List Char) :
    (occursWhole name text = true ↔ name ≠ [] ∧ ∃ before after, text = before ++ (name ++ after) ∧
      (∀ c, before.getLast? = some c → isWord c = false ∧ c ≠ '.') ∧
        ∀ c, after.head? = some c → isWord c = false) ∧
      occursWhole name text =
        (!name.isEmpty && ((Pattern.wholeName name).search? text).isSome) := by
  by_cases empty : name = []
  · simp [empty, occursWhole]
  · have written : occursWhole name text = occursWholeAfter name none text := by
      simp [occursWhole, empty]
    refine ⟨?_, ?_⟩
    · rw [written, occursWholeAfter_iff empty]
      simp only [Option.or_none, Option.any_eq_false, joinsLeft, Bool.or_eq_false_iff, ne_eq, empty,
        not_false_eq_true, true_and, beq_eq_false_iff_ne]
    · rw [written, Pattern.isSome_search?_wholeName empty]
      simp [empty]

end SourceAudit.Text
