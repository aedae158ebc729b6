import SourceAudit.Proofs.CommentScanner
import SourceAudit.Proofs.TextCutting

/-!
# Lines without comments

The blocks of a line are taken out in a loop. A turn that goes on takes at least two characters away,
so the loop ends. The text around a block is joined and looked at again, so what is left opens no
block, and neither does what stands before a line comment in it.
-/

open List

namespace SourceAudit.Source

open SourceAudit.Text

/-! ## The turns of the loop -/

/-- One turn: the loop ends with the code and whether a block is open, or goes on with a line. -/
def turn (inside : Bool) (ln : List Char) : (List Char × Bool) ⊕ List Char :=
  if inside then
    match cut? blockEnd ln with
    | none => .inl ([], true)
    | some (_, tl) => .inr tl
  else
    match cut? blockStart ln with
    | none => .inl (ln, false)
    | some (pre, tl) =>
      match cut? blockEnd tl with
      | none => .inl (pre, true)
      | some (_, after) => .inr (pre ++ after)

/-- The loop comes to an end in a number of turns. A turn that goes on is outside of all blocks. -/
inductive Ends : Bool → List Char → Nat → List Char × Bool → Prop where
  | now {inside : Bool} {ln : List Char} {out : List Char × Bool}
      (stops : turn inside ln = .inl out) : Ends inside ln 1 out
  | later {inside : Bool} {ln next : List Char} {n : Nat} {out : List Char × Bool}
      (goes : turn inside ln = .inr next) (ends : Ends false next n out) :
      Ends inside ln (n + 1) out

variable {inside : Bool} {ln next : List Char} {n : Nat} {out : List Char × Bool}

theorem turn_stops (stops : turn inside ln = .inl out) :
    out.1 <+ ln ∧ cut? blockStart out.1 = none := by
  rw [turn] at stops
  split_ifs at stops
  · split at stops
    · cases stops
      exact ⟨nil_sublist ln, rfl⟩
    · cases stops
  · split at stops
    · next bare =>
      cases stops
      exact ⟨.refl ln, bare⟩
    · next pre tl hf =>
      split at stops
      · cases stops
        refine ⟨?_, cut?_pair_front hf⟩
        rw [cut?_eq_some hf, append_assoc]
        exact sublist_append_left pre _
      · cases stops

theorem turn_goes (goes : turn inside ln = .inr next) :
    next <+ ln ∧ next.length + 2 ≤ ln.length := by
  rw [turn] at goes
  split_ifs at goes
  · split at goes
    · cases goes
    · next inner tl hf =>
      cases goes
      rw [cut?_eq_some hf]
      refine ⟨sublist_append_right _ _, ?_⟩
      simp only [length_append, blockEnd, length_cons]
      omega
  · split at goes
    · cases goes
    · next pre tl hf =>
      split at goes
      · cases goes
      · next inner after he =>
        cases goes
        rw [cut?_eq_some hf, cut?_eq_some he]
        constructor
        · rw [append_assoc]
          refine (Sublist.refl pre).append ?_
          exact (sublist_append_right _ after).trans (sublist_append_right _ _)
        · simp only [length_append, blockStart, blockEnd, length_cons]
          omega

/-- What a run of the loop leaves opens no block, and the run is bounded by the length of the line. -/
theorem Ends.bare (ends : Ends inside ln n out) :
    out.1 <+ ln ∧ cut? blockStart out.1 = none ∧ 2 * n ≤ ln.length + 2 := by
  induction ends with
  | now stops =>
    obtain ⟨kept, bare⟩ := turn_stops stops
    exact ⟨kept, bare, by omega⟩
  | later goes _ ih =>
    obtain ⟨shorter, less⟩ := turn_goes goes
    obtain ⟨kept, bare, bound⟩ := ih
    exact ⟨kept.trans shorter, bare, by omega⟩

theorem exists_ends (inside : Bool) (ln : List Char) :
    ∃ n, Ends inside ln n (dropBlocks inside ln) := by
  fun_induction dropBlocks inside ln with
  | case1 ln hmiss => exact ⟨1, .now (by simp [turn, hmiss])⟩
  | case2 ln inner tl hf ih =>
    obtain ⟨n, ends⟩ := ih
    exact ⟨n + 1, .later (by simp [turn, hf]) ends⟩
  | case3 inside ln outside hmiss => exact ⟨1, .now (by simp [turn, outside, hmiss])⟩
  | case4 inside ln outside pre tl hf hmiss =>
    exact ⟨1, .now (by simp [turn, outside, hf, hmiss])⟩
  | case5 inside ln outside pre tl hf inner after he ih =>
    obtain ⟨n, ends⟩ := ih
    exact ⟨n + 1, .later (by simp [turn, outside, hf, he]) ends⟩

/-! ## Stripped lines -/

/-- A line opens no comment. -/
def Plain (ln : List Char) : Prop :=
  ¬lineComment <:+: ln ∧ ¬blockStart <:+: ln

theorem dropLineComment_isPrefix (ln : List Char) :
    dropLineComment ln <+: ln ∧ cut? lineComment (dropLineComment ln) = none := by
  rw [dropLineComment]
  split
  · next pre tl hf =>
    refine ⟨?_, cut?_pair_front hf⟩
    rw [cut?_eq_some hf, append_assoc]
    exact prefix_append pre _
  · next bare => exact ⟨prefix_refl ln, bare⟩

theorem stripLine_plain (inside : Bool) (ln : List Char) :
    (stripLine inside ln).1 <+ ln ∧ Plain (stripLine inside ln).1 := by
  obtain ⟨_, ends⟩ := exists_ends inside ln
  obtain ⟨kept, bare, _⟩ := ends.bare
  obtain ⟨begins, uncommented⟩ := dropLineComment_isPrefix (dropBlocks inside ln).1
  refine ⟨begins.sublist.trans kept, not_isInfix_iff.mpr uncommented, fun opened => ?_⟩
  -- a block that began before the line comment would begin in the whole code
  exact not_isInfix_iff.mpr bare (opened.trans begins.isInfix)

theorem stripLine_of_plain (plain : Plain ln) : stripLine false ln = (ln, false) := by
  have bare := not_isInfix_iff.mp plain.2
  have whole : dropBlocks false ln = (ln, false) := by
    rw [dropBlocks, if_neg Bool.false_ne_true]
    split
    · rfl
    · next hf =>
      rw [bare] at hf
      cases hf
  rw [stripLine, whole, dropLineComment_of_bare (not_isInfix_iff.mp plain.1)]

/-- The lines are parts of other lines, one by one, and open no comment. -/
def Stripped (ls others : List (List Char)) : Prop :=
  Forall₂ (fun stripped ln => stripped <+ ln ∧ Plain stripped) ls others

theorem stripped_stripFrom (inside : Bool) (ls : List (List Char)) :
    Stripped (stripFrom inside ls) ls := by
  induction ls generalizing inside with
  | nil => exact .nil
  | cons ln tl ih =>
    rw [stripFrom_cons]
    exact .cons (stripLine_plain inside ln) (ih _)

theorem Stripped.stripFrom_eq {ls others : List (List Char)} (stripped : Stripped ls others) :
    stripFrom false ls = ls := by
  induction stripped with
  | nil => rfl
  | cons here _ ih => rw [stripFrom_cons, stripLine_of_plain here.2, ih]

/--
The loop that takes the blocks out of a line ends for every line and state, after at most one turn for
every two characters and one more.  Stripping keeps the number of lines; every line becomes a part of
itself that opens no comment; and stripping once more changes nothing.
-/
theorem stripLines_plain_and_idempotent (lines : List (List Char)) :
    (∀ inside line, ∃ turns, 2 * turns ≤ line.length + 2 ∧
        Ends inside line turns (dropBlocks inside line)) ∧
      Forall₂ (fun stripped line => stripped <+ line ∧ ¬lineComment <:+: stripped ∧
        ¬blockStart <:+: stripped) (stripLines lines) lines ∧
        stripLines (stripLines lines) = stripLines lines := by
  have stripped := stripped_stripFrom false lines
  refine ⟨fun inside line => ?_, stripped, stripped.stripFrom_eq⟩
  obtain ⟨turns, ends⟩ := exists_ends inside line
  exact ⟨turns, ends.bare.2.2, ends⟩

end SourceAudit.Source
