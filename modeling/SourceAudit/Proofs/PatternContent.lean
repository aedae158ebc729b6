import SourceAudit.Pattern.Parser
import Mathlib.Data.List.Lattice
import Mathlib.Tactic.SplitIfs

/-!
# Characters of a match

A match reads the text between two places. This module proves that a pattern in which no node reads
one of some given characters never matches a text that holds one of them.  Without any characters to
avoid this says where the places of a run lie.
-/

open List Option

namespace SourceAudit.Pattern

/-! ## Text between two places -/

def ReadsWithout (avoided : List Char) (pl after : Place) : Prop :=
  ∃ t, pl.rest = t ++ after.rest ∧ after.position = pl.position + t.length ∧
    avoided.Disjoint t

namespace ReadsWithout

variable {avoided : List Char} {pl mid after : Place}

theorem stay (rest : after.rest = pl.rest) (position : after.position = pl.position) :
    ReadsWithout avoided pl after :=
  ⟨[], by rw [rest]; rfl, position, disjoint_nil_right _⟩

theorem trans (h1 : ReadsWithout avoided pl mid)
    (h2 : ReadsWithout avoided mid after) : ReadsWithout avoided pl after := by
  obtain ⟨pre, frontRest, frontEnd, frontFree⟩ := h1
  obtain ⟨back, backRest, backEnd, backFree⟩ := h2
  refine ⟨pre ++ back, ?_, ?_, disjoint_append_right.mpr ⟨frontFree, backFree⟩⟩
  · rw [frontRest, backRest, append_assoc]
  · rw [backEnd, frontEnd, length_append, Nat.add_assoc]

theorem ofAdvance {c : Char} (advanced : pl.advance = some (c, after)) (ho : c ∉ avoided) :
    ReadsWithout avoided pl after := by
  rw [Place.advance] at advanced
  split at advanced
  · cases advanced
  · next d tl shape =>
    cases advanced
    exact ⟨[c], shape, rfl, disjoint_singleton.mpr ho⟩

end ReadsWithout

def Safe (avoided : List Char) (body : Continuation → Continuation) : Prop :=
  ∀ next pl r, body next pl = some r →
    ∃ after, ReadsWithout avoided pl after ∧ next after = some r

/-! ## Patterns without a character -/

def Node.avoids (avoided : List Char) : Node → Bool
  | .empty => true
  | .char c folding => !avoided.any fun d => folding.same c d
  | .any newline => !avoided.any fun c => newline || c != '\n'
  | .set negated xs folding =>
    !avoided.any fun c => (xs.any fun x => x.holds folding c) != negated
  | .anchor _ => true
  | .seq a b => a.avoids avoided && b.avoids avoided
  | .choice a b => a.avoids avoided && b.avoids avoided
  | .repetition body _ _ _ => body.avoids avoided
  | .group _ body => body.avoids avoided
  -- what a reference reads depends on the text
  | .reference _ _ => false
  | .ahead _ _ => true
  | .behind _ _ _ => true
  | .atomic body => body.avoids avoided
  | .ifGroup _ yes no => yes.avoids avoided && no.avoids avoided

theorem safe_stepWhere {avoided : List Char} {test : Char → Bool}
    (refuses : (!avoided.any test) = true) : Safe avoided (stepWhere test) := by
  intro next pl r hd
  rw [stepWhere] at hd
  split at hd
  · next c after advanced =>
    split_ifs at hd with passed
    refine ⟨after, .ofAdvance advanced fun hm => ?_, hd⟩
    rw [List.any_eq_true.mpr ⟨c, hm, passed⟩] at refuses
    cases refuses
  · cases hd

theorem eq_some_of_orElse {a : Option Place} {b : Unit → Option Place} {r : Place}
    (hd : a.orElse b = some r) : a = some r ∨ b () = some r := by
  cases a with
  | none => exact Or.inr hd
  | some pl => exact Or.inl hd

theorem safe_rounds {avoided : List Char} {body : Continuation → Continuation} (safe : Safe avoided body)
    (least : Nat) (most : Option Nat) (greed : Greed) (fuel n : Nat) (last : Option Nat) :
    Safe avoided fun next => rounds body least most greed next fuel n last := by
  induction fuel generalizing n last with
  | zero =>
    intro next pl r hd
    cases hd
  | succ fuel ih =>
    intro next pl r hd
    -- a further round, whatever it is counted as
    have round : ∀ n last, body (fun pl => rounds body least most greed next fuel n last pl) pl =
          some r →
        ∃ after, ReadsWithout avoided pl after ∧ next after = some r := by
      intro n last ran
      obtain ⟨mid, h1, later⟩ := safe _ _ _ ran
      obtain ⟨after, h2, he⟩ := ih n last next mid r later
      exact ⟨after, h1.trans h2, he⟩
    have finish : next pl = some r → ∃ after, ReadsWithout avoided pl after ∧ next after = some r :=
      fun he => ⟨pl, .stay rfl rfl, he⟩
    have again : (if ((most.all fun lim => n < lim) && last != some pl.position) = true
        then body (fun after => rounds body least most greed next fuel (n + 1)
          (some pl.position) after) pl
        else none) = some r →
        ∃ after, ReadsWithout avoided pl after ∧ next after = some r := by
      intro ran
      split_ifs at ran
      exact round _ _ ran
    dsimp only at hd
    rw [rounds] at hd
    split_ifs at hd with needed
    · exact round _ _ hd
    · cases greed with
      | lazy => exact (eq_some_of_orElse hd).elim finish again
      | greedy => exact (eq_some_of_orElse hd).elim again finish
      | possessive => exact (eq_some_of_orElse hd).elim again finish

section

variable {avoided : List Char} {pl r : Place} {f : Option Place} {next : Continuation}

theorem safe_committed (hd : (match f with
      | some mid => next mid
      | none => none) = some r)
    (safe : ∀ mid, f = some mid → ∃ after, ReadsWithout avoided pl after ∧ some after = some mid) :
    ∃ after, ReadsWithout avoided pl after ∧ next after = some r := by
  cases f with
  | none => cases hd
  | some mid =>
    obtain ⟨after, reads, hs⟩ := safe mid rfl
    cases hs
    exact ⟨mid, reads, hd⟩

theorem safe_looked (hd : (match f with
      | some seen => next { pl with groups := seen.groups }
      | none => none) = some r) :
    ∃ after, ReadsWithout avoided pl after ∧ next after = some r := by
  cases f with
  | none => cases hd
  | some seen => exact ⟨{ pl with groups := seen.groups }, .stay rfl rfl, hd⟩

theorem safe_refused (hd : (match f with
      | some _ => none
      | none => next pl) = some r) :
    ∃ after, ReadsWithout avoided pl after ∧ next after = some r := by
  cases f with
  | none => exact ⟨pl, .stay rfl rfl, hd⟩
  | some seen => cases hd

end

theorem Node.safe_run {avoided : List Char} {nd : Node} (avoids : nd.avoids avoided = true) :
    Safe avoided nd.run := by
  induction nd with
  | empty => exact fun next pl r hd => ⟨pl, .stay rfl rfl, hd⟩
  | char c folding => exact safe_stepWhere avoids
  | any newline => exact safe_stepWhere avoids
  | set negated xs folding => exact safe_stepWhere avoids
  | anchor k =>
    intro next pl r hd
    rw [Node.run] at hd
    split_ifs at hd
    exact ⟨pl, .stay rfl rfl, hd⟩
  | seq a b firstSafe secondSafe =>
    intro next pl r hd
    obtain ⟨firstAvoids, secondAvoids⟩ := Bool.and_eq_true_iff.mp avoids
    obtain ⟨mid, before, later⟩ := firstSafe firstAvoids _ _ _ hd
    obtain ⟨after, behind, he⟩ := secondSafe secondAvoids _ _ _ later
    exact ⟨after, before.trans behind, he⟩
  | choice a b firstSafe secondSafe =>
    intro next pl r hd
    obtain ⟨firstAvoids, secondAvoids⟩ := Bool.and_eq_true_iff.mp avoids
    exact (eq_some_of_orElse hd).elim (firstSafe firstAvoids _ _ _) (secondSafe secondAvoids _ _ _)
  | repetition body least most greed safe =>
    intro next pl r hd
    have each := safe_rounds (safe avoids) least most
    cases greed with
    | greedy => exact each .greedy _ 0 none next pl r hd
    | lazy => exact each .lazy _ 0 none next pl r hd
    | possessive =>
      exact safe_committed hd (each .greedy _ 0 none some pl)
  | group i body safe =>
    intro next pl r hd
    obtain ⟨after, reads, he⟩ := safe avoids _ _ _ hd
    exact ⟨after.record i pl.position after.position, reads.trans (.stay rfl rfl), he⟩
  | reference i folding => cases avoids
  | ahead negated body _ =>
    intro next pl r hd
    cases negated with
    | false => exact safe_looked hd
    | true => exact safe_refused hd
  | behind negated width body _ =>
    intro next pl r hd
    cases negated with
    | false => exact safe_looked hd
    | true => exact safe_refused hd
  | atomic body safe =>
    intro next pl r hd
    exact safe_committed hd (safe avoids some pl)
  | ifGroup i yes no yesSafe noSafe =>
    intro next pl r hd
    obtain ⟨yesAvoids, noAvoids⟩ := Bool.and_eq_true_iff.mp avoids
    rw [Node.run] at hd
    split at hd
    · exact yesSafe yesAvoids _ _ _ hd
    · exact noSafe noAvoids _ _ _ hd

/-! ## Matches -/

variable {avoided : List Char} {pat : Pattern}

/-- A place of a text, by what is left to read. -/
def Place.IsIn (pl : Place) (whole : List Char) : Prop :=
  whole.drop pl.position = pl.rest

theorem Place.isIn_start (t : List Char) : (Place.start t).IsIn t := rfl

theorem Place.IsIn.after {pl after : Place} {whole : List Char} (hi : pl.IsIn whole)
    (reads : ReadsWithout avoided pl after) : after.IsIn whole := by
  obtain ⟨t, rest, position, _⟩ := reads
  rw [IsIn] at hi ⊢
  rw [position, ← drop_drop, hi, rest, drop_left]

theorem exists_run_of_matchAt {whole : List Char} {nonEmpty : Bool} {pl : Place} {f : Match}
    (matched : pat.matchAt whole nonEmpty pl = some f) :
    ∃ r, pat.node.run (fun after => if nonEmpty && after.position == pl.position then none
        else some after) { pl with groups := [] } = some r ∧
      f = { start := pl.position, stop := r.position, groups := r.groups,
                text := pl.rest.take (r.position - pl.position), whole } := by
  obtain ⟨r, ran, rfl⟩ := map_eq_some_iff.mp matched
  exact ⟨r, ran, rfl⟩

theorem exists_matchAt_of_searchFrom {whole tl : List Char} {nonEmpty : Bool} {pl : Place}
    {f : Match × Place} (hi : pl.IsIn whole)
    (searched : pat.searchFrom whole tl nonEmpty pl = some f) :
    f.2.IsIn whole ∧ ∃ nonEmpty, pat.matchAt whole nonEmpty f.2 = some f.1 := by
  induction tl generalizing nonEmpty pl with
  | nil =>
    obtain ⟨here, matched, rfl⟩ := map_eq_some_iff.mp searched
    exact ⟨hi, nonEmpty, matched⟩
  | cons c tl ih =>
    rw [Pattern.searchFrom] at searched
    split at searched
    · next here matched =>
      cases searched
      exact ⟨hi, nonEmpty, matched⟩
    · split at searched
      · next advanced => exact ih (hi.after (.ofAdvance advanced not_mem_nil)) searched
      · cases searched

theorem Place.IsIn.forward {pl : Place} {whole : List Char} (hi : pl.IsIn whole)
    (n : Nat) : (Pattern.forward n pl).IsIn whole := by
  induction n generalizing pl with
  | zero => exact hi
  | succ n ih =>
    rw [Pattern.forward]
    split
    · next advanced => exact ih (hi.after (.ofAdvance advanced not_mem_nil))
    · exact hi

theorem exists_matchAt_of_findFrom {whole : List Char} {fuel : Nat} {nonEmpty : Bool} {pl : Place}
    {f : Match} (hi : pl.IsIn whole) (hl : f ∈ pat.findFrom whole fuel nonEmpty pl) :
    ∃ pl nonEmpty, pl.IsIn whole ∧ pat.matchAt whole nonEmpty pl = some f := by
  induction fuel generalizing nonEmpty pl with
  | zero => cases hl
  | succ fuel ih =>
    rw [Pattern.findFrom] at hl
    split at hl
    · cases hl
    · next here searched =>
      obtain ⟨ht, filled, matched⟩ := exists_matchAt_of_searchFrom hi searched
      rcases mem_cons.mp hl with rfl | later
      · exact ⟨_, filled, ht, matched⟩
      · exact ih (ht.forward _) later

theorem disjoint_of_search? {t : List Char} {f : Match}
    (avoids : pat.node.avoids avoided = true) (searched : pat.search? t = some f) :
    avoided.Disjoint f.text := by
  obtain ⟨here, matched, rfl⟩ := map_eq_some_iff.mp searched
  obtain ⟨_, nonEmpty, ht⟩ := exists_matchAt_of_searchFrom (Place.isIn_start t) matched
  obtain ⟨r, ran, hs⟩ := exists_run_of_matchAt ht
  obtain ⟨after, ⟨t, rest, stop, free⟩, accepted⟩ := Node.safe_run avoids _ _ _ ran
  split_ifs at accepted
  cases accepted
  have shape : here.2.rest = t ++ r.rest := rest
  rw [hs, stop, Nat.add_sub_cancel_left, shape, take_left]
  exact free

end SourceAudit.Pattern
