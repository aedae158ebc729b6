import SourceAudit.Analysis.ProjectAnalysis
import SourceAudit.Proofs.FirstOccurrences
import SourceAudit.Proofs.KeyEquality
import SourceAudit.Proofs.ReplyShapes

/-!
# The union of threats

Threats are merged in two places, which differ in what tells threats apart.
-/

open List

namespace SourceAudit.Findings

open SourceAudit.Outcome

def keyIn (keyOf : Value → Outcome Value) (th : Value) : Value :=
  match keyOf th with
  | .ok k => k
  | .error _ => .null

def newcomers (keyOf : Value → Outcome Value) (existing incoming : List Value) : List Value :=
  firstsBy (keyIn keyOf) Value.alike (existing.map (keyIn keyOf)) incoming

variable {keyOf : Value → Outcome Value}

theorem keyOf_eq_ok {th : Value} (keyed : Succeeds (keyOf th)) :
    keyOf th = .ok (keyIn keyOf th) := by
  obtain ⟨k, is⟩ := keyed
  rw [keyIn, is]

theorem hashable_of_asKey {v k : Value} (is : v.asKey = .ok k) : k.unhashable? = none := by
  rw [Value.asKey] at is
  split at is <;> cases is
  assumption

theorem hashable_keyIn (own : keyOf ∈ [mergeKey, Analysis.projectKey]) (th : Value) :
    (keyIn keyOf th).unhashable? = none := by
  rw [keyIn]
  split
  · next k is =>
      rcases mem_pair.mp own with rfl | rfl
      · simp only [mergeKey, bind_eq_ok] at is
        obtain ⟨_, _, _, _, _, _, _, _, is⟩ := is
        exact hashable_of_asKey is
      · simp only [Analysis.projectKey, bind_eq_ok] at is
        obtain ⟨_, _, _, _, _, _, _, _, _, _, _, _, _, _, is⟩ := is
        exact hashable_of_asKey is
  · simp [Value.unhashable?]

section Keys

variable (hhash : ∀ th, (keyIn keyOf th).unhashable? = none)
include hhash

theorem keyIn_trans (th : Value) (mid last : Value)
    (begins : (keyIn keyOf th).alike mid = true) (ends : mid.alike last = true) :
    (keyIn keyOf th).alike last = true :=
  Value.alike_trans (hhash th) begins ends

theorem appendNew_eq {seen known xs : List Value} (covers : ∀ th, (keyIn keyOf th).among seen =
      known.any (keyIn keyOf th).alike)
    (keyed : ∀ th ∈ xs, Succeeds (keyOf th)) :
    appendNew keyOf seen xs = .ok (firstsBy (keyIn keyOf) Value.alike known xs) := by
  induction xs generalizing seen known with
  | nil => rfl
  | cons th tl ih =>
    obtain ⟨hh, behind⟩ := forall_mem_cons.mp keyed
    rw [appendNew, bind_ok (keyOf_eq_ok hh), covers]
    by_cases ht : known.any (keyIn keyOf th).alike = true
    · rw [if_pos ht, firstsBy_cons_of_any (keyIn_trans hhash) ht]
      exact ih covers behind
    · have wider (other : Value) : (keyIn keyOf other).among (keyIn keyOf th :: seen) =
          (known ++ [keyIn keyOf th]).any (keyIn keyOf other).alike := by
        have before := covers other
        rw [Value.among] at before ⊢
        rw [any_cons, before, any_append, any_cons, any_nil, Bool.or_false, Bool.or_comm]
      rw [if_neg ht, bind_ok (ih wider behind), firstsBy, if_neg ht]
      rfl

theorem mergeBy_eq {existing incoming : List Value} (old : ∀ th ∈ existing, Succeeds (keyOf th))
    (new : ∀ th ∈ incoming, Succeeds (keyOf th)) :
    mergeBy keyOf (.list existing) (.list incoming) =
      .ok (existing ++ newcomers keyOf existing incoming) := by
  have items (list : List Value) : ((Value.list list).orElse (.list [])).items = .ok list := by
    cases list <;> rfl
  have keys : existing.mapM keyOf = .ok (existing.map (keyIn keyOf)) := by
    rw [mapM_eq_ok_iff, forall₂_map_right_iff, forall₂_same]
    exact fun th hl => keyOf_eq_ok (old th hl)
  rw [mergeBy, bind_ok (items existing), bind_ok keys, bind_ok (items incoming),
    bind_ok (appendNew_eq hhash (fun _ => rfl) new)]
  rfl

end Keys

/--
Merging is a union that keeps the order.  The existing threats come first, and behind them the first
incoming threat with each key that was not there; merging the same threats again adds nothing, and
of three lists any two may be merged first.
-/
theorem mergeBy_orderedUnion (own : keyOf ∈ [mergeKey, Analysis.projectKey])
    (first second third : List Value)
    (keyed : ∀ threat ∈ first ++ second ++ third, Succeeds (keyOf threat)) :
    ∃ new merged further all,
      mergeBy keyOf (.list first) (.list second) = .ok merged ∧ merged = first ++ new ∧
      new = newcomers keyOf first second ∧ new.Sublist second ∧
      (∀ threat ∈ new, (keyIn keyOf threat).among (first.map (keyIn keyOf)) = false) ∧
      (new.Pairwise fun earlier later =>
        (keyIn keyOf later).alike (keyIn keyOf earlier) = false) ∧
      (∀ threat ∈ second, (keyIn keyOf threat).among (merged.map (keyIn keyOf)) = true) ∧
      mergeBy keyOf (.list merged) (.list second) = .ok merged ∧
      mergeBy keyOf (.list second) (.list third) = .ok further ∧
      mergeBy keyOf (.list merged) (.list third) = .ok all ∧
      mergeBy keyOf (.list first) (.list further) = .ok all := by
  have hashable := hashable_keyIn own
  have trans := keyIn_trans hashable
  simp only [List.forall_mem_append] at keyed
  obtain ⟨⟨ofFirst, ofSecond⟩, ofThird⟩ := keyed
  let key := keyIn keyOf
  let new := newcomers keyOf first second
  let later := newcomers keyOf second third
  have ofMerged : ∀ threat ∈ first ++ new, Succeeds (keyOf threat) := List.forall_mem_append.mpr
      ⟨ofFirst, fun threat listed => ofSecond threat (firstsBy_sublist.subset listed)⟩
  have ofFurther : ∀ threat ∈ second ++ later, Succeeds (keyOf threat) := List.forall_mem_append.mpr
      ⟨ofSecond, fun threat listed => ofThird threat (firstsBy_sublist.subset listed)⟩
  -- the merged threats cover the keys of both lists
  have covers (threat : Value) : ((first ++ new).map key).any (key threat).alike =
      (first.map key ++ second.map key).any (key threat).alike := by
    rw [List.map_append]
    exact any_firstsBy trans threat
  have present : ∀ threat ∈ second, ((first ++ new).map key).any (key threat).alike = true := by
    intro threat listed
    rw [covers, List.any_eq_true]
    exact ⟨key threat, List.mem_append_right _ (List.mem_map_of_mem listed),
      Value.alike_self (hashable threat)⟩
  have again : newcomers keyOf (first ++ new) second = [] := firstsBy_eq_nil trans present
  have regrouped : newcomers keyOf first (second ++ later) =
      new ++ newcomers keyOf (first ++ new) third := by
    refine firstsBy_append.trans (congrArg _ ?_)
    exact (firstsBy_firstsBy trans _).trans (firstsBy_congr fun threat _ => (covers threat).symm)
  refine ⟨new, first ++ new, second ++ later, first ++ new ++ newcomers keyOf (first ++ new) third,
    mergeBy_eq hashable ofFirst ofSecond, rfl, rfl, firstsBy_sublist, firstsBy_new.1, firstsBy_new.2,
    present, ?_, mergeBy_eq hashable ofSecond ofThird, mergeBy_eq hashable ofMerged ofThird, ?_⟩
  · rw [mergeBy_eq hashable ofMerged ofSecond, again, List.append_nil]
  · rw [mergeBy_eq hashable ofFirst ofFurther, regrouped, List.append_assoc]

def threatAt (ln : Value) : Value :=
  .record [("threat_type", .text "weak_crypto"), ("line_numbers", .list [ln])]

/-- Threats at a line that is spelled in two other ways are not new. -/
theorem mergeBy_orderedUnion_of_spellings :
    (∀ threat ∈ [threatAt (.int 1)] ++ [threatAt (.bool true), threatAt (.float (.ofInt 1))] ++ [],
      Succeeds (mergeKey threat)) ∧
    mergeBy mergeKey (.list [threatAt (.int 1)])
      (.list [threatAt (.bool true), threatAt (.float (.ofInt 1))]) = .ok [threatAt (.int 1)] := by
  have keyed : ∀ threat ∈ [threatAt (.int 1)] ++
      [threatAt (.bool true), threatAt (.float (.ofInt 1))] ++ [], Succeeds (mergeKey threat) := by
    simp only [List.cons_append, List.nil_append, List.append_nil, List.forall_mem_cons]
    exact ⟨⟨_, rfl⟩, ⟨_, rfl⟩, ⟨_, rfl⟩, List.forall_mem_nil _⟩
  obtain ⟨new, _, _, _, merged, rfl, rfl, _⟩ := mergeBy_orderedUnion (.head _) _ _ _ keyed
  have none : newcomers mergeKey [threatAt (.int 1)]
      [threatAt (.bool true), threatAt (.float (.ofInt 1))] = [] := by decide +kernel
  rw [none] at merged
  exact ⟨keyed, merged⟩

end SourceAudit.Findings
