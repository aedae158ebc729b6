import SourceAudit.Proofs.SeverityCounts

/-!
# More findings never lower the risk

Identification reads seven lists of findings. This module compares two runs of it, where each list
of the second run holds everything that is in the corresponding list of the first.
-/

open List

namespace SourceAudit.Findings

open SourceAudit.Outcome

/-! ## Severities in order -/

namespace Severity

def rank : Severity → Nat
  | .low => 0
  | .medium => 1
  | .high => 2
  | .critical => 3

instance : LE Severity where
  le lower upper := lower.rank ≤ upper.rank

theorem le_refl (sev : Severity) : sev ≤ sev := Nat.le_refl sev.rank

theorem weight_mono {lower upper : Severity} (below : lower ≤ upper) :
    lower.weight ≤ upper.weight := by
  have ranks : lower.rank ≤ upper.rank := below
  cases lower <;> cases upper <;> simp [rank] at ranks <;> decide

theorem weight_nonneg (sev : Severity) : 0 ≤ sev.weight := by
  cases sev <;> decide

end Severity

theorem riskLevel_mono {low high : Int} (below : low ≤ high) : riskLevel low ≤ riskLevel high := by
  change (riskLevel low).rank ≤ (riskLevel high).rank
  unfold riskLevel
  split_ifs <;> simp only [Severity.rank] <;> omega

/-! ## Two runs -/

/-- Each list holds only what the corresponding list of the other holds. -/
structure FindingLists.Within (fewer more : FindingLists) : Prop where
  matched : fewer.matched ⊆ more.matched
  flows : fewer.flows ⊆ more.flows
  activities : fewer.activities ⊆ more.activities
  calls : fewer.calls ⊆ more.calls
  fuzzed : fewer.fuzzed ⊆ more.fuzzed
  files : fewer.files ⊆ more.files
  memory : fewer.memory ⊆ more.memory

def Outweighed (fewer more : List Threat) : Prop :=
  List.SublistForall₂
    (fun th other => th.kind = other.kind ∧ th.severity ≤ other.severity) fewer more

theorem Outweighed.append {fewer more others further : List Threat}
    (h1 : Outweighed fewer more) (h2 : Outweighed others further) :
    Outweighed (fewer ++ others) (more ++ further) := by
  induction h1 with
  | nil =>
    rename_i unmatched
    induction unmatched with
    | nil => exact h2
    | cons th tl ih => exact .cons_right ih
  | cons related later ih => exact .cons related ih
  | cons_right later ih => exact .cons_right ih

theorem Outweighed.exists_of_mem {fewer more : List Threat} (outweighed : Outweighed fewer more) :
    ∀ th ∈ fewer, ∃ other ∈ more, other.kind = th.kind ∧ th.severity ≤ other.severity := by
  induction outweighed with
  | nil => intro th hm; cases hm
  | cons related later ih =>
    intro th hm
    rcases mem_cons.mp hm with rfl | behind
    · exact ⟨_, mem_cons_self, related.1.symm, related.2⟩
    · obtain ⟨other, hf, hs⟩ := ih th behind
      exact ⟨other, mem_cons_of_mem _ hf, hs⟩
  | cons_right later ih =>
    intro th hm
    obtain ⟨other, hf, hs⟩ := ih th hm
    exact ⟨other, mem_cons_of_mem _ hf, hs⟩

theorem ne_nil_of_subset {few many : List Value} (subset : few ⊆ many) (some : few ≠ []) :
    many ≠ [] := by
  intro none
  rw [none] at subset
  exact some (subset_nil.mp subset)

/-- The kind stays the same, it gets no less severe, and there is evidence if there was some. -/
structure Grows (selection other : Selection) : Prop where
  kind : selection.kind = other.kind
  severity : selection.severity ≤ other.severity
  found : selection.found.1 ≠ [] → other.found.1 ≠ []

theorem Told.outweighed {sel other : Selection} {fewer more : List Threat}
    (h1 : Told sel fewer) (h2 : Told other more) (grows : Grows sel other) :
    Outweighed fewer more := by
  cases h1 with
  | silent none => exact .nil
  | reported hpres sameKind sameSeverity =>
    cases h2 with
    | silent none => exact absurd none (grows.found hpres)
    | reported also otherKind otherSeverity =>
      refine .cons ⟨sameKind.trans (grows.kind.trans otherKind.symm), ?_⟩ .nil
      rw [sameSeverity, otherSeverity]
      exact grows.severity

theorem outweighed_flatten {sels others : List Selection} {fewer more : List (List Threat)}
    (grow : Forall₂ Grows sels others) (h1 : Forall₂ Told sels fewer)
    (h2 : Forall₂ Told others more) : Outweighed fewer.flatten more.flatten := by
  induction grow generalizing fewer more with
  | nil =>
    cases h1
    exact .nil
  | cons grows later ih =>
    cases h1 with
    | cons told behind =>
      cases h2 with
      | cons also further => exact (told.outweighed also grows).append (ih behind further)

theorem append_subset {few many others further : List Value} (one : few ⊆ many)
    (two : others ⊆ further) : few ++ others ⊆ many ++ further :=
  List.append_subset.mpr ⟨subset_append_of_subset_left _ one, subset_append_of_subset_right _ two⟩

theorem flatMap_map_subset {each : Value → Evidence} {few many : List Value} (subset : few ⊆ many) :
    (few.map each).flatMap Prod.fst ⊆ (many.map each).flatMap Prod.fst := by
  intro v hm
  obtain ⟨f, hl, hi⟩ := mem_flatMap.mp hm
  exact mem_flatMap.mpr ⟨f, map_subset each subset hl, hi⟩

namespace FindingLists.Within

variable {fewer more : FindingLists} (within : fewer.Within more)

include within

theorem select_subset (test : Value → Outcome Bool) (k : String) :
    (select test k fewer.matched).1 ⊆ (select test k more.matched).1 :=
  filter_subset _ within.matched

theorem network_ne_nil {named others : List Value} (kept : named ⊆ others)
    (some : named ++ fewer.activities ++ fewer.alerts.1 ≠ []) :
    others ++ more.activities ++ more.alerts.1 ≠ [] := by
  by_cases quiet : more.activities = []
  · have also : fewer.activities = [] := subset_nil.mp (quiet ▸ within.activities)
    rw [alerts, also] at some
    rw [alerts, quiet]
    refine ne_nil_of_subset ?_ some
    rw [append_nil, append_nil]
    exact append_subset kept (flatMap_map_subset within.calls)
  · simp [quiet]

theorem memorySeverity_le :
    (if fewer.memory.any usesInterface then Severity.high else .medium) ≤
      if more.memory.any usesInterface then Severity.high else .medium := by
  cases used : fewer.memory.any usesInterface with
  | true =>
    obtain ⟨fnd, hm, uses⟩ := any_eq_true.mp used
    rw [any_eq_true.mpr ⟨fnd, within.memory hm, uses⟩]
    exact Severity.le_refl .high
  | false => cases more.memory.any usesInterface <;> decide

theorem selections_grow : Forall₂ Grows fewer.selections more.selections := by
  have keeps {k : String} {sev : Severity} {few many : Evidence} (subset : few.1 ⊆ many.1) :
      Grows ⟨k, sev, few⟩ ⟨k, sev, many⟩ :=
    ⟨rfl, Severity.le_refl sev, ne_nil_of_subset subset⟩
  have hn {w : String} := within.select_subset (ruleHolds w) "line"
  refine .cons (keeps ?_) (.cons (keeps (filter_subset _ within.flows)) (.cons (keeps hn)
    (.cons (keeps hn) (.cons (keeps hn)
    (.cons ⟨rfl, Severity.le_refl _, within.network_ne_nil hn⟩ (.cons (keeps hn)
    (.cons (keeps (filter_subset _ within.files)) (.cons (keeps (filter_subset _ within.fuzzed))
    (.cons ⟨rfl, within.memorySeverity_le, ne_nil_of_subset within.memory⟩ .nil)))))))))
  exact append_subset (append_subset (within.select_subset executes "line")
    (filter_subset _ within.flows)) (flatMap_map_subset within.calls)

theorem outweighed_threats {low high : List Threat} (h1 : fewer.observations.threats = .ok low)
    (h2 : more.observations.threats = .ok high) : Outweighed low high := by
  obtain ⟨parts, rfl, told⟩ := told_threats h1
  obtain ⟨others, rfl, toldAgain⟩ := told_threats h2
  exact outweighed_flatten within.selections_grow told toldAgain

end FindingLists.Within

/-! ## The score -/

theorem statedSeverity_toValue (th : Threat) : statedSeverity th.toValue = .ok th.severity := by
  have stated : th.toValue.getD "severity" (.text "medium") = .ok (.text th.severity.name) := rfl
  have lowered : ∀ sev : Severity, Severity.ofWord (Str.lower sev.name) = sev := by
    intro sev
    cases sev <;> decide
  rw [statedSeverity, bind_ok stated]
  exact congrArg Except.ok (lowered th.severity)

theorem assess_threats (ths : List Threat) :
    ∃ risk, assess (.list (ths.map Threat.toValue)) = .ok risk ∧
      risk.score = min (ths.map fun th => th.severity.weight).sum 100 := by
  have hr : (ths.map Threat.toValue).mapM statedSeverity = .ok (ths.map (·.severity)) := by
    rw [mapM_eq_ok_iff, forall₂_map_left_iff, forall₂_map_right_iff, forall₂_same]
    exact fun th _ => statedSeverity_toValue th
  rw [assess_eq, hr]
  refine ⟨_, rfl, ?_⟩
  rw [Risk.score, Breakdown.score, Breakdown.weighed_ofSeverities, map_map]
  rfl

theorem Outweighed.sum_le {fewer more : List Threat} (outweighed : Outweighed fewer more) :
    (fewer.map fun th => th.severity.weight).sum ≤ (more.map fun th => th.severity.weight).sum := by
  have weights : List.SublistForall₂ (· ≤ ·) (fewer.map fun th => th.severity.weight)
      (more.map fun th => th.severity.weight) := by
    rw [sublistForall₂_map_left_iff, sublistForall₂_map_right_iff]
    induction outweighed with
    | nil => exact .nil
    | cons related later ih => exact .cons (Severity.weight_mono related.2) ih
    | cons_right later ih => exact .cons_right ih
  apply weights.sum_le_sum
  intro weight hm
  obtain ⟨th, _, rfl⟩ := mem_map.mp hm
  exact Severity.weight_nonneg th.severity

/-! ## More findings -/

def FindingsWithin (fewer more : Value) : Prop :=
  ∃ few many : FindingLists, Observations.ofAggregated fewer = .ok few.observations ∧
    Observations.ofAggregated more = .ok many.observations ∧ few.Within many

/--
More findings never lower the risk: each kind of threat is found again and is at least as severe,
both runs can be assessed, and neither the score nor the level falls.
-/
theorem risk_le_of_findingsWithin {fewer more : Value} {low high : List Threat}
    (within : FindingsWithin fewer more) (first : identify fewer = .ok low)
    (second : identify more = .ok high) :
    (∀ threat ∈ low, ∃ other ∈ high, other.kind = threat.kind ∧ threat.severity ≤ other.severity) ∧
      ∃ small large : Risk, assess (.list (low.map Threat.toValue)) = .ok small ∧
        assess (.list (high.map Threat.toValue)) = .ok large ∧
          0 ≤ small.score ∧ small.score ≤ large.score ∧ large.score ≤ 100 ∧
            small.level ≤ large.level := by
  obtain ⟨few, many, readFew, readMany, subsets⟩ := within
  rw [identify, bind_ok readFew] at first
  rw [identify, bind_ok readMany] at second
  have outweighed : Outweighed low high := subsets.outweighed_threats first second
  obtain ⟨small, assessedSmall, smallScore⟩ := assess_threats low
  obtain ⟨large, assessedLarge, largeScore⟩ := assess_threats high
  have sums := outweighed.sum_le
  have scores : small.score ≤ large.score := by
    rw [smallScore, largeScore]
    exact min_le_min_right 100 sums
  have nonneg : 0 ≤ (low.map fun threat => threat.severity.weight).sum := by
    apply List.sum_nonneg
    intro weight member
    obtain ⟨threat, _, rfl⟩ := List.mem_map.mp member
    exact Severity.weight_nonneg threat.severity
  refine ⟨outweighed.exists_of_mem, small, large, assessedSmall, assessedLarge, ?_, scores, ?_,
    riskLevel_mono scores⟩
  · rw [smallScore]
    exact le_min nonneg (by decide)
  · rw [largeScore]
    exact min_le_right _ _

def connectedRun : FindingLists :=
  { alertedRun with
    activities := [.record [("type", .text "connect")]]
    memory := [.record [("type", .text "memory_api")], .record [("type", .text "code_execution")]] }

def FindingLists.aggregated (lists : FindingLists) : Value :=
  .record [("static", .record [("pattern_matches", .list lists.matched),
      ("taint_flows", .list lists.flows)]), ("dynamic", .record [("syscalls", .list lists.calls),
      ("network_activities", .list lists.activities), ("fuzz_results", .list lists.fuzzed),
      ("file_activities", .list lists.files), ("memory_findings", .list lists.memory)])]

/-- A run in which the alert gives way to the activity itself is no less risky. -/
theorem risk_le_of_connectedRun :
    FindingsWithin alertedRun.aggregated connectedRun.aggregated ∧
      ∃ low high, identify alertedRun.aggregated = .ok low ∧
        identify connectedRun.aggregated = .ok high ∧
          ∃ small large : Risk, assess (.list (low.map Threat.toValue)) = .ok small ∧
            assess (.list (high.map Threat.toValue)) = .ok large ∧
              0 ≤ small.score ∧ small.score ≤ large.score ∧ large.score ≤ 100 ∧
                small.level ≤ large.level := by
  have within : FindingsWithin alertedRun.aggregated connectedRun.aggregated := by
    refine ⟨alertedRun, connectedRun, rfl, rfl, ?_⟩
    constructor <;> simp [alertedRun, connectedRun]
  obtain ⟨low, fewer⟩ : Succeeds (identify alertedRun.aggregated) := by decide +kernel
  obtain ⟨high, more⟩ : Succeeds (identify connectedRun.aggregated) := by decide +kernel
  exact ⟨within, low, high, fewer, more, (risk_le_of_findingsWithin within fewer more).2⟩

end SourceAudit.Findings
