import SourceAudit.Proofs.RiskMonotone

/-!
# The shape of threats

Identification goes through a fixed list of kinds of threats and reports each kind at most once.
-/

open List

namespace SourceAudit.Findings

open SourceAudit.Outcome

/-! ## Lines that are integers -/

structure FindingLists.IntegerLines (lists : FindingLists) : Prop where
  matched : ∀ found ∈ lists.matched, ∃ number, found.getD "line" (.int 0) = .ok (.int number)
  flows : ∀ flow ∈ lists.flows, ∃ number, flow.getD "sink_line" (.int 0) = .ok (.int number)
  listed : ∀ finding ∈ lists.files ++ lists.fuzzed ++ lists.memory,
    ∀ line ∈ listedLines finding, IsNumber line

theorem isNumber_select {test : Value → Outcome Bool} {k : String} {fnds : List Value}
    (integers : ∀ fnd ∈ fnds, ∃ n, fnd.getD k (.int 0) = .ok (.int n)) :
    ∀ ln ∈ (select test k fnds).2, IsNumber ln := by
  rw [select, forall_mem_map]
  intro fnd kept
  obtain ⟨n, hr⟩ := integers fnd (mem_of_mem_filter kept)
  rw [hr]
  exact ⟨n, rfl⟩

theorem isNumber_stackLines (log : String) : ∀ ln ∈ stackLines log, IsNumber ln := by
  intro ln hm
  obtain ⟨f, _, hr⟩ := mem_filterMap.mp hm
  obtain ⟨n, _, rfl⟩ := Option.map_eq_some_iff.mp hr
  exact ⟨n, rfl⟩

theorem isNumber_logged {each : Value → Evidence}
    (lines : ∀ e, (each e).2 = [] ∨ ∃ log, (each e).2 = stackLines log)
    (calls : List Value) : ∀ ln ∈ (calls.map each).flatMap Prod.snd, IsNumber ln := by
  simp only [forall_mem_flatMap, forall_mem_map]
  intro e _
  rcases lines e with none | ⟨log, hs⟩
  · rw [none]
    exact forall_mem_nil _
  · rw [hs]
    exact isNumber_stackLines log

theorem isNumber_activityLines (activity : Value) :
    ∀ ln ∈ valueOr [] (activityLines activity), IsNumber ln := by
  rw [activityLines]
  split
  · exact forall_mem_nil _
  · exact isNumber_stackLines _
  · exact forall_mem_nil _
  · exact forall_mem_nil _

theorem FindingLists.IntegerLines.isNumber {lists : FindingLists} (integers : lists.IntegerLines) :
    ∀ sel ∈ lists.selections, ∀ ln ∈ sel.found.2, IsNumber ln := by
  have own {fnds kept : List Value} (among : fnds ⊆ lists.files ++ lists.fuzzed ++ lists.memory)
      (within : kept ⊆ fnds) : ∀ ln ∈ kept.flatMap listedLines, IsNumber ln :=
    forall_mem_flatMap.mpr fun fnd hl => integers.listed fnd (among (within hl))
  have calls : ∀ ln ∈ (executionCalls lists.calls).2, IsNumber ln :=
    isNumber_logged (fun e => by cases e <;> dsimp only <;> split <;> simp [Evidence.empty]) _
  have alerts : ∀ ln ∈ lists.alerts.2, IsNumber ln := by
    rw [alerts]
    split
    · exact isNumber_logged (fun e => by cases e <;> dsimp only [Evidence.empty] <;> (try split) <;> simp) _
    · exact forall_mem_nil _
  have seen : ∀ ln ∈ lists.activities.flatMap fun activity => valueOr [] (activityLines activity),
      IsNumber ln :=
    forall_mem_flatMap.mpr fun activity _ => isNumber_activityLines activity
  have hn {test : Value → Outcome Bool} :
      ∀ ln ∈ (select test "line" lists.matched).2, IsNumber ln := isNumber_select integers.matched
  have he {test : Value → Outcome Bool} :
      ∀ ln ∈ (select test "sink_line" lists.flows).2, IsNumber ln := isNumber_select integers.flows
  simp only [selections, forall_mem_cons]
  exact ⟨isNumber_append (isNumber_append hn he) calls, he, hn, hn, hn,
    isNumber_append (isNumber_append hn seen) alerts, hn,
    own (by simp) (filter_subset_self _), own (by simp) (filter_subset_self _),
    own (by simp) (List.Subset.refl _), forall_mem_nil _⟩

/-! ## Kinds -/

section

variable {sels : List Selection} {parts : List (List Threat)}

theorem kinds_sublist (told : Forall₂ Told sels parts) :
    (parts.flatten.map (·.kind)).Sublist (sels.map (·.kind)) := by
  induction told with
  | nil => exact .slnil
  | cons h1 _ ih =>
    cases h1 with
    | silent => exact ih.cons _
    | reported _ kind =>
      rw [flatten_cons, singleton_append, map_cons, map_cons, kind]
      exact ih.cons_cons _

theorem told_of_mem (told : Forall₂ Told sels parts) {th : Threat}
    (hm : th ∈ parts.flatten) : ∃ sel ∈ sels, Told sel [th] := by
  induction told with
  | nil => cases hm
  | cons h1 _ ih =>
    rw [flatten_cons, mem_append] at hm
    rcases hm with hh | later
    · refine ⟨_, mem_cons_self, ?_⟩
      cases h1 with
      | silent => cases hh
      | reported some kind severity evidence lines =>
        cases mem_singleton.mp hh
        exact .reported some kind severity evidence lines
    · obtain ⟨sel, hl, told⟩ := ih later
      exact ⟨sel, mem_cons_of_mem _ hl, told⟩

end

def matchTests : List (String × (Value → Outcome Bool)) :=
  [("RCE", executes), ("WebShell", ruleHolds "webshell_"), ("Backdoor", ruleHolds "backdoor_"),
    ("SQL Injection", ruleHolds "sql_injection"), ("Network Exfiltration", ruleHolds "network_"),
    ("File Operation Risk", ruleHolds "file_")]

theorem FindingLists.select_subset {lists : FindingLists} :
    ∀ sel ∈ lists.selections, ∀ test, (sel.kind, test) ∈ matchTests →
      (select test "line" lists.matched).1 ⊆ sel.found.1 ∧
        (select test "line" lists.matched).2 ⊆ sel.found.2 := by
  simp [selections, matchTests, Evidence.append]

/--
Threats are of different kinds, and each has evidence and lines that are positive and strictly
rising.  A kind that looks for matches has all that pass its test, with their positive lines.  The
risk of the threats counts each of them under one severity.
-/
theorem identified_threats_wellFormed {aggregated : Value} {lists : FindingLists}
    {threats : List Threat} (read : Observations.ofAggregated aggregated = .ok lists.observations)
    (integers : lists.IntegerLines) (identified : identify aggregated = .ok threats) :
    (threats.map (·.kind)).Nodup ∧
    (∀ threat ∈ threats, ∃ (evidence : List Value) (numbers : List Int), threat.evidence = .list evidence ∧ evidence ≠ [] ∧
      threat.lines = numbers.map .int ∧ numbers.Pairwise (· < ·) ∧ (∀ number ∈ numbers, 0 < number) ∧
      ∀ test, (threat.kind, test) ∈ matchTests → ∀ found ∈ lists.matched, test found = .ok true →
        found ∈ evidence ∧ ∀ number, found.getD "line" (.int 0) = .ok (.int number) → 0 < number →
          number ∈ numbers) ∧
    ∃ risk, assess (.list (threats.map Threat.toValue)) = .ok risk ∧
      risk.breakdown.total = risk.threats ∧ risk.threats = threats.length := by
  rw [identify, bind_ok read] at identified
  obtain ⟨parts, rfl, told⟩ := FindingLists.told_threats identified
  refine ⟨?_, fun threat member => ?_, ?_⟩
  · refine List.Nodup.sublist (kinds_sublist told) ?_
    change (["RCE", "Command Injection", "WebShell", "Backdoor", "SQL Injection",
      "Network Exfiltration", "File Operation Risk", "Sensitive File Access",
      "Runtime Vulnerability", "Memory Injection"] : List String).Nodup
    decide
  · obtain ⟨selection, listed, told⟩ := told_of_mem told member
    cases told with
    | reported some kind severity evidence lines =>
      obtain ⟨numbers, done, rising, member_iff⟩ :=
        positiveLines_rising (integers.isNumber selection listed)
      refine ⟨_, numbers, evidence, some, Except.ok.inj (lines.symm.trans done), rising,
        fun number inside => ((member_iff number).mp inside).2, ?_⟩
      intro test tested found matched passes
      rw [kind] at tested
      obtain ⟨cited, placed⟩ := FindingLists.select_subset selection listed test tested
      have taken : found ∈ (select test "line" lists.matched).1 := mem_select.mpr ⟨matched, passes⟩
      refine ⟨cited taken, fun number stated positive => (member_iff number).mpr ⟨placed ?_, positive⟩⟩
      exact List.mem_map.mpr ⟨found, taken, by rw [stated]; rfl⟩
  · obtain ⟨risk, assessed, _⟩ := assess_threats parts.flatten
    obtain ⟨total, counted, _⟩ := assessCounts_of_assess assessed
    exact ⟨risk, assessed, total, by rw [counted, List.length_map]⟩

def shellMatch (ln : Int) : Value :=
  .record [("rule_id", .text "rce_shell"), ("line", .int ln)]

/-- Two matches that were found in falling order, and one without a place. -/
theorem identified_threats_wellFormed_of_matches :
    let lists := FindingLists.ofStatic [shellMatch 7, shellMatch 3, shellMatch 0] []
    lists.IntegerLines ∧ ∃ threats, identify lists.aggregated = .ok threats ∧
      (threats.map (·.kind)).Nodup := by
  intro lists
  have shaped : ∀ found ∈ lists.matched, ∃ line, found = shellMatch line := by
    simp [lists, FindingLists.ofStatic]
  have lines : ∀ found ∈ lists.matched, ∃ number, found.getD "line" (.int 0) = .ok (.int number) := by
    intro found member
    obtain ⟨line, rfl⟩ := shaped found member
    exact ⟨line, rfl⟩
  have integers : lists.IntegerLines := ⟨lines, List.forall_mem_nil _, List.forall_mem_nil _⟩
  obtain ⟨threats, identified⟩ : Succeeds (identify lists.aggregated) := by decide +kernel
  exact ⟨integers, threats, identified, (identified_threats_wellFormed rfl integers identified).1⟩

end SourceAudit.Findings
