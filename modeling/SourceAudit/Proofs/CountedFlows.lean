import SourceAudit.Proofs.FlowCoverage

/-!
# Flows in summaries

The pass along the lines of a file stores every flow twice: among the flows, and behind the matches
of the rules.
-/

open List

namespace SourceAudit.Analysis

open Outside
open SourceAudit.Findings
open SourceAudit.Findings.Breakdown (ofSeverities)
open SourceAudit.Source (Dialect LineFlow)
open SourceAudit.Rules (RuleMatch)

def ownSeverity (fl : LineFlow) : Severity :=
  Severity.ofWord (Str.lower fl.rule.severity)

variable {dialect : Dialect} {static : Value}

theorem Lined.lists (lined : Lined dialect static) :
    ∃ (f : List RuleMatch) (fls : List LineFlow),
      static.getD "pattern_matches" (.list []) =
          .ok (.list (f.map (·.toValue) ++ fls.map (·.toValue))) ∧
        static.getD "taint_flows" (.list []) = .ok (.list (fls.map (·.toValue))) ∧
        (f = [] ∧ fls = [] ∨ ∃ rs src,
          matchedRules rs dialect.name src = .ok (f.map (·.toValue))) := by
  cases lined with
  | none matched fls => exact ⟨[], [], matched, fls, Or.inl ⟨rfl, rfl⟩⟩
  | @some fnds rs src f fls hr matched stored _ =>
    refine ⟨f, fls, ?_, ?_, Or.inr ⟨rs, src, hr⟩⟩
    · rw [← stored, ← matched]
      rfl
    · rw [← stored]
      rfl

theorem mapM_statedSeverity_flows (f : List Value) (fls : List LineFlow) :
    (f ++ fls.map (·.toValue)).mapM statedSeverity =
      (f.mapM statedSeverity).map (· ++ fls.map ownSeverity) := by
  have stated : (fls.map (·.toValue)).mapM statedSeverity = .ok (fls.map ownSeverity) := by
    rw [Outcome.mapM_eq_ok_iff, forall₂_map_left_iff, forall₂_map_right_iff, forall₂_same]
    exact fun _ _ => rfl
  rw [mapM_append, stated]
  cases f.mapM statedSeverity <;> rfl

theorem aggregate_of_flows {f : List Value} {fls : List LineFlow}
    (matched : static.getD "pattern_matches" (.list []) = .ok (.list (f ++ fls.map (·.toValue))))
    (flowing : static.getD "taint_flows" (.list []) = .ok (.list (fls.map (·.toValue)))) :
    ∃ kept obs, aggregate static dynamicOff = (f.mapM statedSeverity).map fun sevs =>
        .record [("static", kept), ("dynamic", obs), ("summary", summaryValue (ofSeverities
          (sevs ++ fls.map ownSeverity ++ .replicate fls.length .critical)))] := by
  have held : (FindingLists.ofStatic (f ++ fls.map (·.toValue))
      (fls.map (·.toValue))).HeldBy static dynamicOff :=
    ⟨matched, flowing, rfl, rfl, rfl, rfl, rfl⟩
  obtain ⟨res, aggregates⟩ := held.aggregate_eq
  rw [aggregates, FindingLists.mapM_entries_ofStatic, mapM_statedSeverity_flows]
  cases f.mapM statedSeverity with
  | error err => exact ⟨.null, .null, rfl⟩
  | ok sevs =>
    simp only [Except.map, flatten_append, ← flatMap_def, flatMap_singleton', flatMap_map]
    rw [← map_eq_flatMap, map_const']
    exact ⟨_, _, rfl⟩

/--
In the summary of a file that is not run, each match counts once under the severity that it states,
and each flow counts once under its own and once more as critical.  Each finding is counted once
only if there are no flows.
-/
theorem line_flows_counted_twice {path : String} {config : Option Value}
    {session after : Session} {results : FileResults} {summary : Value}
    (answered : (analyzeFile path config).perform session = (.ok results, after))
    (language : results.language = dialect.name) (off : results.dynamic = dynamicOff)
    (summarised : results.aggregated.lookup? "summary" = some summary) :
    ∃ (found : List RuleMatch) (flows : List LineFlow) (severities : List Severity),
      listed results.static "pattern_matches" = found.map (·.toValue) ++ flows.map (·.toValue) ∧
      listed results.static "taint_flows" = flows.map (·.toValue) ∧
      (found = [] ∧ flows = [] ∨ ∃ rules source,
        matchedRules rules dialect.name source = .ok (found.map (·.toValue))) ∧
      (found.map (·.toValue)).mapM statedSeverity = .ok severities ∧
      summary = summaryValue (ofSeverities
        (severities ++ flows.map ownSeverity ++ .replicate flows.length .critical)) ∧
      summary.lookup? "total_threats" = some (.int (found.length + 2 * flows.length)) ∧
      (summary = summaryValue (ofSeverities (severities ++ flows.map ownSeverity)) ↔ flows = []) := by
  obtain ⟨_, _, _, _, _, _, ⟨_, rfl⟩ | ⟨_, _, ⟨_, fresh⟩ | ⟨passed, fresh | aggregated⟩⟩⟩ :=
    analyzeFile_cases answered
  · cases summarised
  · rw [fresh] at summarised
    cases summarised
  · rw [fresh] at summarised
    cases summarised
  · obtain ⟨options, requirements, begun, ended, done⟩ := passed
    rw [language] at done
    obtain ⟨found, flows, matched, flowing, read⟩ :=
      (lined_staticPass dialect options _ requirements _ _ _ done).lists
    rw [off] at aggregated
    obtain ⟨kept, observed, counts⟩ := aggregate_of_flows matched flowing
    rw [counts] at aggregated
    obtain ⟨severities, stated, rfl⟩ : ∃ severities,
        (found.map (·.toValue)).mapM statedSeverity = .ok severities ∧ summary = summaryValue
          (ofSeverities (severities ++ flows.map ownSeverity ++
            .replicate flows.length .critical)) := by
      cases stated : (found.map (·.toValue)).mapM statedSeverity with
      | error fault =>
        rw [stated] at aggregated
        cases aggregated
      | ok severities =>
        rw [stated] at aggregated
        rw [← Except.ok.inj aggregated] at summarised
        exact ⟨severities, rfl, (Option.some.inj summarised).symm⟩
    have number : severities.length = found.length := by
      rw [← (Outcome.mapM_eq_ok_iff.mp stated).length_eq, List.length_map]
    refine ⟨found, flows, severities, listed_of_getD matched, listed_of_getD flowing, read, stated,
      rfl, ?_, ?_⟩
    · change some (Value.int (ofSeverities _).total) = _
      rw [Breakdown.total_ofSeverities]
      simp only [List.length_append, List.length_map, List.length_replicate, number]
      push_cast
      congr 2
      ring
    · constructor
      · intro once
        have totals : (ofSeverities (severities ++ flows.map ownSeverity ++
            .replicate flows.length .critical)).total =
              (ofSeverities (severities ++ flows.map ownSeverity)).total := by
          have fields := congrArg (·.lookup? "total_threats") once
          exact Value.int.inj (Option.some.inj fields)
        rw [Breakdown.total_ofSeverities, Breakdown.total_ofSeverities, Nat.cast_inj,
          List.length_append, List.length_replicate] at totals
        exact List.eq_nil_of_length_eq_zero (by omega)
      · rintro rfl
        rw [List.length_nil, List.replicate_zero, List.append_nil]

def staticOnly : Value :=
  .record [("settings", .record [("enable_dynamic_analysis", .bool false)])]

theorem evaluated_staticOnly :
    ((analyzeFile "m.go" (some staticOnly)).perform
        (.holding "m.go" replacedProcess)).1.toOption.map (fun res =>
      (res.language, (listed res.static "pattern_matches").length,
        (listed res.static "taint_flows").length,
        (res.aggregated.lookup? "summary").isSome)) = some (Dialect.go.name, 1, 1, true) := by
  decide +kernel

/-- A program with one flow and no matches has two threats in its summary. -/
theorem replacedProcess_counted_twice :
    ∃ results after summary,
      (analyzeFile "m.go" (some staticOnly)).perform (.holding "m.go" replacedProcess) =
          (.ok results, after) ∧
        results.aggregated.lookup? "summary" = some summary ∧
        (listed results.static "pattern_matches").length = 1 ∧
        (listed results.static "taint_flows").length = 1 ∧
        summary.lookup? "total_threats" = some (.int 2) := by
  obtain ⟨results, after, answered, seen⟩ := Audit.exists_perform_of_map evaluated_staticOnly
  obtain ⟨language, seen⟩ := Prod.mk.inj seen
  obtain ⟨many, seen⟩ := Prod.mk.inj seen
  obtain ⟨one, some⟩ := Prod.mk.inj seen
  obtain ⟨summary, summarised⟩ := Option.isSome_iff_exists.mp some
  obtain ⟨options, chosen, disabled⟩ : ∃ options, optionsOf staticOnly = .ok options ∧
      options.dynamic.enabled = false := ⟨_, rfl, rfl⟩
  have active : (isIdle "m.go").perform (.holding "m.go" replacedProcess) =
      (.ok false, .holding "m.go" replacedProcess) := rfl
  have staged := (perform_analyzeFile rfl active chosen rfl).symm.trans answered
  have off : results.dynamic = dynamicOff := by
    rcases yields_stages_off disabled _ _ _ _ _ _ staged with fresh | off
    · rw [fresh] at summarised
      cases summarised
    · exact off
  obtain ⟨found, flows, _, matched, stored, _, _, _, total, _⟩ :=
    line_flows_counted_twice answered language off summarised
  refine ⟨results, after, summary, answered, summarised, many, one, ?_⟩
  rw [matched, List.length_append, List.length_map, List.length_map] at many
  rw [stored, List.length_map] at one
  rw [total, one, show found.length = 0 by omega]
  rfl

end SourceAudit.Analysis
