import SourceAudit.Proofs.ReplyShapes

/-!
# Counts by severity

Findings are counted in two places: threats by the severities that they state, and the lists of a
run by a rule of its own for each list.
-/

open List

namespace SourceAudit.Findings

open SourceAudit.Outcome

namespace Breakdown

def ofSeverities (sevs : List Severity) : Breakdown where
  critical := sevs.count .critical
  high := sevs.count .high
  medium := sevs.count .medium
  low := sevs.count .low

theorem ofSeverities_append (pre back : List Severity) :
    ofSeverities (pre ++ back) = (ofSeverities pre).plus (ofSeverities back) := by
  simp [ofSeverities, plus]

theorem ofSeverities_perm {pre back : List Severity} (hs : pre.Perm back) :
    ofSeverities pre = ofSeverities back := by
  simp only [ofSeverities, hs.count_eq]

theorem total_ofSeverities (sevs : List Severity) : (ofSeverities sevs).total = sevs.length := by
  induction sevs with
  | nil => rfl
  | cons sev tl ih =>
    simp only [ofSeverities, total, count_cons, length_cons] at ih ⊢
    cases sev <;> simp <;> omega

theorem weighed_ofSeverities (sevs : List Severity) :
    (ofSeverities sevs).weighed = (sevs.map Severity.weight).sum := by
  induction sevs with
  | nil => rfl
  | cons sev tl ih =>
    rw [map_cons, sum_cons, ← ih]
    cases sev <;> simp [ofSeverities, weighed, Severity.weight] <;> omega

variable (counts : Breakdown) (sev : Severity)

theorem plus_ofSeverities (pre back : List Severity) :
    (counts.plus (ofSeverities pre)).plus (ofSeverities back) =
      counts.plus (ofSeverities (pre ++ back)) := by
  simp [ofSeverities, plus, Int.add_assoc]

theorem plus_nil : counts.plus (ofSeverities []) = counts := by
  simp [ofSeverities, plus]

theorem nil_plus (sevs : List Severity) :
    Breakdown.plus {} (ofSeverities sevs) = ofSeverities sevs := by
  simp [ofSeverities, plus]

theorem add_natCast (n : Nat) :
    counts.add sev n = counts.plus (ofSeverities (.replicate n sev)) := by
  cases sev <;> simp [add, plus, ofSeverities, count_replicate]

theorem add_one : counts.add sev 1 = counts.plus (ofSeverities [sev]) := counts.add_natCast sev 1

theorem score_le_plus (sevs : List Severity) :
    counts.score ≤ (counts.plus (ofSeverities sevs)).score := by
  simp only [score, weighed, plus, ofSeverities, Severity.weight]
  omega

end Breakdown

open Breakdown (ofSeverities)

/-! ## Walks that count -/

section Walks

variable {counts : Breakdown}

def grade (es : List (Outcome (List Severity))) (counts : Breakdown) : Outcome Breakdown :=
  (es.mapM id).map fun read => counts.plus (ofSeverities read.flatten)

theorem grade_nil : grade [] counts = .ok counts := congrArg Except.ok counts.plus_nil

theorem grade_cons (e : Outcome (List Severity)) (tl : List (Outcome (List Severity))) :
    grade (e :: tl) counts = e >>= fun read => grade tl (counts.plus (ofSeverities read)) := by
  rw [grade, mapM_cons]
  cases e with
  | error err => rfl
  | ok read =>
    change Except.map _ (tl.mapM id >>= _) = Except.map _ (tl.mapM id)
    cases tl.mapM id with
    | error err => rfl
    | ok others => exact congrArg Except.ok (counts.plus_ofSeverities read others.flatten).symm

theorem grade_append (pre back : List (Outcome (List Severity))) :
    grade (pre ++ back) counts = grade pre counts >>= grade back := by
  induction pre generalizing counts with
  | nil =>
    rw [grade_nil]
    rfl
  | cons e tl ih =>
    rw [cons_append, grade_cons, grade_cons]
    cases e with
    | error err => rfl
    | ok read => exact ih

theorem eq_grade {walk : Breakdown → List Value → Outcome Breakdown}
    {read : Value → Outcome (List Severity)} (ends : ∀ counts, walk counts [] = .ok counts)
    (goes : ∀ counts fnd tl, walk counts (fnd :: tl) =
      read fnd >>= fun sevs => walk (counts.plus (ofSeverities sevs)) tl)
    (fnds : List Value) : walk counts fnds = grade (fnds.map read) counts := by
  induction fnds generalizing counts with
  | nil => rw [ends, map_nil, grade_nil]
  | cons fnd tl ih =>
    rw [goes, map_cons, grade_cons]
    exact congrArg (read fnd >>= ·) (funext fun sevs => ih)

def stated (fnd : Value) : Outcome (List Severity) :=
  (statedSeverity fnd).map ([·])

theorem countStated_eq (fnds : List Value) :
    countStated counts fnds = grade (fnds.map stated) counts := by
  refine eq_grade (fun _ => rfl) (fun counts fnd tl => ?_) fnds
  rw [countStated, stated]
  cases statedSeverity fnd with
  | error err => rfl
  | ok sev => exact congrArg (countStated · tl) (counts.add_one sev)

theorem grade_const (fnds : List Value) (sev : Severity) :
    grade (fnds.map fun _ => .ok [sev]) counts = .ok (counts.add sev fnds.length) := by
  induction fnds generalizing counts with
  | nil =>
    rw [map_nil, grade_nil, length_nil, Breakdown.add_natCast]
    exact congrArg Except.ok counts.plus_nil.symm
  | cons fnd tl ih =>
    rw [map_cons, grade_cons]
    refine ih.trans (congrArg Except.ok ?_)
    rw [Breakdown.add_natCast, Breakdown.add_natCast, Breakdown.plus_ofSeverities]
    rfl

theorem grade_calls (calls : List Value) :
    grade (calls.map fun e => .ok (syscallSeverity e).toList) counts =
      .ok (countSyscalls counts calls) := by
  induction calls generalizing counts with
  | nil => exact grade_nil
  | cons e tl ih =>
    rw [map_cons, grade_cons, countSyscalls, foldl_cons, ← countSyscalls]
    refine ih.trans (congrArg (fun counts => Except.ok (countSyscalls counts tl)) ?_)
    cases syscallSeverity e with
    | none => exact counts.plus_nil
    | some sev => exact (counts.add_one sev).symm

def fileSeverity (activity : Value) : Outcome (List Severity) := do
  return [if (← activity.get "is_sensitive").truthy then .high else .low]

theorem countFiles_eq (activities : List Value) :
    countFiles counts activities = grade (activities.map fileSeverity) counts := by
  refine eq_grade (fun _ => rfl) (fun counts activity tl => ?_) activities
  rw [countFiles, fileSeverity]
  cases activity.get "is_sensitive" with
  | error err => rfl
  | ok sensitive => exact congrArg (countFiles · tl) (counts.add_one _)

def interfaceSeverity (fnd : Value) : Outcome (List Severity) := do
  return [if (← fnd.get "type").same (.text "memory_api") then .high else .medium]

theorem grade_memory (fnds : List Value) :
    grade (fnds.map interfaceSeverity) counts =
      countMemoryInterfaces fnds >>= fun interfaces => .ok ((counts.add .high interfaces).add
        .medium (Int.ofNat fnds.length - interfaces)) := by
  induction fnds generalizing counts with
  | nil =>
    rw [map_nil, grade_nil]
    refine congrArg Except.ok ?_
    simp [Breakdown.add]
  | cons fnd tl ih =>
    rw [map_cons, grade_cons, interfaceSeverity, countMemoryInterfaces]
    cases fnd.get "type" with
    | error err => rfl
    | ok k =>
      refine ih.trans ?_
      change _ = countMemoryInterfaces tl >>= _ >>= _
      cases countMemoryInterfaces tl with
      | error err => rfl
      | ok others =>
        refine congrArg Except.ok ?_
        cases k.same (.text "memory_api") <;>
          simp [Breakdown.add, Breakdown.plus, ofSeverities] <;> omega

def crashSeverity (r : Value) : Outcome (List Severity) := do
  return if (← r.getD "crashed" (.bool false)).truthy then [.medium] else []

theorem countCrashes_eq (res : List Value) :
    countCrashes counts res = grade (res.map crashSeverity) counts := by
  refine eq_grade (fun _ => rfl) (fun counts r tl => ?_) res
  rw [countCrashes, crashSeverity]
  cases r.getD "crashed" (.bool false) with
  | error err => rfl
  | ok crashed =>
    refine congrArg (countCrashes · tl) ?_
    cases crashed.truthy with
    | false => exact counts.plus_nil.symm
    | true => exact counts.add_one .medium

end Walks

/-! ## The lists of a run -/

namespace FindingLists

def entries (lists : FindingLists) : List (Outcome (List Severity)) :=
  lists.matched.map stated ++ (lists.flows.map (fun _ => .ok [.critical]) ++
    (lists.calls.map (fun e => .ok (syscallSeverity e).toList) ++
      (lists.activities.map (fun _ => .ok [.medium]) ++ (lists.files.map fileSeverity ++
        (lists.memory.map interfaceSeverity ++ lists.fuzzed.map crashSeverity)))))

def filled (lists : FindingLists) (res : Results) : Results :=
  { res with
    patternMatches := .list lists.matched, taintFlows := .list lists.flows
    syscalls := .list lists.calls, networkActivities := .list lists.activities
    fuzzResults := .list lists.fuzzed, fileActivities := .list lists.files
    memoryFindings := .list lists.memory }

theorem breakdown_eq (lists : FindingLists) (res : Results) :
    (lists.filled res).breakdown = grade lists.entries {} := by
  change (countStated {} lists.matched >>= fun counts =>
    countFiles ((countSyscalls (counts.add .critical lists.flows.length) lists.calls).add .medium
      lists.activities.length) lists.files >>= fun counts =>
    countMemoryInterfaces lists.memory >>= fun interfaces =>
    countCrashes ((counts.add .high interfaces).add .medium
      (Int.ofNat lists.memory.length - interfaces)) lists.fuzzed) = _
  rw [countStated_eq, entries, grade_append]
  refine congrArg (grade _ _ >>= ·) (funext fun counts => ?_)
  rw [grade_append, bind_ok (grade_const ..), grade_append, bind_ok (grade_calls _), grade_append,
    bind_ok (grade_const ..), grade_append, countFiles_eq]
  refine congrArg (grade _ _ >>= ·) (funext fun counts => ?_)
  rw [grade_append, grade_memory]
  cases countMemoryInterfaces lists.memory with
  | error err => rfl
  | ok interfaces => exact countCrashes_eq _

def observedIn (dynamic : Value) : Value :=
  if dynamic.kind == .null then nothingObserved else dynamic

/-- The static and the dynamic results hold the lists; a list that is missing is empty. -/
structure HeldBy (lists : FindingLists) (static dynamic : Value) : Prop where
  matched : static.getD "pattern_matches" (.list []) = .ok (.list lists.matched)
  flows : static.getD "taint_flows" (.list []) = .ok (.list lists.flows)
  calls : (observedIn dynamic).getD "syscalls" (.list []) = .ok (.list lists.calls)
  activities :
    (observedIn dynamic).getD "network_activities" (.list []) = .ok (.list lists.activities)
  fuzzed : (observedIn dynamic).getD "fuzz_results" (.list []) = .ok (.list lists.fuzzed)
  files : (observedIn dynamic).getD "file_activities" (.list []) = .ok (.list lists.files)
  memory : (observedIn dynamic).getD "memory_findings" (.list []) = .ok (.list lists.memory)

theorem succeeds_getD {doc missing v : Value} {k : String}
    (hk : doc.getD k missing = .ok v) (other : String) (instead : Value) :
    Succeeds (doc.getD other instead) := by
  cases doc <;> first | exact ⟨_, rfl⟩ | cases hk

theorem HeldBy.aggregate_eq {lists : FindingLists} {static dynamic : Value}
    (held : lists.HeldBy static dynamic) :
    ∃ res : Results, aggregate static dynamic = (lists.entries.mapM id).map fun read =>
        .record [("static", (lists.filled res).staticValue),
          ("dynamic", (lists.filled res).dynamicValue),
          ("summary", summaryValue (ofSeverities read.flatten))] := by
  obtain ⟨structures, hasStructures⟩ := succeeds_getD held.matched "cfg_structures" (.list [])
  obtain ⟨valid, hasValid⟩ := succeeds_getD held.matched "syntax_valid" (.bool true)
  obtain ⟨symbols, hasSymbols⟩ := succeeds_getD held.matched "symbols" (.record [])
  obtain ⟨advisories, hasAdvisories⟩ := succeeds_getD held.matched "cve_matches" (.list [])
  obtain ⟨log, hasLog⟩ := succeeds_getD held.calls "execution_log" (.text "")
  let res : Results :=
    { patternMatches := .null, taintFlows := .null, cfgStructures := structures
      syntaxValid := valid, symbols, advisories, syscalls := .null, networkActivities := .null
      fuzzResults := .null, fileActivities := .null, memoryFindings := .null, executionLog := log }
  have read : Results.ofValues static dynamic = .ok (lists.filled res) := by
    rw [Results.ofValues, bind_ok held.matched, bind_ok held.flows, bind_ok hasStructures,
      bind_ok hasValid, bind_ok hasSymbols, bind_ok hasAdvisories]
    change ((observedIn dynamic).getD _ _ >>= _) = _
    rw [bind_ok held.calls]
    change ((observedIn dynamic).getD _ _ >>= _) = _
    rw [bind_ok held.activities]
    change ((observedIn dynamic).getD _ _ >>= _) = _
    rw [bind_ok held.fuzzed]
    change ((observedIn dynamic).getD _ _ >>= _) = _
    rw [bind_ok held.files]
    change ((observedIn dynamic).getD _ _ >>= _) = _
    rw [bind_ok held.memory]
    change ((observedIn dynamic).getD _ _ >>= _) = _
    rw [bind_ok hasLog]
    rfl
  refine ⟨res, ?_⟩
  rw [aggregate, bind_ok read, breakdown_eq, grade]
  cases lists.entries.mapM id with
  | error err => rfl
  | ok read =>
    rw [Except.map, Breakdown.nil_plus]
    rfl

theorem ofAggregated_filled (lists : FindingLists) (res : Results) (sum : Value) :
    Observations.ofAggregated (.record [("static", (lists.filled res).staticValue),
      ("dynamic", (lists.filled res).dynamicValue), ("summary", sum)]) =
        .ok lists.observations := rfl

def append (a b : FindingLists) : FindingLists where
  matched := a.matched ++ b.matched
  flows := a.flows ++ b.flows
  activities := a.activities ++ b.activities
  calls := a.calls ++ b.calls
  fuzzed := a.fuzzed ++ b.fuzzed
  files := a.files ++ b.files
  memory := a.memory ++ b.memory

theorem entries_append (a b : FindingLists) :
    (a.append b).entries.Perm (a.entries ++ b.entries) := by
  rw [← Multiset.coe_eq_coe]
  simp only [entries, append, map_append, ← Multiset.coe_add]
  abel

end FindingLists

theorem mapM_perm {α β : Type} {step : α → Outcome β} {xs others : List α} {vs : List β}
    (hs : others.Perm xs) (hr : xs.mapM step = .ok vs) :
    ∃ permuted, others.mapM step = .ok permuted ∧ permuted.Perm vs := by
  obtain ⟨permuted, again, hc⟩ := perm_comp_forall₂ hs (mapM_eq_ok_iff.mp hr)
  exact ⟨permuted, mapM_eq_ok_iff.mpr again, hc⟩

/-! ## Assessing -/

def WordedSeverity (th : Value) : Prop :=
  ∃ w, th.getD "severity" (.text "medium") = .ok (.text w)

theorem succeeds_statedSeverity_iff {fnd : Value} :
    Succeeds (statedSeverity fnd) ↔ WordedSeverity fnd := by
  constructor
  · rintro ⟨sev, hd⟩
    obtain ⟨v, hr, lowered⟩ := bind_eq_ok.mp hd
    obtain ⟨w, spelled, _⟩ := bind_eq_ok.mp lowered
    cases v with
    | text c => exact ⟨c, hr⟩
    | _ => cases spelled
  · rintro ⟨w, hr⟩
    exact ⟨_, by rw [statedSeverity, bind_ok hr]; rfl⟩

theorem mapM_stated (fnds : List Value) :
    (fnds.map stated).mapM id = (fnds.mapM statedSeverity).map (·.map ([·])) := by
  induction fnds with
  | nil => rfl
  | cons fnd tl ih =>
    rw [map_cons, mapM_cons, mapM_cons, ih, id, stated]
    cases statedSeverity fnd with
    | error err => rfl
    | ok sev => cases tl.mapM statedSeverity <;> rfl

theorem FindingLists.mapM_entries_ofStatic (matched fls : List Value) :
    (ofStatic matched fls).entries.mapM id = (matched.mapM statedSeverity).map fun sevs =>
        sevs.map ([·]) ++ fls.map fun _ => [.critical] := by
  have flowing : (fls.map fun _ => (.ok [.critical] : Outcome (List Severity))).mapM id =
      .ok (fls.map fun _ => [.critical]) := by
    rw [mapM_eq_ok_iff, forall₂_map_left_iff, forall₂_map_right_iff, forall₂_same]
    exact fun _ _ => rfl
  have parts : (ofStatic matched fls).entries =
      matched.map stated ++ fls.map fun _ => .ok [.critical] := by
    simp [entries, ofStatic]
  rw [parts, mapM_append, mapM_stated, flowing]
  cases matched.mapM statedSeverity <;> rfl

theorem assess_eq (ths : List Value) :
    assess (.list ths) = (ths.mapM statedSeverity).map fun sevs =>
        { breakdown := ofSeverities sevs, threats := ths.length } := by
  have hl : (Value.list ths).items = .ok ths := rfl
  rw [assess, bind_ok hl, countStated_eq, grade, mapM_stated]
  cases ths.mapM statedSeverity with
  | error err => rfl
  | ok sevs =>
    rw [Except.map, Except.map, Except.map, Breakdown.nil_plus, ← flatMap_def, flatMap_singleton']
    rfl

theorem assessCounts_of_assess {ths : List Value} {risk : Risk}
    (assessed : assess (.list ths) = .ok risk) :
    risk.breakdown.total = risk.threats ∧ risk.threats = ths.length ∧
      assessCounts risk.breakdown.toValue = .ok risk ∧
      ∀ others : List Value, others.Perm ths → assess (.list others) = .ok risk := by
  rw [assess_eq] at assessed
  cases hr : ths.mapM statedSeverity with
  | error err =>
    rw [hr] at assessed
    cases assessed
  | ok sevs =>
    rw [hr] at assessed
    cases assessed
    have hc : (ofSeverities sevs).total = ths.length := by
      rw [Breakdown.total_ofSeverities, (mapM_eq_ok_iff.mp hr).length_eq]
    refine ⟨hc, rfl, ?_, fun others hs => ?_⟩
    · dsimp only
      rw [← hc]
      rfl
    · obtain ⟨permuted, again, alike⟩ := mapM_perm hs hr
      rw [assess_eq, again, Except.map, Breakdown.ofSeverities_perm alike, hs.length_eq]

theorem exists_assess {ths : List Value} (worded : ∀ th ∈ ths, WordedSeverity th) :
    ∃ risk, assess (.list ths) = .ok risk := by
  rw [assess_eq]
  obtain ⟨sevs, hr⟩ : Succeeds (ths.mapM statedSeverity) :=
    succeeds_mapM.mpr fun th hl => succeeds_statedSeverity_iff.mpr (worded th hl)
  rw [hr]
  exact ⟨_, rfl⟩

/--
Threats are assessed as their counts are, in any order of the threats.  The summary of two runs
together states the sums of what the two summaries state, and the score of the sums is at least that
of the first run.
-/
theorem assess_by_counts_and_summaries_add {threats others : List Value}
    (worded : ∀ threat ∈ threats, WordedSeverity threat) (permuted : others.Perm threats)
    {static dynamic otherStatic otherDynamic wholeStatic wholeDynamic : Value}
    {first second : FindingLists} (one : first.HeldBy static dynamic)
    (two : second.HeldBy otherStatic otherDynamic)
    (both : (first.append second).HeldBy wholeStatic wholeDynamic) :
    (∃ risk, assess (.list threats) = .ok risk ∧ assess (.list others) = .ok risk ∧
      assessCounts risk.breakdown.toValue = .ok risk) ∧
    (Succeeds (aggregate wholeStatic wholeDynamic) ↔
      Succeeds (aggregate static dynamic) ∧ Succeeds (aggregate otherStatic otherDynamic)) ∧
    ∀ results others, aggregate static dynamic = .ok results →
      aggregate otherStatic otherDynamic = .ok others →
      ∃ whole counts more low high, aggregate wholeStatic wholeDynamic = .ok whole ∧
        results.lookup? "summary" = some (summaryValue counts) ∧
        others.lookup? "summary" = some (summaryValue more) ∧
        whole.lookup? "summary" = some (summaryValue (counts.plus more)) ∧
        (counts.plus more).total = counts.total + more.total ∧
        assessCounts counts.toValue = .ok low ∧
        assessCounts (counts.plus more).toValue = .ok high ∧ low.score ≤ high.score := by
  obtain ⟨kept, summarised⟩ := one.aggregate_eq
  obtain ⟨otherKept, alsoSummarised⟩ := two.aggregate_eq
  obtain ⟨wholeKept, wholeSummarised⟩ := both.aggregate_eq
  have same := first.entries_append second
  rw [summarised, alsoSummarised, wholeSummarised]
  refine ⟨?_, ?_, ?_⟩
  · obtain ⟨risk, assessed⟩ := exists_assess worded
    obtain ⟨_, _, counted, anyOrder⟩ := assessCounts_of_assess assessed
    exact ⟨risk, assessed, anyOrder others permuted, counted⟩
  · rw [Agent.succeeds_map, Agent.succeeds_map, Agent.succeeds_map, succeeds_mapM, succeeds_mapM,
      succeeds_mapM, ← List.forall_mem_append]
    exact forall_congr' fun entry => imp_congr_left same.mem_iff
  · intro results others done alsoDone
    cases read : first.entries.mapM id with
    | error fault =>
      rw [read] at done
      cases done
    | ok front =>
      cases alsoRead : second.entries.mapM id with
      | error fault =>
        rw [alsoRead] at alsoDone
        cases alsoDone
      | ok back =>
        have together : (first.entries ++ second.entries).mapM id = .ok (front ++ back) := by
          rw [List.mapM_append, bind_ok read, bind_ok alsoRead]
          rfl
        obtain ⟨whole, wholeRead, alike⟩ := mapM_perm same together
        rw [read] at done
        rw [alsoRead] at alsoDone
        cases done
        cases alsoDone
        rw [wholeRead, Except.map, Breakdown.ofSeverities_perm alike.flatten, List.flatten_append,
          Breakdown.ofSeverities_append]
        refine ⟨_, ofSeverities front.flatten, ofSeverities back.flatten, _, _, rfl, rfl, rfl, rfl,
          ?_, rfl, rfl, Breakdown.score_le_plus _ back.flatten⟩
        rw [Breakdown.total_ofSeverities, Breakdown.total_ofSeverities,
          ← Breakdown.ofSeverities_append, Breakdown.total_ofSeverities, List.length_append,
          Nat.cast_add]

def matchedRun : FindingLists where
  matched := [.record [("severity", .text "URGENT")]]
  flows := [.record []]
  activities := []
  calls := []
  fuzzed := []
  files := []
  memory := []

def alertedRun : FindingLists :=
  { matched := [], flows := [], activities := []
    calls := [.text "[ALERT] NETWORK:"], fuzzed := [], files := []
    memory := [.record [("type", .text "code_execution")]] }

def FindingLists.staticResults (lists : FindingLists) : Value :=
  .record [("pattern_matches", .list lists.matched), ("taint_flows", .list lists.flows)]

def FindingLists.dynamicResults (lists : FindingLists) : Value :=
  .record [("syscalls", .list lists.calls), ("network_activities", .list lists.activities),
    ("fuzz_results", .list lists.fuzzed), ("file_activities", .list lists.files),
    ("memory_findings", .list lists.memory)]

/-- A file that was not run, and another one of which only the run is known. -/
theorem assess_by_counts_and_summaries_add_of_runs :
    (∀ threat ∈ [Value.record [("severity", .text "High")], .record []], WordedSeverity threat) ∧
    matchedRun.HeldBy matchedRun.staticResults .null ∧
    alertedRun.HeldBy (.record []) alertedRun.dynamicResults ∧
    Succeeds (aggregate (matchedRun.append alertedRun).staticResults
      (matchedRun.append alertedRun).dynamicResults) ∧
    assess (.list [.record [], .record [("severity", .text "High")]]) =
      .ok { breakdown := { high := 1, medium := 1 }, threats := 2 } := by
  have worded : ∀ threat ∈ [Value.record [("severity", .text "High")], .record []],
      WordedSeverity threat := by
    simp only [List.forall_mem_cons]
    exact ⟨⟨_, rfl⟩, ⟨_, rfl⟩, List.forall_mem_nil _⟩
  have one : matchedRun.HeldBy matchedRun.staticResults .null := ⟨rfl, rfl, rfl, rfl, rfl, rfl, rfl⟩
  have two : alertedRun.HeldBy (.record []) alertedRun.dynamicResults :=
    ⟨rfl, rfl, rfl, rfl, rfl, rfl, rfl⟩
  have both : (matchedRun.append alertedRun).HeldBy (matchedRun.append alertedRun).staticResults
      (matchedRun.append alertedRun).dynamicResults := ⟨rfl, rfl, rfl, rfl, rfl, rfl, rfl⟩
  obtain ⟨⟨risk, assessed, again, _⟩, adds, _⟩ :=
    assess_by_counts_and_summaries_add worded (.swap _ _ []) one two both
  have known : assess (.list [.record [("severity", .text "High")], .record []]) =
      .ok { breakdown := { high := 1, medium := 1 }, threats := 2 } := rfl
  rw [known] at assessed
  cases assessed
  exact ⟨worded, one, two, adds.mpr ⟨⟨_, rfl⟩, ⟨_, rfl⟩⟩, again⟩

end SourceAudit.Findings
