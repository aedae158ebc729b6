import SourceAudit.Proofs.PatternContent
import SourceAudit.Proofs.SeverityCounts
import SourceAudit.Proofs.Stages
import SourceAudit.Proofs.TaintReachability

/-!
# Flows that become threats

The taint analyses store their flows among the static results, and the identification of threats
tells kinds of threats by words in the names of rules and of called functions.
-/

open List Option

namespace SourceAudit.Analysis

open Outside
open SourceAudit.Findings
open SourceAudit.Source (Dialect LineFlow)
open SourceAudit.Rules (RuleMatch)

/-! ## Stored findings -/

def listed (static : Value) (k : String) : List Value :=
  (static.lookup k).itemsOrNone

theorem listed_of_getD {static : Value} {k : String} {xs : List Value}
    (has : static.getD k (.list []) = .ok (.list xs)) : listed static k = xs := by
  cases static with
  | record fs =>
    rw [listed, Value.lookup, Value.lookup?]
    cases hk : Value.field? k fs with
    | none =>
      rw [Value.getD, hk] at has
      cases has
      rfl
    | some v =>
      rw [Value.getD, hk] at has
      cases has
      rfl
  | table _ =>
    cases has
    rfl
  | _ => cases has

def Sprung (d : Dialect) (fl : LineFlow) : Prop :=
  ∃ code, d.taintRules.sink? code = some (fl.rule, fl.found)

def guardedNames : List String :=
  Tree.sinkNames ++ ["eval", "exec"]

def Guarded (fl : Tree.Flow) : Prop :=
  fl.sink ∈ guardedNames ∧ (fl.sinkLine = .null ∨ IsNumber fl.sinkLine)

inductive Lined (d : Dialect) : Value → Prop where
  | none {static : Value} (matched : static.getD "pattern_matches" (.list []) = .ok (.list []))
      (fls : static.getD "taint_flows" (.list []) = .ok (.list [])) : Lined d static
  | some {fnds : StaticFindings} {rs : Value} {src : String}
      (f : List RuleMatch) (fls : List LineFlow)
      (hr : matchedRules rs d.name src = .ok (f.map (·.toValue)))
      (matched : fnds.matched = f.map (·.toValue) ++ fnds.flows)
      (stored : fnds.flows = fls.map (·.toValue))
      (sprung : ∀ fl ∈ fls, Sprung d fl) : Lined d fnds.toValue

inductive Stored : Value → Prop where
  | none {static : Value} (empty : listed static "taint_flows" = []) : Stored static
  | tree {fnds : StaticFindings} (f : List RuleMatch) (fls : List Tree.Flow)
      (matched : fnds.matched = f.map (·.toValue))
      (stored : fnds.flows = fls.map (·.toValue))
      (guarded : ∀ fl ∈ fls, Guarded fl) : Stored fnds.toValue
  | lines {static : Value} (d : Dialect) (lined : Lined d static) : Stored static

theorem mem_guardedNames_of_sink? {call : Tree.Tree} {nm : String}
    (called : Tree.sink? call = some nm) : nm ∈ guardedNames := by
  rw [Tree.sink?] at called
  split at called
  · have hk := (filter_eq_some_iff.mp called).2
    exact mem_append_left _ (contains_iff_mem.mp hk)
  · have hk := (filter_eq_some_iff.mp called).2
    rw [Bool.or_eq_true, beq_iff_eq, beq_iff_eq] at hk
    rcases hk with rfl | rfl
    · decide
    · decide
  · cases called

theorem lineValue_null_or_number (t : Tree.Tree) : t.lineValue = .null ∨ IsNumber t.lineValue := by
  rw [Tree.Tree.lineValue]
  split
  · exact Or.inr ⟨_, rfl⟩
  · exact Or.inl rfl

variable {tainted : Tree.Tainted} {fl : Tree.Flow}

theorem of_argumentFlow {sink : String} {call arg : Tree.Tree}
    (hf : Tree.argumentFlow tainted sink call arg = some fl) :
    fl.sink = sink ∧ fl.sinkLine = call.lineValue := by
  rw [Tree.argumentFlow] at hf
  split at hf
  · cases hf
    exact ⟨rfl, rfl⟩
  · split at hf
    · cases hf
    · obtain ⟨ln, _, rfl⟩ := map_eq_some_iff.mp hf
      exact ⟨rfl, rfl⟩

theorem guarded_of_mem_flowsAt {nd : Tree.Tree} (hm : fl ∈ Tree.flowsAt tainted nd) :
    Guarded fl := by
  rw [Tree.flowsAt] at hm
  split at hm
  · split at hm
    · next sink called =>
      obtain ⟨arg, _, hf⟩ := mem_filterMap.mp hm
      obtain ⟨hs, line⟩ := of_argumentFlow hf
      rw [Guarded, hs, line]
      exact ⟨mem_guardedNames_of_sink? called, lineValue_null_or_number nd⟩
    · cases hm
  · cases hm

theorem guarded_of_mem_flowsAlong {nodes : List Tree.Tree}
    (hm : fl ∈ Tree.flowsAlong tainted nodes) : Guarded fl := by
  induction nodes generalizing tainted with
  | nil => cases hm
  | cons nd tl ih =>
    rcases mem_append.mp hm with hh | later
    · exact guarded_of_mem_flowsAt hh
    · exact ih later

theorem yields_taintFlows (d : Dialect) (p : String) :
    Audit.Yields (d.taintFlows p) fun fls => ∀ fl ∈ fls, Sprung d fl := by
  have sprung : ∀ src, ∀ fl ∈ d.taintRules.flows src, Sprung d fl := by
    intro src fl hm
    obtain ⟨_, code, _, hf⟩ := d.taintRules_quiet.mem_flows_iff.mp hm
    exact ⟨code, (Source.mem_flowsAt_iff.mp hf).1⟩
  rw [Dialect.taintFlows_eq]
  refine .after fun out => ?_
  cases out with
  | ok t => exact .pure (sprung t.toList)
  | error err => exact .pure nofun

theorem exists_of_matchedRules {rs : Value} {lang src : String} {matched : List Value}
    (hd : matchedRules rs lang src = .ok matched) :
    ∃ f : List RuleMatch, matched = f.map (·.toValue) := by
  obtain ⟨chosen, _, documents⟩ := Outcome.bind_eq_ok.mp hd
  obtain ⟨read, _, hs⟩ := Outcome.bind_eq_ok.mp documents
  cases hs
  exact ⟨_, rfl⟩

def linePass : Dialect → StaticOptions → String → String → Audit Value
  | .go => goPass
  | .java => javaPass

theorem lined_linePass (d : Dialect) (opts : StaticOptions) (p src : String) :
    Audit.Yields (linePass d opts p src) (Lined d) := by
  have fls := yields_taintFlows d p
  cases d
  all_goals
    refine .after fun _ => .after fun outline => ?_
    split
    · exact .pure (.none rfl rfl)
    · refine .after fun _ => .after fun rep => (Audit.Yields.ofOutcome _).bind fun matched hr => ?_
      obtain ⟨f, rfl⟩ := exists_of_matchedRules hr
      exact fls.bind fun fls sprung => .after fun deps =>
        .pure (.some f fls hr rfl rfl sprung)

theorem stored_pythonPass (opts : StaticOptions) (p src : String) :
    Audit.Yields (pythonPass opts p src) Stored := by
  refine .after fun _ => .after fun facts => .after fun doc => ?_
  refine .after fun _ => .after fun _ => ?_
  split
  · exact .pure (.none rfl)
  · refine .after fun _ => .after fun problem => .after fun rep => ?_
    refine (Audit.Yields.ofOutcome _).bind fun matched hr => .after fun deps => ?_
    obtain ⟨f, rfl⟩ := exists_of_matchedRules hr
    exact .pure (.tree f (Tree.flowsOf (Tree.ofDocument doc)) rfl rfl
      fun fl hm => guarded_of_mem_flowsAlong hm)

theorem lined_staticPass (d : Dialect) (opts : StaticOptions) (p : String) (reqs : Bool) :
    Audit.Yields (staticPass opts p d.name reqs) (Lined d) := by
  rw [staticPass]
  split
  · rw [requirementsPass]
    split
    · exact .pure (.none rfl rfl)
    · exact .after fun _ => .after fun deps => .pure (.none rfl rfl)
  · refine .after fun src => ?_
    cases d with
    | go => exact lined_linePass .go opts p src
    | java => exact lined_linePass .java opts p src

theorem stored_staticPass (opts : StaticOptions) (p lang : String) (reqs : Bool) :
    Audit.Yields (staticPass opts p lang reqs) Stored := by
  rw [staticPass]
  split
  · rw [requirementsPass]
    split
    · exact .pure (.none rfl)
    · exact .after fun _ => .after fun deps => .pure (.none rfl)
  · refine .after fun src => ?_
    have lines (d : Dialect) : Audit.Yields (linePass d opts p src) Stored :=
      fun _ _ _ hd => .lines d (lined_linePass d opts p src _ _ _ hd)
    split
    · exact stored_pythonPass opts p src
    · exact lines .go
    · exact lines .java
    · intro s v s' hd
      cases hd

/-! ## Flows that are told -/

def untoldRules : List String :=
  ["go_os_exec", "java_deserialization"]

def untoldSinks : List String :=
  ["os.popen", "eval", "exec"]

def Told (fl : Value) : Prop :=
  (∀ rl ∈ untoldRules, fl.lookup "rule_id" ≠ .text rl) ∧
    ∀ sink ∈ untoldSinks, fl.lookup "sink" ≠ .text sink

def tells (rl : String) : Bool :=
  Str.occurs "rce_" rl || ruleWords.any fun w => Str.occurs w rl

theorem tells_eq_true_iff {rl : String} :
    tells rl = true ↔ Str.occurs "rce_" rl = true ∨ ∃ w ∈ ruleWords, Str.occurs w rl = true := by
  rw [tells, Bool.or_eq_true, List.any_eq_true]

def starts (sink : String) : Bool :=
  Str.startsWith "os.system" sink || Str.occurs "subprocess" sink

theorem told_lineFlow_iff (fl : LineFlow) : Told fl.toValue ↔ fl.rule.id ∉ untoldRules := by
  have rule : fl.toValue.lookup "rule_id" = .text fl.rule.id := rfl
  have sink : fl.toValue.lookup "sink" = .null := rfl
  rw [Told]
  constructor
  · rintro ⟨ho, _⟩ hm
    exact ho _ hm rfl
  · intro told
    refine ⟨fun nm hm hs => ?_, fun _ _ => nofun⟩
    cases hs
    exact told hm

theorem told_treeFlow_iff (fl : Tree.Flow) : Told fl.toValue ↔ fl.sink ∉ untoldSinks := by
  have rule : fl.toValue.lookup "rule_id" = .null := by
    rw [Tree.Flow.toValue]
    cases fl.path <;> rfl
  have sink : fl.toValue.lookup "sink" = .text fl.sink := by
    rw [Tree.Flow.toValue]
    cases fl.path <;> rfl
  rw [Told, rule, sink]
  constructor
  · rintro ⟨_, ho⟩ hm
    exact ho _ hm rfl
  · intro told
    refine ⟨fun _ _ => nofun, fun nm hm hs => ?_⟩
    cases hs
    exact told hm

def guardedRules : List String :=
  ["go_rce_exec_command", "go_os_exec", "go_sql_injection", "go_file_write", "go_network_dial",
    "java_rce_runtime_exec", "java_rce_processbuilder", "java_sql_injection",
    "java_file_operation", "java_network_connection", "java_deserialization"]

variable {d : Dialect}

theorem mem_guardedRules {rl : Source.SinkRule} (hm : rl ∈ d.taintRules.sinks) :
    rl.id ∈ guardedRules := by
  have names : d.taintRules.sinks.map (·.id) ⊆ guardedRules := by
    cases d <;> decide
  exact names (List.mem_map_of_mem hm)

theorem test_iff_of_table {test : String → Bool} {nms untold : List String} {nm : String}
    (table : (nms.all fun nm => test nm == !untold.contains nm) = true)
    (hm : nm ∈ nms) : test nm = true ↔ nm ∉ untold := by
  have entry := List.all_eq_true.mp table nm hm
  rw [beq_iff_eq] at entry
  rw [entry, Bool.not_eq_true', ← Bool.not_eq_true, contains_iff_mem]

theorem tells_iff {rl : String} (hm : rl ∈ guardedRules) : tells rl = true ↔ rl ∉ untoldRules := by
  refine test_iff_of_table ?_ hm
  decide +kernel

theorem starts_iff {sink : String} (hm : sink ∈ guardedNames) :
    starts sink = true ↔ sink ∉ untoldSinks := by
  refine test_iff_of_table ?_ hm
  decide +kernel

/-! ## Shapes of stored findings -/

theorem matchShape_ruleMatch (f : RuleMatch) : MatchShape f.toValue :=
  { text := ⟨_, rfl⟩, line := ⟨_, rfl⟩ }

theorem matchShape_lineFlow (fl : LineFlow) : MatchShape fl.toValue :=
  { text := ⟨_, rfl⟩, line := ⟨_, rfl⟩ }

theorem flowShape_lineFlow (fl : LineFlow) : FlowShape fl.toValue :=
  { source := ⟨_, rfl⟩, sink := ⟨_, rfl⟩, line := ⟨_, rfl, Or.inr ⟨_, rfl⟩⟩ }

theorem flowShape_treeFlow (guarded : Guarded fl) : FlowShape fl.toValue := by
  rw [Tree.Flow.toValue]
  cases fl.path with
  | none => exact { source := ⟨_, rfl⟩, sink := ⟨_, rfl⟩, line := ⟨_, rfl, guarded.2⟩ }
  | some p => exact { source := ⟨_, rfl⟩, sink := ⟨_, rfl⟩, line := ⟨_, rfl, guarded.2⟩ }

/-! ## Line flows -/

theorem mem_of_occurs {w t : String} (occurs : Str.occurs w t = true) :
    ∀ c ∈ w.toList, c ∈ t.toList := by
  obtain ⟨⟨before, tl⟩, hf⟩ := isSome_iff_exists.mp occurs
  intro c hm
  rw [Text.cut?_eq_some hf]
  exact mem_append_left _ (mem_append_right _ hm)

set_option maxRecDepth 100000 in
theorem avoids_of_untold {rl : Source.SinkRule} (hm : rl ∈ d.taintRules.sinks)
    (untold : rl.id ∈ untoldRules) :
    ∃ c ∈ "os.system".toList, rl.pattern.node.avoids [c] = true := by
  -- each table has one untold rule; the other patterns need not be looked at
  cases d with
  | go =>
    simp only [Dialect.taintRules, Source.Go.taintRules, mem_cons, not_mem_nil, or_false] at hm
    rcases hm with rfl | rfl | rfl | rfl | rfl | rfl | rfl
    case inr.inr.inr.inl => exact ⟨'t', by decide, by decide +kernel⟩
    all_goals exact absurd untold (by decide)
  | java =>
    simp only [Dialect.taintRules, Source.Java.taintRules, mem_cons, not_mem_nil, or_false] at hm
    rcases hm with rfl | rfl | rfl | rfl | rfl | rfl
    case inr.inr.inr.inr.inr => exact ⟨'.', by decide, by decide +kernel⟩
    all_goals exact absurd untold (by decide)

theorem Sprung.mem {fl : LineFlow} (sprung : Sprung d fl) : fl.rule ∈ d.taintRules.sinks := by
  obtain ⟨code, taken⟩ := sprung
  exact (Source.firstSink_of_sink? taken).mem

theorem Sprung.not_shell {fl : LineFlow} (sprung : Sprung d fl)
    (untold : fl.rule.id ∈ untoldRules) : Str.occurs "os.system" fl.found = false := by
  obtain ⟨c, inWord, avoids⟩ := avoids_of_untold sprung.mem untold
  obtain ⟨code, taken⟩ := sprung
  obtain ⟨rl, _, matched⟩ := exists_of_findSome?_eq_some taken
  obtain ⟨pl, searched, hs⟩ := map_eq_some_iff.mp matched
  have sameRule : rl = fl.rule := congrArg Prod.fst hs
  have content : pl.content = fl.found := congrArg Prod.snd hs
  rw [← sameRule] at avoids
  refine Bool.eq_false_iff.mpr fun occurs => ?_
  have inText := mem_of_occurs occurs c inWord
  rw [← content, Pattern.Match.content, String.toList_ofList] at inText
  exact Pattern.disjoint_of_search? avoids searched (mem_singleton_self c) inText

theorem taken_lineFlow_iff {fl : LineFlow} (sprung : Sprung d fl)
    {matched fls : List Value} (hm : fl.toValue ∈ matched) :
    Taken matched fls fl.toValue ↔ fl.rule.id ∉ untoldRules := by
  have held : ∀ w, ruleHolds w fl.toValue = .ok (Str.occurs w fl.rule.id) := fun _ => rfl
  have executed : executes fl.toValue =
      .ok (Str.occurs "rce_" fl.rule.id || Str.occurs "os.system" fl.found) :=
    executes_eq (held "rce_") rfl
  have noSource : fl.toValue.getD "source" (.text "") = .ok (.text "") := rfl
  have noSink : fl.toValue.getD "sink" (.text "") = .ok (.text "") := rfl
  have notStarted : startsOther fl.toValue = .ok false := by
    rfl
  have notInjected : injects fl.toValue = .ok false := by
    rfl
  have telling := tells_iff (mem_guardedRules sprung.mem)
  rw [tells_eq_true_iff] at telling
  constructor
  · intro taken untold
    refine telling.mp ?_ untold
    rcases taken with ⟨_, ran | ⟨w, hk, told⟩⟩ | ⟨_, started | injected⟩
    · rw [executed, sprung.not_shell untold, Bool.or_false, Except.ok.injEq] at ran
      exact Or.inl ran
    · rw [held, Except.ok.injEq] at told
      exact Or.inr ⟨w, hk, told⟩
    · cases started
    · cases injected
  · intro told
    refine Or.inl ⟨hm, ?_⟩
    rcases telling.mpr told with remote | ⟨w, hk, occurs⟩
    · exact Or.inl (by rw [executed, remote, Bool.true_or])
    · exact Or.inr ⟨w, hk, by rw [held, occurs]⟩

/-! ## Tree flows -/

theorem toValue_ne_treeFlow (f : RuleMatch) (fl : Tree.Flow) : f.toValue ≠ fl.toValue := by
  rw [RuleMatch.toValue, Tree.Flow.toValue]
  cases fl.path <;> simp

theorem taken_treeFlow_iff (guarded : Guarded fl) {f : List RuleMatch} {fls : List Value}
    (hm : fl.toValue ∈ fls) : Taken (f.map (·.toValue)) fls fl.toValue ↔ fl.sink ∉ untoldSinks := by
  have sink : fl.toValue.getD "sink" (.text "") = .ok (.text fl.sink) := by
    rw [Tree.Flow.toValue]
    cases fl.path <;> rfl
  rw [← starts_iff guarded.1]
  have started : startsOther fl.toValue = .ok (starts fl.sink) := startsOther_eq sink
  constructor
  · intro taken
    have hb : startsOther fl.toValue = .ok true := by
      rcases taken with ⟨matched, _⟩ | ⟨_, hb | injected⟩
      · obtain ⟨other, _, hs⟩ := List.mem_map.mp matched
        exact (toValue_ne_treeFlow other fl hs).elim
      · exact hb
      · exact (flowShape_treeFlow guarded).startsOther_of_injects injected
    rw [started, Except.ok.injEq] at hb
    exact hb
  · intro hb
    exact Or.inr ⟨hm, Or.inl (by rw [started, hb])⟩

/-! ## Reports -/

def Reported (static fnd : Value) : Prop :=
  ∃ ths, (aggregate static .null >>= identify) = .ok ths ∧
    ∃ th ∈ ths, th.Cites fnd

theorem reported_findings_iff {fnds : StaticFindings} {fnd : Value}
    (shapes : ∀ f ∈ fnds.matched, MatchShape f) (flowShapes : ∀ fl ∈ fnds.flows, FlowShape fl) :
    Reported fnds.toValue fnd ↔
      Legible fnds.matched fnds.flows ∧ Taken fnds.matched fnds.flows fnd := by
  have held : (FindingLists.ofStatic fnds.matched fnds.flows).HeldBy fnds.toValue .null :=
    ⟨rfl, rfl, rfl, rfl, rfl, rfl, rfl⟩
  have worded : Outcome.Succeeds ((FindingLists.ofStatic fnds.matched fnds.flows).entries.mapM
      id) ↔ ∀ f ∈ fnds.matched, WordedSeverity f := by
    rw [FindingLists.mapM_entries_ofStatic, Agent.succeeds_map, Outcome.succeeds_mapM]
    exact forall₂_congr fun _ _ => succeeds_statedSeverity_iff
  obtain ⟨res, aggregated⟩ := held.aggregate_eq
  rw [Reported, aggregated]
  constructor
  · rintro ⟨ths, hd, cited⟩
    cases hr : (FindingLists.ofStatic fnds.matched fnds.flows).entries.mapM id with
    | error err =>
      rw [hr] at hd
      cases hd
    | ok sevs =>
      rw [hr, Except.map, Outcome.bind_ok rfl, identify,
        Outcome.bind_ok (FindingLists.ofAggregated_filled ..)] at hd
      have hleg := legible_of_threats flowShapes (worded.mp ⟨sevs, hr⟩) hd
      obtain ⟨parts, rfl, told⟩ := FindingLists.told_threats hd
      exact ⟨hleg, taken_iff.mp ((cites_iff told).mp cited)⟩
  · rintro ⟨hleg, taken⟩
    obtain ⟨sevs, hr⟩ := worded.mpr hleg.severities
    obtain ⟨ths, hd⟩ := exists_threats hleg shapes flowShapes
    obtain ⟨parts, rfl, told⟩ := FindingLists.told_threats hd
    refine ⟨_, ?_, (cites_iff told).mpr (taken_iff.mpr taken)⟩
    rw [hr, Except.map, Outcome.bind_ok rfl, identify,
      Outcome.bind_ok (FindingLists.ofAggregated_filled ..), hd]

theorem Stored.reported_iff {static fl : Value} (stored : Stored static)
    (hm : fl ∈ listed static "taint_flows") :
    Reported static fl ↔
      Legible (listed static "pattern_matches") (listed static "taint_flows") ∧ Told fl := by
  cases stored with
  | none empty =>
    rw [empty] at hm
    cases hm
  | @tree fnds f fls matched stored guarded =>
    have hh : fl ∈ fnds.flows := hm
    have shapes : ∀ v ∈ fnds.matched, MatchShape v := by
      rw [matched, List.forall_mem_map]
      exact fun own _ => matchShape_ruleMatch own
    have flowShapes : ∀ v ∈ fnds.flows, FlowShape v := by
      rw [stored, List.forall_mem_map]
      exact fun own hi => flowShape_treeFlow (guarded own hi)
    rw [reported_findings_iff shapes flowShapes]
    refine and_congr_right fun _ => ?_
    rw [stored] at hh
    obtain ⟨own, hi, rfl⟩ := List.mem_map.mp hh
    rw [matched, told_treeFlow_iff]
    exact taken_treeFlow_iff (guarded own hi) hm
  | lines d lined =>
    cases lined with
    | none _ empty =>
      rw [listed_of_getD empty] at hm
      cases hm
    | @some fnds rs src f fls hr matched stored sprung =>
      have hh : fl ∈ fnds.flows := hm
      have merged : fl ∈ fnds.matched := by
        rw [matched]
        exact mem_append_right _ hh
      have shapes : ∀ v ∈ fnds.matched, MatchShape v := by
        rw [matched, stored, forall_mem_append, List.forall_mem_map, List.forall_mem_map]
        exact ⟨fun own _ => matchShape_ruleMatch own, fun own _ => matchShape_lineFlow own⟩
      have flowShapes : ∀ v ∈ fnds.flows, FlowShape v := by
        rw [stored, List.forall_mem_map]
        exact fun own _ => flowShape_lineFlow own
      rw [reported_findings_iff shapes flowShapes]
      refine and_congr_right fun _ => ?_
      rw [stored] at hh
      obtain ⟨own, hi, rfl⟩ := List.mem_map.mp hh
      rw [told_lineFlow_iff]
      exact taken_lineFlow_iff (sprung own hi) merged

/--
Every flow that an analysis stores is cited by a threat exactly when the findings are legible and
the flow is told.  So the flows that belong to the untold rules and functions are never reported.
-/
theorem flow_reported_iff_legible_and_told
    {path : String} {config : Option Value} {session after : Session} {results : FileResults}
    (answered : (analyzeFile path config).perform session = (.ok results, after)) :
    ∀ flow ∈ listed results.static "taint_flows",
      (∃ threats, (aggregate results.static .null >>= identify) = .ok threats ∧
        ∃ threat ∈ threats, threat.Cites flow) ↔
        Legible (listed results.static "pattern_matches") (listed results.static "taint_flows") ∧
          Told flow := by
  have stored : Stored results.static := by
    obtain ⟨_, _, _, _, _, _, ⟨_, rfl⟩ | ⟨_, _, ⟨empty, _⟩ | ⟨passed, _⟩⟩⟩ :=
      analyzeFile_cases answered
    · exact .none rfl
    · rw [empty]
      exact .none rfl
    · obtain ⟨options, requirements, begun, ended, done⟩ := passed
      exact stored_staticPass options _ _ requirements begun _ ended done
  exact fun flow member => stored.reported_iff member

def replacedProcess : List UInt8 :=
  [0x6F, 0x73, 0x2E, 0x45, 0x78, 0x65, 0x63, 0x28, 0x6F, 0x73, 0x2E, 0x41, 0x72, 0x67, 0x73, 0x5B,
    0x31, 0x5D, 0x29]

theorem evaluated_replacedProcess :
    ((analyzeFile "m.go" (some (.record []))).perform
        (.holding "m.go" replacedProcess)).1.toOption.map (fun res =>
      (listed res.static "taint_flows").map fun fl => (fl.lookup "rule_id").text?) =
        some [some "go_os_exec"] := by
  decide +kernel

/-- A program that replaces itself by what it was told on the command line is not reported. -/
theorem replacedProcess_not_reported :
    ∃ results after flow,
      (analyzeFile "m.go" (some (.record []))).perform (.holding "m.go" replacedProcess) =
          (.ok results, after) ∧
        flow ∈ listed results.static "taint_flows" ∧
          flow.lookup "rule_id" = .text "go_os_exec" ∧
            ¬ ∃ threats, (aggregate results.static .null >>= identify) = .ok threats ∧
              ∃ threat ∈ threats, threat.Cites flow := by
  obtain ⟨results, after, answered, stored⟩ := Audit.exists_perform_of_map evaluated_replacedProcess
  obtain ⟨flow, there, rule⟩ : ∃ flow ∈ listed results.static "taint_flows",
      (flow.lookup "rule_id").text? = some "go_os_exec" := by
    rw [← List.mem_map, stored]
    exact List.mem_singleton_self _
  have named : flow.lookup "rule_id" = .text "go_os_exec" := by
    revert rule
    cases flow.lookup "rule_id" <;> simp [Value.text?]
  refine ⟨results, after, flow, answered, there, named, fun reported => ?_⟩
  have told := ((flow_reported_iff_legible_and_told answered flow there).mp reported).2
  exact told.1 "go_os_exec" (by decide) named

end SourceAudit.Analysis
