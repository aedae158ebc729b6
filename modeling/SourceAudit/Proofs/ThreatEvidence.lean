import SourceAudit.Findings.Threat
import SourceAudit.Proofs.FirstOccurrences
import SourceAudit.Proofs.SortedValues

/-!
# What threats cite

Threats are told from seven lists of findings. Each kind of threat walks along some of the lists and
takes as evidence what a test of its own chooses, with its lines.
-/

open List

namespace SourceAudit

namespace Findings

open SourceAudit.Outcome

/-! ## Lines of threats -/

def IsNumber (v : Value) : Prop :=
  ∃ n, v = .int n

theorem decides_less : Sorting.Decides (fun l r => l.less "<" r) IsNumber := by
  rintro _ _ ⟨l, rfl⟩ ⟨r, rfl⟩
  exact ⟨_, rfl⟩

variable {vs : List Value}

theorem exists_ints (numbers : ∀ v ∈ vs, IsNumber v) : ∃ ints : List Int, vs = ints.map .int := by
  have inRange : vs ∈ Set.range (List.map Value.int) := by
    rw [Set.range_list_map]
    intro v hm
    obtain ⟨n, rfl⟩ := numbers v hm
    exact ⟨n, rfl⟩
  obtain ⟨ints, hs⟩ := inRange
  exact ⟨ints, hs.symm⟩

theorem distinct_map_int (ns : List Int) :
    distinct (ns.map .int) = (firstOfEach id [] ns).map .int := by
  have alike (n other : Int) : (Value.int n).alike (.int other) = decide (n = other) := by
    have defined : (Value.int n).sameNaN (.int other) = false := by simp [Value.sameNaN]
    rw [Value.alike, defined, Value.same_eq (Value.rational?_int n) (Value.rational?_int other)]
    simp
  have among (n : Int) (taken : List Int) :
      (Value.int n).among (taken.map .int).reverse = true ↔ n ∈ taken := by
    simp [Value.among, alike]
  -- the fold keeps what it took in reverse
  have walk := foldl_firstOfEach id [] some (fun (kept : List Value) (n : Int) =>
      if (Value.int n).among kept then kept else .int n :: kept)
    (fun taken => (taken.map .int).reverse)
    (fun taken n => by by_cases hk : n ∈ taken <;> simp [among]) ns []
  rw [distinct, foldl_map]
  simpa using congrArg List.reverse walk

def valueOr {α : Type} (other : α) : Outcome α → α
  | .ok v => v
  | .error _ => other

def chosen (test : Value → Outcome Bool) (v : Value) : Bool :=
  valueOr false (test v)

variable {test : Value → Outcome Bool} {v : Value}

theorem chosen_iff : chosen test v = true ↔ test v = .ok true := by
  rw [chosen]
  cases test v <;> simp [valueOr]

theorem filterAuxM_eq_ok_iff {kept r : List Value} :
    vs.filterAuxM test kept = .ok r ↔ (∀ v ∈ vs, ∃ flag, test v = .ok flag) ∧
        r = (vs.filter (chosen test)).reverse ++ kept := by
  induction vs generalizing kept with
  | nil => exact ⟨fun hd => ⟨forall_mem_nil _, (Except.ok.inj hd).symm⟩,
      fun ⟨_, hs⟩ => congrArg Except.ok hs.symm⟩
  | cons head tl ih =>
    rw [forall_mem_cons, filter_cons, chosen]
    change (test head >>= fun flag => tl.filterAuxM test (cond flag (head :: kept) kept)) = _ ↔ _
    cases test head with
    | error err => exact ⟨nofun, fun ⟨⟨⟨_, yields⟩, _⟩, _⟩ => nomatch yields⟩
    | ok flag =>
      change tl.filterAuxM test (cond flag (head :: kept) kept) = _ ↔ _
      rw [ih]
      cases flag <;> simp [valueOr]

theorem filterM_eq_ok_iff {r : List Value} :
    vs.filterM test = .ok r ↔
      (∀ v ∈ vs, ∃ flag, test v = .ok flag) ∧ r = vs.filter (chosen test) := by
  rw [List.filterM, bind_eq_ok]
  simp only [filterAuxM_eq_ok_iff, append_nil]
  constructor
  · rintro ⟨_, ⟨decided, rfl⟩, hs⟩
    cases hs
    exact ⟨decided, reverse_reverse _⟩
  · rintro ⟨decided, rfl⟩
    exact ⟨_, ⟨decided, rfl⟩, congrArg Except.ok (reverse_reverse _)⟩

theorem greater_zero (n : Int) : (Value.int n).greater (.int 0) = .ok (decide (0 < n)) := by
  rw [Value.greater_eq (Value.rational?_int n) (Value.rational?_int 0)]
  simp only [Int.cast_lt]

variable {lines : List Value}

theorem positiveLines_rising (numbers : ∀ ln ∈ lines, IsNumber ln) :
    ∃ rising : List Int, positiveLines lines = .ok (rising.map .int) ∧ rising.Pairwise (· < ·) ∧
      ∀ n, n ∈ rising ↔ .int n ∈ lines ∧ 0 < n := by
  obtain ⟨ints, rfl⟩ := exists_ints numbers
  have filtered : (ints.map Value.int).filterM (fun ln => ln.greater (.int 0)) =
      .ok ((ints.filter (0 < ·)).map .int) := by
    refine filterM_eq_ok_iff.mpr ⟨?_, ?_⟩
    · simp only [forall_mem_map]
      exact fun n _ => ⟨_, rfl⟩
    · simp [filter_map, Function.comp_def, chosen, greater_zero, valueOr]
  have once : OncePer id (ints.filter (0 < ·)) (firstOfEach id [] (ints.filter (0 < ·))) :=
    oncePer_firstOfEach
  have also : ∀ ln ∈ (firstOfEach id [] (ints.filter (0 < ·))).map Value.int, IsNumber ln := by
    simp [IsNumber]
  obtain ⟨r, sorted⟩ := decides_less.sort also
  have perm := Sorting.perm_of_sort sorted
  obtain ⟨rising, rfl⟩ := exists_ints fun ln hm => by
    obtain ⟨n, _, rfl⟩ := mem_map.mp (perm.mem_iff.mp hm)
    exact ⟨n, rfl⟩
  have hs : rising.Perm (firstOfEach id [] (ints.filter (0 < ·))) :=
    (map_perm_map_iff fun _ _ => Value.int.inj).mp perm
  have order : rising.Pairwise (· ≤ ·) := by
    have ranked := (Value.ranks_rational? "<").order_sort (fun ln hm => by
      obtain ⟨n, _, rfl⟩ := mem_map.mp hm
      rfl) sorted
    simpa [pairwise_map, Value.rational?_int] using ranked
  have apart : rising.Nodup := hs.nodup_iff.mpr (by simpa using once.distinct)
  refine ⟨rising, ?_, (order.and apart).imp fun both => lt_of_le_of_ne both.1 both.2, ?_⟩
  · rw [positiveLines, bind_ok filtered, distinct_map_int]
    exact sorted
  · intro n
    have kept : n ∈ firstOfEach id [] (ints.filter (0 < ·)) ↔ n ∈ ints ∧ 0 < n := by
      simpa using once.complete n
    rw [hs.mem_iff, kept, mem_map_of_injective fun _ _ => Value.int.inj]

theorem compared_of_positiveLines {r : List Value} (hd : positiveLines lines = .ok r) :
    ∀ ln ∈ lines, ∃ flag, ln.greater (.int 0) = .ok flag := by
  obtain ⟨positive, filtered, _⟩ := bind_eq_ok.mp hd
  exact (filterM_eq_ok_iff.mp filtered).1

/-! ## Evidence -/

def gather (chooses : Value → Outcome Bool) (lineOf : Value → Outcome Value) :
    List Value → Outcome Evidence
  | [] => .ok Evidence.empty
  | f :: tl => do
    if ← chooses f then
      let ln ← lineOf f
      let (ev, ls) ← gather chooses lineOf tl
      return (f :: ev, ln :: ls)
    else gather chooses lineOf tl

def ruleHolds (w : String) (f : Value) : Outcome Bool := do
  (← f.getD "rule_id" (.text "")).holdsWord w

def executes (f : Value) : Outcome Bool := do
  if ← ruleHolds "rce_" f then return true
  else (← f.getD "matched_text" (.text "")).holdsWord "os.system"

def startsOther (fl : Value) : Outcome Bool := do
  let sink ← fl.getD "sink" (.text "")
  if Str.startsWith "os.system" (← sink.asText "startswith") then return true
  else sink.holdsWord "subprocess"

def injects (fl : Value) : Outcome Bool := do
  let src ← (← fl.getD "source" (.text "")).asText "startswith"
  if Str.startsWith "sys.argv" src then
    let sink ← (← fl.getD "sink" (.text "")).asText "startswith"
    return Str.startsWith "os.system" sink
  else return false

theorem ruleEvidence_eq_gather (w : String) (vs : List Value) :
    ruleEvidence w vs = gather (ruleHolds w) (fun f => f.getD "line" (.int 0)) vs := by
  induction vs with
  | nil => rfl
  | cons f tl ih =>
    rw [ruleEvidence, gather, ruleHolds, bind_assoc, ih]

theorem executionMatches_eq_gather (vs : List Value) :
    executionMatches vs = gather executes (fun f => f.getD "line" (.int 0)) vs := by
  induction vs with
  | nil => rfl
  | cons f tl ih =>
    rw [executionMatches, gather, executes, ruleHolds, ih]
    simp only [bind_assoc, Outcome.ite_bind]

theorem executionFlows_eq_gather (vs : List Value) :
    executionFlows vs = gather startsOther (fun fl => fl.getD "sink_line" (.int 0)) vs := by
  induction vs with
  | nil => rfl
  | cons fl tl ih =>
    rw [executionFlows, gather, startsOther, ih]
    simp only [bind_assoc, Outcome.ite_bind]

theorem commandFlows_eq_gather (vs : List Value) :
    commandFlows vs = gather injects (fun fl => fl.getD "sink_line" (.int 0)) vs := by
  induction vs with
  | nil => rfl
  | cons fl tl ih =>
    rw [commandFlows, gather, injects, ih]
    simp only [bind_assoc, Outcome.ite_bind]

def select (test : Value → Outcome Bool) (k : String) (fnds : List Value) : Evidence :=
  (fnds.filter (chosen test),
    (fnds.filter (chosen test)).map fun fnd => valueOr .null (fnd.getD k (.int 0)))

variable {k : String} {found : Evidence}

theorem gather_eq_ok_iff :
    gather test (fun fnd => fnd.getD k (.int 0)) vs = .ok found ↔
      (∀ v ∈ vs, ∃ flag, test v = .ok flag ∧ (flag = true → ∃ ln, v.getD k (.int 0) = .ok ln)) ∧
        found = select test k vs := by
  induction vs generalizing found with
  | nil => exact ⟨fun hd => ⟨forall_mem_nil _, (Except.ok.inj hd).symm⟩,
      fun ⟨_, hs⟩ => congrArg Except.ok hs.symm⟩
  | cons head tl ih =>
    rw [gather, forall_mem_cons, select, filter_cons, chosen]
    cases test head with
    | error err => exact ⟨nofun, fun ⟨⟨⟨_, yields, _⟩, _⟩, _⟩ => nomatch yields⟩
    | ok flag =>
      cases flag with
      | false =>
        change gather _ _ tl = _ ↔ _
        rw [ih]
        simp [valueOr, select]
      | true =>
        change (head.getD k (.int 0) >>= fun ln => gather _ _ tl >>= fun taken =>
          .ok (head :: taken.1, ln :: taken.2)) = _ ↔ _
        rw [bind_eq_ok]
        simp only [bind_eq_ok, ih]
        constructor
        · rintro ⟨ln, own, _, ⟨decided, rfl⟩, hs⟩
          cases hs
          exact ⟨⟨⟨true, rfl, fun _ => ⟨ln, own⟩⟩, decided⟩, by simp [valueOr, select, own]⟩
        · rintro ⟨⟨⟨_, yields, placed⟩, decided⟩, rfl⟩
          cases yields
          obtain ⟨ln, own⟩ := placed rfl
          exact ⟨ln, own, _, ⟨decided, rfl⟩, by simp [valueOr, select, own]⟩

theorem networkEvidence_eq {activities : List Value} (hd : networkEvidence activities = .ok found) :
    found = (activities, activities.flatMap fun activity => valueOr [] (activityLines activity)) := by
  induction activities generalizing found with
  | nil =>
    cases hd
    rfl
  | cons activity tl ih =>
    obtain ⟨own, hr, later⟩ := bind_eq_ok.mp hd
    obtain ⟨others, walked, hs⟩ := bind_eq_ok.mp later
    cases hs
    rw [ih walked, flatMap_cons, hr]
    rfl

def listedLines (fnd : Value) : List Value :=
  valueOr [] (do ((← fnd.getD "line_numbers" (.list [])).orElse (.list [])).items)

theorem ownLines_eq {fnds : List Value} (hd : ownLines fnds = .ok lines) :
    lines = fnds.flatMap listedLines := by
  induction fnds generalizing lines with
  | nil =>
    cases hd
    rfl
  | cons fnd tl ih =>
    obtain ⟨listed, hr, later⟩ := bind_eq_ok.mp hd
    obtain ⟨own, items, later⟩ := bind_eq_ok.mp later
    obtain ⟨others, walked, hs⟩ := bind_eq_ok.mp later
    cases hs
    rw [flatMap_cons, ← ih walked, listedLines, bind_ok hr, items, valueOr]

def usesInterface (fnd : Value) : Bool :=
  (valueOr .null (fnd.get "type")).same (.text "memory_api")

theorem anyMemoryInterface_eq {fnds : List Value} {flag : Bool}
    (hd : anyMemoryInterface fnds = .ok flag) : flag = fnds.any usesInterface := by
  induction fnds with
  | nil =>
    cases hd
    rfl
  | cons fnd tl ih =>
    obtain ⟨named, hr, later⟩ := bind_eq_ok.mp hd
    rw [any_cons, usesInterface, hr, valueOr]
    cases own : named.same (.text "memory_api") with
    | true =>
      rw [own] at later
      cases later
      rfl
    | false =>
      rw [own] at later
      exact ih later

def opensSensitive (activity : Value) : Outcome Bool := do
  return (← activity.get "is_sensitive").truthy

def crashed (r : Value) : Outcome Bool := do
  if (← r.getD "crashed" (.bool false)).truthy then
    return !(← r.getD "timed_out" (.bool false)).truthy
  else return false

/-! ## The kinds of threats and what they take -/

structure FindingLists where
  matched : List Value
  flows : List Value
  activities : List Value
  calls : List Value
  fuzzed : List Value
  files : List Value
  memory : List Value

def FindingLists.observations (lists : FindingLists) : Observations :=
  { patternMatches := .list lists.matched, taintFlows := .list lists.flows
    networkActivities := .list lists.activities, syscalls := .list lists.calls
    fuzzResults := .list lists.fuzzed, fileActivities := .list lists.files
    memoryFindings := .list lists.memory }

structure Selection where
  kind : String
  severity : Severity
  found : Evidence

def Evidence.append (a b : Evidence) : Evidence :=
  (a.1 ++ b.1, a.2 ++ b.2)

/-- A kind of threat is reported once if there is evidence for it, and not at all otherwise. -/
inductive Told (sel : Selection) : List Threat → Prop where
  | silent (none : sel.found.1 = []) : Told sel []
  | reported {th : Threat} (some : sel.found.1 ≠ [])
      (kind : th.kind = sel.kind) (severity : th.severity = sel.severity)
      (evidence : th.evidence = .list sel.found.1)
      (lines : positiveLines sel.found.2 = .ok th.lines) : Told sel [th]

theorem told_threatOf {k desc : String} {sev : Severity} {ths : List Threat}
    (hd : threatOf k sev desc (.list found.1) found.2 = .ok ths) : Told ⟨k, sev, found⟩ ths := by
  obtain ⟨ev, ls⟩ := found
  cases ev with
  | nil =>
    cases hd
    exact .silent rfl
  | cons head tl =>
    obtain ⟨ordered, sorted, hs⟩ := bind_eq_ok.mp hd
    cases hs
    exact .reported (cons_ne_nil head tl) rfl rfl rfl sorted

theorem told_gather {kd desc : String} {sev : Severity} {ths : List Threat}
    (hd : (gather test (fun fnd => fnd.getD k (.int 0)) vs >>= fun f =>
      threatOf kd sev desc (.list f.1) f.2) = .ok ths) : Told ⟨kd, sev, select test k vs⟩ ths := by
  obtain ⟨f, walked, hrep⟩ := bind_eq_ok.mp hd
  rw [← (gather_eq_ok_iff.mp walked).2]
  exact told_threatOf hrep

theorem told_filterM {k desc : String} {sev : Severity} {ths : List Threat} (hd : (do
      let ev ← vs.filterM test if ev.isEmpty then return []
      threatOf k sev desc (.list ev) (← ownLines ev)) = .ok ths) :
    Told ⟨k, sev, vs.filter (chosen test), (vs.filter (chosen test)).flatMap listedLines⟩ ths := by
  obtain ⟨ev, kept, later⟩ := bind_eq_ok.mp hd
  rw [← (filterM_eq_ok_iff.mp kept).2]
  cases ev with
  | nil =>
    cases later
    exact .silent rfl
  | cons head tl =>
    obtain ⟨ls, walked, hrep⟩ := bind_eq_ok.mp later
    rw [← ownLines_eq walked]
    exact told_threatOf hrep

namespace FindingLists

theorem remoteExecution_observations (lists : FindingLists) :
    lists.observations.remoteExecution =
      (executionMatches lists.matched >>= fun f => executionFlows lists.flows >>= fun ended =>
        threatOf "RCE" .critical "Remote code execution detected via os.system/subprocess calls"
          (.list (f.1 ++ ended.1 ++ (executionCalls lists.calls).1))
          (f.2 ++ ended.2 ++ (executionCalls lists.calls).2)) := rfl

theorem byRule_observations (lists : FindingLists) (w k : String) (sev : Severity) (desc : String) :
    lists.observations.byRule w k sev desc = (ruleEvidence w lists.matched >>= fun f =>
        threatOf k sev desc (.list f.1) f.2) := rfl

def alerts (lists : FindingLists) : Evidence :=
  if lists.activities.isEmpty then networkAlerts lists.calls else Evidence.empty

theorem networkExfiltration_observations (lists : FindingLists) :
    lists.observations.networkExfiltration = (ruleEvidence "network_" lists.matched >>= fun f =>
        networkEvidence lists.activities >>= fun seen =>
          threatOf "Network Exfiltration" .medium
            "Network connection activity detected: potential data exfiltration"
            (.list (f.1 ++ seen.1 ++ lists.alerts.1)) (f.2 ++ seen.2 ++ lists.alerts.2)) := by
  rw [alerts, observations]
  cases lists.activities with
  | nil => rfl
  | cons head tl => rfl

theorem memoryInjection_observations {lists : FindingLists} (some : lists.memory ≠ []) :
    lists.observations.memoryInjection =
      (anyMemoryInterface lists.memory >>= fun isInterface => ownLines lists.memory >>= fun ls =>
        threatOf "Memory Injection" (if isInterface then .high else .medium)
          "Runtime code execution or memory API usage detected" (.list lists.memory) ls) := by
  rw [observations]
  cases hf : lists.memory with
  | nil => exact absurd hf some
  | cons head tl => rfl

def selections (lists : FindingLists) : List Selection :=
  let named (w : String) := select (ruleHolds w) "line" lists.matched
  [⟨"RCE", .critical, ((select executes "line" lists.matched).append
      (select startsOther "sink_line" lists.flows)).append (executionCalls lists.calls)⟩,
    ⟨"Command Injection", .critical, select injects "sink_line" lists.flows⟩,
    ⟨"WebShell", .critical, named "webshell_"⟩, ⟨"Backdoor", .high, named "backdoor_"⟩,
    ⟨"SQL Injection", .high, named "sql_injection"⟩,
    ⟨"Network Exfiltration", .medium, ((named "network_").append (lists.activities,
      lists.activities.flatMap fun activity => valueOr [] (activityLines activity))).append
        lists.alerts⟩, ⟨"File Operation Risk", .medium, named "file_"⟩,
    ⟨"Sensitive File Access", .high, lists.files.filter (chosen opensSensitive),
      (lists.files.filter (chosen opensSensitive)).flatMap listedLines⟩,
    ⟨"Runtime Vulnerability", .medium, lists.fuzzed.filter (chosen crashed),
      (lists.fuzzed.filter (chosen crashed)).flatMap listedLines⟩,
    ⟨"Memory Injection", if lists.memory.any usesInterface then .high else .medium, lists.memory,
      lists.memory.flatMap listedLines⟩]

variable {lists : FindingLists} {ths : List Threat}

theorem told_remoteExecution (hd : lists.observations.remoteExecution = .ok ths) :
    Told ⟨"RCE", .critical, ((select executes "line" lists.matched).append
      (select startsOther "sink_line" lists.flows)).append (executionCalls lists.calls)⟩ ths := by
  rw [remoteExecution_observations, executionMatches_eq_gather, executionFlows_eq_gather] at hd
  obtain ⟨f, walked, later⟩ := bind_eq_ok.mp hd
  obtain ⟨ended, walkedFlows, hrep⟩ := bind_eq_ok.mp later
  rw [← (gather_eq_ok_iff.mp walked).2, ← (gather_eq_ok_iff.mp walkedFlows).2]
  exact told_threatOf hrep

theorem told_commandInjection (hd : lists.observations.commandInjection = .ok ths) :
    Told ⟨"Command Injection", .critical, select injects "sink_line" lists.flows⟩ ths := by
  apply told_gather
  rw [← commandFlows_eq_gather]
  exact hd

theorem told_byRule {w k : String} {sev : Severity} {desc : String}
    (hd : lists.observations.byRule w k sev desc = .ok ths) :
    Told ⟨k, sev, select (ruleHolds w) "line" lists.matched⟩ ths := by
  rw [byRule_observations, ruleEvidence_eq_gather] at hd
  exact told_gather hd

theorem told_networkExfiltration (hd : lists.observations.networkExfiltration = .ok ths) :
    Told ⟨"Network Exfiltration", .medium,
      ((select (ruleHolds "network_") "line" lists.matched).append (lists.activities,
        lists.activities.flatMap fun activity => valueOr [] (activityLines activity))).append
          lists.alerts⟩ ths := by
  rw [networkExfiltration_observations, ruleEvidence_eq_gather] at hd
  obtain ⟨f, walked, later⟩ := bind_eq_ok.mp hd
  obtain ⟨seen, walkedActivities, hrep⟩ := bind_eq_ok.mp later
  rw [← (gather_eq_ok_iff.mp walked).2, ← networkEvidence_eq walkedActivities]
  exact told_threatOf hrep

theorem told_memoryInjection (hd : lists.observations.memoryInjection = .ok ths) :
    Told ⟨"Memory Injection", if lists.memory.any usesInterface then .high else .medium,
      lists.memory, lists.memory.flatMap listedLines⟩ ths := by
  by_cases empty : lists.memory = []
  · rw [observations, empty] at hd
    cases hd
    exact .silent empty
  · rw [memoryInjection_observations empty] at hd
    obtain ⟨flag, looked, later⟩ := bind_eq_ok.mp hd
    obtain ⟨ls, walked, hrep⟩ := bind_eq_ok.mp later
    rw [← anyMemoryInterface_eq looked, ← ownLines_eq walked]
    exact told_threatOf hrep

theorem told_threats (hd : lists.observations.threats = .ok ths) :
    ∃ parts : List (List Threat), ths = parts.flatten ∧ Forall₂ Told lists.selections parts := by
  obtain ⟨execution, executed, rest⟩ := bind_eq_ok.mp hd
  obtain ⟨injection, injected, rest⟩ := bind_eq_ok.mp rest
  obtain ⟨shells, foundShells, rest⟩ := bind_eq_ok.mp rest
  obtain ⟨backdoors, foundBackdoors, rest⟩ := bind_eq_ok.mp rest
  obtain ⟨queries, foundQueries, rest⟩ := bind_eq_ok.mp rest
  obtain ⟨network, foundNetwork, rest⟩ := bind_eq_ok.mp rest
  obtain ⟨risks, foundRisks, rest⟩ := bind_eq_ok.mp rest
  obtain ⟨sensitive, foundSensitive, rest⟩ := bind_eq_ok.mp rest
  obtain ⟨crashes, foundCrashes, rest⟩ := bind_eq_ok.mp rest
  obtain ⟨memory, foundMemory, hs⟩ := bind_eq_ok.mp rest
  cases hs
  refine ⟨[execution, injection, shells, backdoors, queries, network, risks, sensitive, crashes,
    memory], by simp, ?_⟩
  exact .cons (told_remoteExecution executed) (.cons (told_commandInjection injected)
    (.cons (told_byRule foundShells) (.cons (told_byRule foundBackdoors)
    (.cons (told_byRule foundQueries) (.cons (told_networkExfiltration foundNetwork)
    (.cons (told_byRule foundRisks) (.cons (told_filterM foundSensitive)
    (.cons (told_filterM foundCrashes) (.cons (told_memoryInjection foundMemory) .nil)))))))))

end FindingLists

/-! ## What threats cite -/

def Threat.Cites (th : Threat) (fnd : Value) : Prop :=
  ∃ xs, th.evidence = .list xs ∧ fnd ∈ xs

section

variable {sels : List Selection} {parts : List (List Threat)}

theorem exists_told_iff {P : Threat → Prop} {holds : Selection → Prop}
    (told : Forall₂ Told sels parts) (each : ∀ sel ∈ sels, ∀ part, Told sel part →
      ((∃ th ∈ part, P th) ↔ holds sel)) :
    (∃ th ∈ parts.flatten, P th) ↔ ∃ sel ∈ sels, holds sel := by
  induction told with
  | nil => simp
  | cons h1 _ ih =>
    obtain ⟨hh, later⟩ := forall_mem_cons.mp each
    simp only [flatten_cons, mem_append, or_and_right, exists_or,
      exists_mem_cons_iff, hh _ h1, ih later]

theorem cites_iff (told : Forall₂ Told sels parts) {fnd : Value} :
    (∃ th ∈ parts.flatten, th.Cites fnd) ↔ ∃ sel ∈ sels, fnd ∈ sel.found.1 := by
  refine exists_told_iff told fun sel _ part told => ?_
  cases told with
  | silent none => simp [none]
  | reported _ _ _ evidence _ => simp [Threat.Cites, evidence]

end

theorem mem_select {fnd : Value} : fnd ∈ (select test k vs).1 ↔ fnd ∈ vs ∧ test fnd = .ok true := by
  rw [select, mem_filter, chosen_iff]

def Numbered (test : Value → Outcome Bool) (k : String) (fnds : List Value) : Prop :=
  ∀ fnd ∈ fnds, ∃ flag, test fnd = .ok flag ∧
    (flag = true → ∃ n, fnd.getD k (.int 0) = .ok (.int n))

theorem mem_lines_of_numbered (numbered : Numbered test k vs) {ln : Value} :
    ln ∈ (select test k vs).2 ↔ ∃ fnd ∈ vs, test fnd = .ok true ∧
      fnd.getD k (.int 0) = .ok ln ∧ IsNumber ln := by
  rw [select, mem_map]
  simp only [mem_filter, chosen_iff, and_assoc]
  refine exists_congr fun fnd => and_congr_right fun hm => and_congr_right fun chosen => ?_
  obtain ⟨flag, tested, placed⟩ := numbered fnd hm
  rw [chosen] at tested
  cases tested
  obtain ⟨n, hr⟩ := placed rfl
  rw [hr]
  constructor
  · rintro rfl
    exact ⟨rfl, n, rfl⟩
  · rintro ⟨hs, _⟩
    cases hs
    rfl

theorem gather_of_numbered (numbered : Numbered test k vs) :
    gather test (fun fnd => fnd.getD k (.int 0)) vs = .ok (select test k vs) ∧
      ∀ ln ∈ (select test k vs).2, IsNumber ln := by
  refine ⟨gather_eq_ok_iff.mpr ⟨fun fnd hm => ?_, rfl⟩, fun ln hm => ?_⟩
  · obtain ⟨flag, tested, placed⟩ := numbered fnd hm
    exact ⟨flag, tested, fun chosen => (placed chosen).imp' Value.int fun _ hr => hr⟩
  · obtain ⟨_, _, _, _, isNumber⟩ := (mem_lines_of_numbered numbered).mp hm
    exact isNumber

theorem isNumber_append {a b : Evidence} (one : ∀ ln ∈ a.2, IsNumber ln)
    (two : ∀ ln ∈ b.2, IsNumber ln) : ∀ ln ∈ (a.append b).2, IsNumber ln :=
  forall_mem_append.mpr ⟨one, two⟩

theorem exists_threatOf {k desc : String} {sev : Severity} (numbers : ∀ ln ∈ found.2, IsNumber ln) :
    ∃ ths, threatOf k sev desc (.list found.1) found.2 = .ok ths := by
  obtain ⟨rising, hd, _⟩ := positiveLines_rising numbers
  obtain ⟨ev, ls⟩ := found
  cases ev with
  | nil => exact ⟨[], rfl⟩
  | cons head tl => exact ⟨_, bind_ok hd⟩

/-! ## Findings of the static pass -/

def FindingLists.ofStatic (matched flows : List Value) : FindingLists :=
  { matched, flows, activities := [], calls := [], fuzzed := [], files := [], memory := [] }

def ruleWords : List String :=
  ["webshell_", "backdoor_", "sql_injection", "network_", "file_"]

def Taken (matched fls : List Value) (fnd : Value) : Prop :=
  (fnd ∈ matched ∧ (executes fnd = .ok true ∨ ∃ w ∈ ruleWords, ruleHolds w fnd = .ok true)) ∨
    (fnd ∈ fls ∧ (startsOther fnd = .ok true ∨ injects fnd = .ok true))

theorem taken_iff {matched fls : List Value} {fnd : Value} :
    (∃ sel ∈ (FindingLists.ofStatic matched fls).selections,
      fnd ∈ sel.found.1) ↔ Taken matched fls fnd := by
  have quiet : executionCalls [] = ([], []) := rfl
  have calm : networkAlerts [] = ([], []) := rfl
  simp only [FindingLists.selections, FindingLists.ofStatic, FindingLists.alerts, Evidence.append,
    quiet, calm, isEmpty_nil, if_true, exists_mem_cons_iff, mem_append, mem_select, filter_nil,
    not_mem_nil, false_and, exists_false]
  simp only [Taken, ruleWords, mem_cons, not_mem_nil, or_false, exists_eq_or_imp,
    exists_eq_left, and_or_left]
  -- both sides are the same cases in different orders
  simp only [or_assoc, or_comm, or_left_comm]

def Searchable (v : Value) : Prop :=
  v.kind ∈ [Kind.text, Kind.list, Kind.tuple, Kind.record]

theorem holdsWord_ok_iff {w : String} {v : Value} :
    (∃ flag, v.holdsWord w = .ok flag) ↔ Searchable v := by
  cases v <;> simp [Value.holdsWord, Searchable, Value.kind]

structure MatchShape (found : Value) : Prop where
  text : ∃ content, found.getD "matched_text" (.text "") = .ok (.text content)
  line : ∃ number, found.getD "line" (.int 0) = .ok (.int number)

/-- The fields of a flow; a flow without a place in the source has a null for its line. -/
structure FlowShape (flow : Value) : Prop where
  source : ∃ content, flow.getD "source" (.text "") = .ok (.text content)
  sink : ∃ content, flow.getD "sink" (.text "") = .ok (.text content)
  line : ∃ line, flow.getD "sink_line" (.int 0) = .ok line ∧ (line = .null ∨ IsNumber line)

/-- Findings in which identification can read all that it needs. -/
structure Legible (matched flows : List Value) : Prop where
  severities : ∀ found ∈ matched, ∃ word, found.getD "severity" (.text "medium") = .ok (.text word)
  rules : ∀ found ∈ matched, ∃ rule, found.getD "rule_id" (.text "") = .ok rule ∧ Searchable rule
  lines : ∀ flow ∈ flows, startsOther flow = .ok true →
    ∃ number, flow.getD "sink_line" (.int 0) = .ok (.int number)

theorem Legible.ruleHolds {matched fls : List Value} (hleg : Legible matched fls) (w : String) :
    ∀ f ∈ matched, ∃ flag, Findings.ruleHolds w f = .ok flag := by
  intro f hm
  obtain ⟨rl, hr, searchable⟩ := hleg.rules f hm
  obtain ⟨flag, held⟩ := holdsWord_ok_iff.mpr searchable
  exact ⟨flag, (bind_ok hr).trans held⟩

variable {fnd : Value}

theorem executes_eq {flag : Bool} {c : String} (held : ruleHolds "rce_" fnd = .ok flag)
    (text : fnd.getD "matched_text" (.text "") = .ok (.text c)) :
    executes fnd = .ok (flag || Str.occurs "os.system" c) := by
  rw [executes, bind_ok held]
  cases flag with
  | true => rfl
  | false => exact bind_ok text

variable {fl : Value}

theorem startsOther_eq {sink : String} (hr : fl.getD "sink" (.text "") = .ok (.text sink)) :
    startsOther fl = .ok (Str.startsWith "os.system" sink || Str.occurs "subprocess" sink) := by
  rw [startsOther, bind_ok hr]
  have spelled : (Value.text sink).asText "startswith" = .ok sink := rfl
  rw [bind_ok spelled]
  cases Str.startsWith "os.system" sink <;> rfl

theorem injects_eq {src sink : String} (from_ : fl.getD "source" (.text "") = .ok (.text src))
    (into : fl.getD "sink" (.text "") = .ok (.text sink)) :
    injects fl = .ok (Str.startsWith "sys.argv" src && Str.startsWith "os.system" sink) := by
  rw [injects, bind_ok from_, into]
  have spelled : (Value.text src).asText "startswith" = .ok src := rfl
  rw [bind_ok spelled]
  cases Str.startsWith "sys.argv" src <;> rfl

theorem FlowShape.startsOther_of_injects (shape : FlowShape fl)
    (injected : injects fl = .ok true) : startsOther fl = .ok true := by
  obtain ⟨src, from_⟩ := shape.source
  obtain ⟨sink, into⟩ := shape.sink
  rw [injects_eq from_ into, Except.ok.injEq, Bool.and_eq_true] at injected
  rw [startsOther_eq into, injected.2, Bool.true_or]

section

variable {matched flows : List Value} (hleg : Legible matched flows)
  (shapes : ∀ found ∈ matched, MatchShape found) (flowShapes : ∀ fl ∈ flows, FlowShape fl)

include hleg shapes in
theorem numbered_ruleHolds (w : String) : Numbered (ruleHolds w) "line" matched := by
  intro f hm
  obtain ⟨flag, held⟩ := hleg.ruleHolds w f hm
  exact ⟨flag, held, fun _ => (shapes f hm).line⟩

include hleg shapes in
theorem numbered_executes : Numbered executes "line" matched := by
  intro f hm
  obtain ⟨flag, held⟩ := hleg.ruleHolds "rce_" f hm
  obtain ⟨c, text⟩ := (shapes f hm).text
  exact ⟨_, executes_eq held text, fun _ => (shapes f hm).line⟩

include hleg flowShapes in
theorem numbered_startsOther : Numbered startsOther "sink_line" flows := by
  intro fl hm
  obtain ⟨sink, hr⟩ := (flowShapes fl hm).sink
  refine ⟨_, startsOther_eq hr, fun chosen => hleg.lines fl hm ?_⟩
  rw [startsOther_eq hr, chosen]

include hleg flowShapes in
theorem numbered_injects : Numbered injects "sink_line" flows := by
  intro fl hm
  obtain ⟨src, from_⟩ := (flowShapes fl hm).source
  obtain ⟨sink, into⟩ := (flowShapes fl hm).sink
  refine ⟨_, injects_eq from_ into, fun chosen => hleg.lines fl hm ?_⟩
  refine (flowShapes fl hm).startsOther_of_injects ?_
  rw [injects_eq from_ into, chosen]

include hleg shapes flowShapes in
theorem exists_threats :
    ∃ ths, (FindingLists.ofStatic matched flows).observations.threats = .ok ths := by
  obtain ⟨walked, numbers⟩ := gather_of_numbered (numbered_executes hleg shapes)
  obtain ⟨walkedFlows, flowNumbers⟩ := gather_of_numbered (numbered_startsOther hleg flowShapes)
  obtain ⟨walkedAlso, alsoNumbers⟩ := gather_of_numbered (numbered_injects hleg flowShapes)
  obtain ⟨walkedNetwork, networkNumbers⟩ :=
    gather_of_numbered (numbered_ruleHolds hleg shapes "network_")
  have nothing : ∀ ln ∈ Evidence.empty.2, IsNumber ln := forall_mem_nil _
  have step {a : Outcome (List Threat)} {next : List Threat → Outcome (List Threat)}
      (hb : ∃ part, a = .ok part) (goes : ∀ part, ∃ ths, next part = .ok ths) :
      ∃ ths, (a >>= next) = .ok ths := by
    obtain ⟨part, hb⟩ := hb
    exact (goes part).imp fun _ => (bind_ok hb).trans
  have byRule (w k : String) (sev : Severity) (desc : String) :
      ∃ part, (FindingLists.ofStatic matched flows).observations.byRule w k sev
        desc = .ok part := by
    obtain ⟨walked, numbers⟩ := gather_of_numbered (numbered_ruleHolds hleg shapes w)
    rw [FindingLists.byRule_observations, ruleEvidence_eq_gather]
    exact (exists_threatOf numbers).imp fun _ => (bind_ok walked).trans
  rw [← executionMatches_eq_gather] at walked
  rw [← executionFlows_eq_gather] at walkedFlows
  rw [← commandFlows_eq_gather] at walkedAlso
  rw [← ruleEvidence_eq_gather] at walkedNetwork
  refine step ?_ fun _ => step ?_ fun _ => step (byRule _ _ _ _) fun _ => step (byRule _ _ _ _)
    fun _ => step (byRule _ _ _ _) fun _ => step ?_ fun _ => step (byRule _ _ _ _) fun _ => ⟨_, rfl⟩
  · obtain ⟨part, told⟩ := exists_threatOf
      (isNumber_append (isNumber_append numbers flowNumbers) nothing)
    exact ⟨part, (bind_ok walked).trans ((bind_ok walkedFlows).trans told)⟩
  · exact (exists_threatOf alsoNumbers).imp fun _ => (bind_ok walkedAlso).trans
  · obtain ⟨part, told⟩ := exists_threatOf
      (isNumber_append (isNumber_append networkNumbers nothing) nothing)
    exact ⟨part, (bind_ok walkedNetwork).trans told⟩

end

theorem searchable_of_executes {flag : Bool} (tested : executes fnd = .ok flag) :
    ∃ rl, fnd.getD "rule_id" (.text "") = .ok rl ∧ Searchable rl := by
  obtain ⟨held, looked, _⟩ := bind_eq_ok.mp tested
  obtain ⟨rl, hr, searched⟩ := bind_eq_ok.mp looked
  exact ⟨rl, hr, holdsWord_ok_iff.mp ⟨held, searched⟩⟩

theorem legible_of_threats {matched fls : List Value} {ths : List Threat}
    (flowShapes : ∀ fl ∈ fls, FlowShape fl)
    (worded : ∀ f ∈ matched, ∃ w, f.getD "severity" (.text "medium") = .ok (.text w))
    (hd : (FindingLists.ofStatic matched fls).observations.threats = .ok ths) :
    Legible matched fls := by
  obtain ⟨execution, executed, _⟩ := bind_eq_ok.mp hd
  have told := FindingLists.told_remoteExecution executed
  rw [FindingLists.remoteExecution_observations, executionMatches_eq_gather,
    executionFlows_eq_gather] at executed
  obtain ⟨ev, walked, later⟩ := bind_eq_ok.mp executed
  obtain ⟨ended, walkedFlows, _⟩ := bind_eq_ok.mp later
  refine { severities := worded, rules := fun f hm => ?_, lines := ?_ }
  · obtain ⟨flag, hk, _⟩ := (gather_eq_ok_iff.mp walked).1 f hm
    exact searchable_of_executes hk
  · intro fl hm chosen
    obtain ⟨flag, hk, placed⟩ := (gather_eq_ok_iff.mp walkedFlows).1 fl hm
    rw [chosen] at hk
    cases hk
    obtain ⟨ln, hr⟩ := placed rfl
    have cited : fl ∈ (select startsOther "sink_line" fls).1 := mem_select.mpr ⟨hm, chosen⟩
    have ht : ln ∈ (select startsOther "sink_line" fls).2 :=
      mem_map.mpr ⟨fl, cited, by rw [hr]; rfl⟩
    cases told with
    | silent none =>
      exact absurd none (ne_nil_of_mem (mem_append_left _ (mem_append_right _ cited)))
    | reported _ _ _ _ lines =>
      obtain ⟨flag, compared⟩ := compared_of_positiveLines lines ln
        (mem_append_left _ (mem_append_right _ ht))
      obtain ⟨same, again, null | ⟨n, numbered⟩⟩ := (flowShapes fl hm).line
      · rw [hr] at again
        cases again
        rw [null] at compared
        cases compared
      · rw [numbered] at again
        exact ⟨n, again⟩

end Findings

end SourceAudit
