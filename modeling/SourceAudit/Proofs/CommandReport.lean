import SourceAudit.Proofs.IdleFiles

/-!
# What the command line prints

The command line prints the score and the number of threats of a file. Results get a score in the fifth
stage of an analysis, and the command line asks for it whether the analysis came that far or not.
-/

open List

namespace SourceAudit.Analysis

open Outside Audit

/-! ## Stages in turn -/

/-- Takes stages in turn and fails with the first one that fails. -/
def inTurn : List Stage → Stage
  | [], res => return res
  | stage :: tl, res => do inTurn tl (← stage res)

variable {list tl : List Stage} {results next : FileResults} {session middle : Session}

theorem perform_runStages_cons_ok {stage : Stage}
    (hd : (stage results).perform session = (.ok next, middle)) :
    (runStages (stage :: tl) results).perform session = (runStages tl next).perform middle := by
  rw [runStages, perform_attempt_bind hd]

theorem perform_runStages_cons_error (tl : List Stage) {stage : Stage} {err : Fault}
    (failed : (stage results).perform session = (.error err, middle)) :
    ∃ l, (runStages (stage :: tl) results).perform session =
      (.ok { results with error := some err.message }, l) := by
  rw [runStages, perform_attempt_bind failed]
  exact ⟨_, rfl⟩

theorem exists_runStages (list : List Stage) (res : FileResults) (s : Session) :
    ∃ last l, (runStages list res).perform s = (.ok last, l) := by
  induction list generalizing res s with
  | nil => exact ⟨res, s, rfl⟩
  | cons stage tl ih =>
    rcases hperf : (stage res).perform s with ⟨err | next, mid⟩
    · exact ⟨_, perform_runStages_cons_error tl hperf⟩
    · rw [perform_runStages_cons_ok hperf]
      exact ih next mid

theorem perform_runStages_append (hd : (inTurn list results).perform session = (.ok next, middle)) :
    (runStages (list ++ tl) results).perform session = (runStages tl next).perform middle := by
  induction list generalizing results session with
  | nil =>
    cases hd
    rfl
  | cons stage list ih =>
    obtain ⟨a, between, hb, he⟩ := perform_bind_eq_ok.mp hd
    rw [cons_append, perform_runStages_cons_ok hb, ih he]

/-- Where the last of some stages has a part to write, nothing is written if one of them fails. -/
theorem exists_runStages_of_failed {part : Type} {view : FileResults → part} {stage : Stage}
    {err : Fault} (keeps : ∀ stage ∈ list, Keeps view stage)
    (blind : ∀ results error, view { results with error } = view results)
    (failed : (inTurn (list ++ [stage]) results).perform session = (.error err, middle)) :
    ∃ last l, (runStages (list ++ stage :: tl) results).perform session = (.ok last, l) ∧
      view last = view results := by
  induction list generalizing results session with
  | nil =>
    rcases perform_bind_eq_error.mp failed with soon | ⟨_, _, _, late⟩
    · obtain ⟨l, stopped⟩ := perform_runStages_cons_error tl soon
      exact ⟨_, l, stopped, blind _ _⟩
    · cases late
  | cons a list ih =>
    obtain ⟨hh, later⟩ := forall_mem_cons.mp keeps
    rcases perform_bind_eq_error.mp failed with soon | ⟨next, between, hb, late⟩
    · obtain ⟨l, stopped⟩ := perform_runStages_cons_error (list ++ stage :: tl) soon
      exact ⟨_, l, stopped, blind _ _⟩
    · obtain ⟨last, l, ran, hs⟩ := ih later late
      refine ⟨last, l, ?_, hs.trans (hh results session next between hb)⟩
      rw [cons_append, perform_runStages_cons_ok hb, ran]

/-! ## The assessment of a file -/

def findingStages (opts : Options) (reqs : Bool) : List Stage :=
  [staticStage opts reqs, dynamicStage opts reqs, aggregateStage, threatStage]

def assessment (opts : Options) (reqs : Bool) : Stage :=
  inTurn (findingStages opts reqs ++ [riskStage])

theorem keeps_findingStages (opts : Options) (reqs : Bool) :
    ∀ stage ∈ findingStages opts reqs, Keeps FileResults.risk stage := by
  simp only [findingStages, forall_mem_cons]
  refine ⟨fun _ => .after fun _ => .after fun _ => .after fun _ => .pure rfl, fun res => ?_,
    fun _ => .after fun _ => .after fun _ => .pure rfl, keeps_threatStage fun _ _ => rfl,
    forall_mem_nil _⟩
  rw [dynamicStage]
  split
  · exact .pure rfl
  · exact .after fun _ => .after fun _ => .pure rfl

def Scored (score : Int) (n : Nat) (res : FileResults) : Prop :=
  res.risk.need "risk_score" = .ok (.int score) ∧ res.threats.length = .ok n

theorem yields_assessment (opts : Options) (reqs : Bool) (res : FileResults) :
    Yields (assessment opts reqs res) fun next =>
      ∃ score n, Scored score n next := by
  have hl (res : FileResults) : Yields (threatStage res) fun next =>
      ∃ n, next.threats.length = .ok n :=
    .after fun _ => .after fun _ => .pure ⟨_, rfl⟩
  refine .after fun _ => .after fun _ => .after fun _ => .bind (hl _) ?_
  rintro next ⟨n, hc⟩
  have assessed : Yields (riskStage next) fun last => ∃ score n, Scored score n last :=
    .after fun _ => .after fun risk => .pure ⟨risk.score, n, rfl, hc⟩
  exact assessed.bind fun _ scored => .pure scored

theorem stages_eq (opts : Options) (reqs : Bool) :
    stages opts reqs = findingStages opts reqs ++ riskStage :: reportStages opts := rfl

/-! ## The command line -/

/-- The configuration gives the options of an analysis, and the file is of a supported language. -/
structure Prepared (session : Session) (path : String) (options : Options) (language : String) :
    Prop where
  options : ∃ document, (configOr none).perform session = (.ok document, session) ∧
    optionsOf document = .ok options
  language : (if Str.lower (Path.name path) == "requirements.txt" then pure "python"
    else supportedLanguage path).perform session = (.ok language, session)

def Assessable (s : Session) (path : String) (opts : Options) (language : String) : Prop :=
  (isIdle path).perform s = (.ok false, s) ∧
    ∃ res l, (assessment opts (Str.lower (Path.name path) == "requirements.txt")
      { path, language }).perform s = (.ok res, l)

def reportLines (score : Int) (count : Nat) : List String :=
  [s!"\nRisk Score: {score}/100" ++ "\n", s!"Threats Found: {count}" ++ "\n"]

variable {path language : String} {options : Options}

theorem perform_commandLine_scored {score : Int} {count : Nat} (others : List String)
    (answered : (analyzeFile path none).perform session = (.ok results, middle))
    (scored : Scored score count results) :
    ∃ after, (commandLine (path :: others)).perform session = (.ok (), after) ∧
      after.printed = middle.printed ++ reportLines score count := by
  have said (text : String) (session : Session) : (say text).perform session =
      (.ok (), { session with printed := session.printed ++ [text ++ "\n"] }) := rfl
  rw [commandLine, perform_bind_ok answered, perform_given scored.1, perform_bind_ok (said _ _),
    perform_given scored.2, said]
  exact ⟨_, rfl, append_assoc _ _ _⟩

theorem perform_commandLine_unscored (others : List String)
    (hans : (analyzeFile path none).perform session = (.ok results, middle))
    (hmiss : results.risk = .record []) :
    (commandLine (path :: others)).perform session =
      (.error (.missingKey (.text "risk_score")), middle) := by
  rw [commandLine, perform_bind_ok hans, hmiss]
  rfl

theorem Prepared.exists_scored (prepared : Prepared session path options language)
    (assessable : Assessable session path options language) :
    ∃ res l score n,
      (analyzeFile path none).perform session = (.ok res, l) ∧ Scored score n res := by
  obtain ⟨doc, configured, chosen⟩ := prepared.options
  obtain ⟨active, assessed, mid, hd⟩ := assessable
  obtain ⟨score, n, scored⟩ := yields_assessment options _ _ session assessed mid hd
  obtain ⟨last, l, ran⟩ := exists_runStages (reportStages options) assessed mid
  have kept : ∀ stage ∈ reportStages options, Keeps (fun res => (res.risk, res.threats)) stage :=
    keeps_reportStages options fun _ _ => rfl
  have hs := yields_runStages kept (fun _ _ => rfl) assessed mid last l ran
  obtain ⟨sameRisk, sameThreats⟩ := Prod.mk.inj hs
  refine ⟨last, l, score, n, ?_, ?_⟩
  · rw [perform_analyzeFile configured active chosen prepared.language, stages_eq, ← ran,
      ← perform_runStages_append hd, append_assoc, singleton_append]
  · rw [Scored, sameRisk, sameThreats]
    exact scored

theorem Prepared.exists_unscored (prepared : Prepared session path options language)
    (unfit : ¬ Assessable session path options language) :
    ∃ res l, (analyzeFile path none).perform session = (.ok res, l) ∧ res.risk = .record [] := by
  obtain ⟨doc, configured, chosen⟩ := prepared.options
  obtain ⟨idle, looked, _⟩ := perform_isIdle path session
  cases idle with
  | true =>
    rw [analyzeFile, perform_bind_ok configured, perform_bind_ok looked]
    exact ⟨_, _, rfl, rfl⟩
  | false =>
    rw [perform_analyzeFile configured looked chosen prepared.language, stages_eq]
    rcases hd : (assessment options (Str.lower (Path.name path) == "requirements.txt")
      { path, language }).perform session with ⟨err | assessed, mid⟩
    · exact exists_runStages_of_failed (keeps_findingStages options _) (fun _ _ => rfl) hd
    · exact absurd ⟨looked, assessed, mid, hd⟩ unfit

/--
The command line reports on a file exactly when the file is not skipped and its assessment succeeds.
On every other file of a supported language it fails, since the results have no score.
-/
theorem commandLine_reports_iff_assessable (prepared : Prepared session path options language)
    (others : List String) :
    ((∃ score count front after, (commandLine (path :: others)).perform session = (.ok (), after) ∧
          after.printed = front ++ reportLines score count) ↔
      Assessable session path options language) ∧
      ((∃ after, (commandLine (path :: others)).perform session =
        (.error (.missingKey (.text "risk_score")), after)) ↔
        ¬ Assessable session path options language) := by
  by_cases assessable : Assessable session path options language
  · obtain ⟨results, left, score, count, answered, scored⟩ := prepared.exists_scored assessable
    obtain ⟨after, done, printed⟩ := perform_commandLine_scored others answered scored
    refine ⟨iff_of_true ⟨score, count, _, after, done, printed⟩ assessable,
      iff_of_false ?_ (not_not_intro assessable)⟩
    rintro ⟨_, failed⟩
    rw [done] at failed
    cases failed
  · obtain ⟨results, left, answered, missing⟩ := prepared.exists_unscored assessable
    have failed := perform_commandLine_unscored others answered missing
    refine ⟨iff_of_false ?_ assessable, iff_of_true ⟨left, failed⟩ assessable⟩
    rintro ⟨_, _, _, _, done, _⟩
    rw [failed] at done
    cases done

/-! ### A file of comments -/

def lineComment : List UInt8 := [0x2F, 0x2F, 0x20, 0x61, 0x0A]

/-- A file with a comment only is accepted and skipped, so the command line fails on it. -/
theorem commandLine_fails_on_comments :
    ∃ options, Prepared (.holding "a.go" lineComment) "a.go" options "go" ∧
      ¬ Assessable (.holding "a.go" lineComment) "a.go" options "go" ∧
        ∃ after, (commandLine ["a.go"]).perform (.holding "a.go" lineComment) =
          (.error (.missingKey (.text "risk_score")), after) := by
  have configured : ∃ options document, (configOr none).perform (.holding "a.go" lineComment) =
        (.ok document, .holding "a.go" lineComment) ∧ optionsOf document = .ok options :=
    ⟨_, _, rfl, rfl⟩
  obtain ⟨options, known⟩ := configured
  have prepared : Prepared (.holding "a.go" lineComment) "a.go" options "go" := ⟨known, rfl⟩
  have skipped : (isIdle "a.go").perform (.holding "a.go" lineComment) =
      (.ok true, .holding "a.go" lineComment) := rfl
  have unfit : ¬ Assessable (.holding "a.go" lineComment) "a.go" options "go" := by
    rintro ⟨active, _⟩
    cases skipped.symm.trans active
  exact ⟨options, prepared, unfit, (commandLine_reports_iff_assessable prepared []).2.mpr unfit⟩

end SourceAudit.Analysis
