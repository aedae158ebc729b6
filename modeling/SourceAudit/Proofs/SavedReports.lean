import SourceAudit.Proofs.IdleFiles
import SourceAudit.Proofs.StoredFiles
import SourceAudit.Proofs.ThreatEvidence

/-!
# Results and saved reports

An analysis may fail at any stage. This module proves what its results say all the same.
-/

open List

namespace SourceAudit.Outside

variable {α β : Type}

namespace Audit

structure Ends (session : Session) (action : Audit α) (property : α → Session → Prop) : Prop where
  reaches : ∀ {value left}, action.perform session = (.ok value, left) → property value left
  keeps : ∀ {fault left}, action.perform session = (.error fault, left) → session.Keeps left

namespace Ends

variable {s : Session} {act : Audit α}

variable {P : β → Session → Prop}

theorem bind {between : α → Session → Prop} {next : α → Audit β} (h1 : Ends s act between)
    (kept : ∀ v mid, between v mid → s.Keeps mid)
    (h2 : ∀ v mid, between v mid → Ends mid (next v) P) : Ends s (act >>= next) P := by
  constructor
  · intro r l hd
    obtain ⟨v, mid, hb, he⟩ := perform_bind_eq_ok.mp hd
    exact (h2 v mid (h1.reaches hb)).reaches he
  · intro err l failed
    rcases perform_bind_eq_error.mp failed with soon | ⟨v, mid, hb, late⟩
    · exact h1.keeps soon
    · have reached := h1.reaches hb
      exact (kept v mid reached).trans ((h2 v mid reached).keeps late)

theorem map {between : α → Session → Prop} {handed : α → β} (h1 : Ends s act between)
    (reaches : ∀ v l, between v l → P (handed v) l) :
    Ends s (act >>= fun v => pure (handed v)) P := by
  constructor
  · intro r l hd
    obtain ⟨v, mid, hb, he⟩ := perform_bind_eq_ok.mp hd
    cases he
    exact reaches v l (h1.reaches hb)
  · intro err l failed
    rcases perform_bind_eq_error.mp failed with soon | ⟨v, mid, _, late⟩
    · exact h1.keeps soon
    · cases late

theorem bind_ofOutcome {out : Outcome α} {next : α → Audit β}
    (h2 : ∀ v, out = .ok v → Ends s (next v) P) : Ends s (Audit.ofOutcome out >>= next) P := by
  cases out with
  | ok v => exact h2 v rfl
  | error err =>
    constructor
    · intro v l hd
      cases hd
    · intro other l failed
      cases failed
      exact .refl s

theorem of_keeps (keeps : s.Keeps (act.perform s).2) : Ends s act fun _ l => s.Keeps l := by
  constructor
  · intro v l hd
    rw [hd] at keeps
    exact keeps
  · intro err l failed
    rw [failed] at keeps
    exact keeps

theorem say (t : String) (s : Session) : Ends s (Audit.say t) fun _ l => s.Keeps l :=
  of_keeps { here := rfl, files := fun _ _ ht => ht }

theorem makeDirectories (p : String) (s : Session) :
    Ends s (Audit.makeDirectories p) fun _ l => s.Keeps l :=
  of_keeps (keeps_makeDirectories p s)

theorem writeText (p c : String) (s : Session) :
    Ends s (Audit.writeText p c) fun _ l =>
      (Audit.writeText p c).perform s = (.ok (), l) := by
  constructor
  · intro _ l hd
    exact hd
  · intro err l failed
    rcases perform_writeText p c s with ⟨other, hs⟩ | ⟨_, _, ages, hd⟩
    · rw [hs] at failed
      cases failed
      exact .refl s
    · rw [hd] at failed
      cases failed

end Ends

end Audit

end SourceAudit.Outside

namespace SourceAudit.Value

theorem kind_of_getD {doc missing v : Value} {k : String}
    (hf : doc.getD k missing = .ok v) : doc.kind = .record := by
  cases doc <;> first | rfl | cases hf

theorem exists_getD {doc : Value} (dictionary : doc.kind = .record) (k : String)
    (missing : Value) : ∃ v, doc.getD k missing = .ok v := by
  cases doc <;> first | exact ⟨_, rfl⟩ | cases dictionary

theorem exists_less {l r : Value} (leftNumber : l.isNumber = true)
    (rightNumber : r.isNumber = true) (op : String) : ∃ flag, l.less op r = .ok flag := by
  rw [Value.less.eq_def]
  split
  · cases leftNumber
  · cases leftNumber
  · cases leftNumber
  · cases leftNumber
  · rw [leftNumber, rightNumber]
    exact ⟨_, rfl⟩

end SourceAudit.Value

namespace SourceAudit.Analysis

open Outside

/-! ## Names of reports -/

def ReportKind.fileExtension : ReportKind → String
  | .json => "json"
  | .html => "html"
  | .markdown => "md.markdown"

def reportName (p : String) (k : ReportKind) : String :=
  Path.stem p ++ "_" ++ Moment.current.compact ++ "." ++ k.fileExtension

theorem isName_reportName (p : String) (k : ReportKind) : Path.IsName (reportName p k) := by
  have marked : '_' ∈ (reportName p k).toList := by
    simp [reportName, String.toList_append]
  have ho {nm : String} (unmarked : '_' ∉ nm.toList) : reportName p k ≠ nm := by
    rintro rfl
    exact unmarked marked
  have stem := Path.notMem_stem p
  have dated : '/' ∉ Moment.current.compact.toList := by decide
  have extended : '/' ∉ k.fileExtension.toList := by
    cases k <;> decide
  exact
    { unslashed := by simp [reportName, String.toList_append, stem, dated, extended]
      nonempty := ho (by decide)
      here := ho (by decide)
      above := ho (by decide) }

variable {k : ReportKind}

theorem reportName_injective {p : String} {other : ReportKind}
    (hs : reportName p k = reportName p other) : k = other := by
  have extension : k.fileExtension = other.fileExtension := (String.append_right_inj _).mp hs
  revert extension
  cases k <;> cases other <;> decide

def savedPath (dir p : String) (k : ReportKind) : String :=
  let saved := reportPath dir (Path.stem p) k
  if Str.endsWith ("." ++ k.name) saved then saved else saved ++ "." ++ k.name

theorem endsIn_savedPath (dir p : String) (k : ReportKind) :
    Path.EndsIn (savedPath dir p k) (reportName p k) := by
  have ends : Path.EndsIn (reportPath dir (Path.stem p) k)
      (Path.stem p ++ "_" ++ Moment.current.compact ++ "." ++ k.extension) :=
    Path.EndsIn.join (Or.inl rfl) dir
  obtain ⟨pre, shape⟩ := ends.exists_front
  rw [String.append_assoc, String.toList_append, ← append_assoc] at shape
  have extended : Str.endsWith ("." ++ k.extension) (reportPath dir (Path.stem p) k) = true := by
    rw [Str.endsWith, shape]
    exact Text.endsWith_append _ _
  rw [savedPath]
  cases k with
  | json =>
    have he : Str.endsWith ("." ++ ReportKind.json.name) _ = true := extended
    rw [if_pos he]
    exact ends
  | html =>
    have he : Str.endsWith ("." ++ ReportKind.html.name) _ = true := extended
    rw [if_pos he]
    exact ends
  | markdown =>
    -- The form is not the extension here, so it is added to the name.
    have unended : Str.endsWith ("." ++ ReportKind.markdown.name)
        (reportPath dir (Path.stem p) .markdown) = false := by
      rw [Str.endsWith, Text.endsWith, Text.startsWith, shape, reverse_append]
      rfl
    have hn : reportName p .markdown =
        Path.stem p ++ "_" ++ Moment.current.compact ++ "." ++ "md" ++ ("." ++ "markdown") := by
      rw [String.append_assoc]
      rfl
    rw [unended, if_neg Bool.false_ne_true, String.append_assoc, hn]
    exact ends.append _

/-! ## Stages -/

def Filed (res : FileResults) (s : Session) : Prop :=
  ∀ rep ∈ res.reports,
    Path.EndsIn rep.2 (reportName res.path rep.1) ∧
      ∃ c, rep.1.render Moment.current res.reportData = .ok c ∧
        s.Holds rep.2 (Text.Utf8.encode c)

variable {res : FileResults}

theorem Filed.keep {s l : Session} (filed : Filed res s) (keeps : s.Keeps l) : Filed res l := by
  intro rep hl
  obtain ⟨ends, c, rendered, holds⟩ := filed rep hl
  exact ⟨ends, c, rendered, holds.keep keeps⟩

def Advances (stage : Stage) (before after : FileResults → Prop) : Prop :=
  ∀ res s out l, before res → Filed res s →
    (stage res).perform s = (out, l) →
      match out with
      | .ok next => after next ∧ Filed next l
      | .error _ => Filed res l

inductive Chain : (FileResults → Prop) → List Stage → (FileResults → Prop) → Prop where
  | nil (P : FileResults → Prop) : Chain P [] P
  | cons {stage : Stage} {tl : List Stage} {before between after : FileResults → Prop}
      (h1 : Advances stage before between) (others : Chain between tl after) :
      Chain before (stage :: tl) after

variable {before after : FileResults → Prop}

theorem Chain.run {list : List Stage} (chain : Chain before list after) {s : Session}
    (holds : before res) (filed : Filed res s) :
    ∃ last l, (runStages list res).perform s = (.ok last, l) ∧
      Filed last l ∧ (last.error = none → after last) := by
  induction chain generalizing res s with
  | nil P => exact ⟨res, s, rfl, filed, fun _ => holds⟩
  | @cons stage tl before between after h1 others ih =>
    rcases hperf : (stage res).perform s with ⟨out, mid⟩
    have advanced := h1 res s out mid holds filed hperf
    have tried := Audit.perform_attempt (stage res) s
    rw [hperf] at tried
    rw [runStages, Audit.perform_bind_ok tried]
    cases out with
    | ok next => exact ih advanced.1 advanced.2
    | error err =>
      refine ⟨_, _, rfl, ?_, fun unfailed => ?_⟩
      · exact advanced.keep { here := rfl, files := fun _ _ ht => ht }
      · cases unfailed

/-! ## Single stages -/

def Unreported (res : FileResults) : Prop :=
  res.reports = []

theorem Unreported.filed (unreported : Unreported res) (s : Session) : Filed res s := by
  rw [Filed, show res.reports = [] from unreported]
  intro rep hl
  cases hl

theorem advances_of_yields {stage : Stage} (unreported : ∀ res, before res → Unreported res)
    (yields : ∀ res, before res →
      Audit.Yields (stage res) fun next => after next ∧ Unreported next) :
    Advances stage before after := by
  intro res s out l holds _ hperf
  cases out with
  | error err => exact (unreported res holds).filed l
  | ok next =>
    obtain ⟨reached, none⟩ := yields res holds s next l hperf
    exact ⟨reached, none.filed l⟩

theorem advances_of_ends {stage : Stage} (ends : ∀ res s, before res → Filed res s →
      Audit.Ends s (stage res) fun next l => after next ∧ Filed next l) :
    Advances stage before after := by
  intro res s out l holds filed hperf
  have he := ends res s holds filed
  cases out with
  | ok next => exact he.reaches hperf
  | error err => exact filed.keep (he.keeps hperf)

def Aggregated (res : FileResults) : Prop :=
  Findings.aggregate res.static res.dynamic = .ok res.aggregated

def Identified (res : FileResults) : Prop :=
  ∃ ths, Findings.identify res.aggregated = .ok ths ∧
    res.threats = .list (ths.map (·.toValue))

def Assessed (res : FileResults) : Prop :=
  ∃ risk, Findings.assess res.threats = .ok risk ∧ res.risk = risk.toValue

structure Concluded (results : FileResults) : Prop where
  aggregated : Aggregated results
  identified : Identified results
  assessed : Assessed results

theorem advances_staticStage (opts : Options) (reqs : Bool) :
    Advances (staticStage opts reqs) Unreported Unreported := by
  refine advances_of_yields (fun _ none => none) fun res none => ?_
  exact .after fun _ => .after fun _ => .after fun _ => .pure ⟨none, none⟩

theorem advances_dynamicStage (opts : Options) (reqs : Bool) :
    Advances (dynamicStage opts reqs) Unreported Unreported := by
  refine advances_of_yields (fun _ none => none) fun res none => ?_
  rw [dynamicStage]
  split
  · exact .pure ⟨none, none⟩
  · exact .after fun _ => .after fun _ => .pure ⟨none, none⟩

theorem advances_aggregateStage :
    Advances aggregateStage Unreported fun res => Unreported res ∧ Aggregated res := by
  refine advances_of_yields (fun _ none => none) fun res none => ?_
  exact .after fun _ => (Audit.Yields.ofOutcome _).bind fun agg hk =>
    .pure ⟨⟨none, hk⟩, none⟩

theorem advances_threatStage :
    Advances threatStage (fun res => Unreported res ∧ Aggregated res) fun res =>
      Unreported res ∧ Aggregated res ∧ Identified res := by
  refine advances_of_yields (fun _ before => before.1) ?_
  rintro res ⟨none, aggregated⟩
  exact .after fun _ => (Audit.Yields.ofOutcome _).bind fun ths hk =>
    .pure ⟨⟨none, aggregated, ths, hk, rfl⟩, none⟩

def ConcludedWith (kinds : List ReportKind) (res : FileResults) : Prop :=
  Concluded res ∧ res.reports.map Prod.fst = kinds

theorem advances_riskStage :
    Advances riskStage (fun res => Unreported res ∧ Aggregated res ∧ Identified res)
      (ConcludedWith []) := by
  refine advances_of_yields (fun _ before => before.1) ?_
  rintro res ⟨none, aggregated, identified⟩
  refine .after fun _ => (Audit.Yields.ofOutcome _).bind fun risk hk => .pure ⟨⟨?_, ?_⟩, none⟩
  · exact { aggregated, identified, assessed := ⟨risk, hk, rfl⟩ }
  · exact congrArg (List.map Prod.fst) none

theorem ends_save (c p form : String) (s : Session) :
    Audit.Ends s (Report.save (.text c) p form) fun saved l =>
      saved = (if Str.endsWith ("." ++ form) p then p else p ++ "." ++ form) ∧
        ∃ mid, s.Keeps mid ∧ (Audit.writeText saved c).perform mid = (.ok (), l) := by
  have hw {mid : Session} (keeps : s.Keeps mid) (saved : String) :
      Audit.Ends mid (Audit.writeText saved c >>= fun _ => pure saved) fun other l =>
        other = saved ∧ ∃ mid, s.Keeps mid ∧ (Audit.writeText other c).perform mid = (.ok (), l) :=
    (Audit.Ends.writeText saved c mid).map fun _ _ hd => ⟨rfl, mid, keeps, hd⟩
  rw [Report.save]
  dsimp only
  split
  · exact .bind (.makeDirectories _ s) (fun _ _ keeps => keeps) fun _ _ keeps => hw keeps _
  · exact hw (.refl s) _

theorem Filed.add {dir c : String} {s l : Session}
    (filed : Filed res s) (fresh : k ∉ res.reports.map Prod.fst)
    (rendered : k.render Moment.current res.reportData = .ok c)
    (hw : (Audit.writeText (savedPath dir res.path k) c).perform s = (.ok (), l)) :
    Filed { res with
      reports := res.reports ++ [(k, savedPath dir res.path k)] } l := by
  have hn := isName_reportName res.path k
  have ends := endsIn_savedPath dir res.path k
  intro rep hl
  rcases mem_append.mp hl with earlier | new
  · obtain ⟨otherEnds, t, made, holds⟩ := filed rep earlier
    refine ⟨otherEnds, t, made, ?_⟩
    have differs : reportName res.path rep.1 ≠ reportName res.path k := by
      intro hs
      apply fresh
      rw [← reportName_injective hs]
      exact mem_map_of_mem earlier
    exact Audit.holds_after_writeText hn ends (isName_reportName res.path rep.1) otherEnds
      differs holds hw
  · rw [mem_singleton.mp new]
    exact ⟨ends, c, rendered, Audit.holds_of_writeText hn ends hw⟩

theorem ends_saved_report {c : String} {s : Session} (concluded : Concluded res)
    (filed : Filed res s) (fresh : k ∉ res.reports.map Prod.fst)
    (rendered : k.render Moment.current res.reportData = .ok c) (dir : String) :
    Audit.Ends s (do
        let p ← Report.save (.text c) (reportPath dir (Path.stem res.path) k) k.name
        return { res with reports := res.reports ++ [(k, p)] })
      fun next l =>
        ConcludedWith (res.reports.map Prod.fst ++ [k]) next ∧ Filed next l := by
  refine (ends_save c _ k.name s).map fun p l saved => ?_
  obtain ⟨hs, mid, keeps, hw⟩ := saved
  have hk : p = savedPath dir res.path k := hs
  rw [hk] at hw ⊢
  refine ⟨⟨?_, map_append⟩, (filed.keep keeps).add fresh rendered hw⟩
  exact
    { aggregated := concluded.aggregated
      identified := concluded.identified
      assessed := concluded.assessed }

theorem advances_reportStage (opts : Options) {kinds : List ReportKind} (fresh : k ∉ kinds) :
    Advances (reportStage opts k) (ConcludedWith kinds) (ConcludedWith (kinds ++ [k])) := by
  apply advances_of_ends
  rintro res s ⟨concluded, rfl⟩ filed
  rw [reportStage]
  split
  · refine .bind (.say _ s) (fun _ _ keeps => keeps) fun _ said kept => ?_
    refine .bind_ofOutcome fun c rendered => .bind_ofOutcome fun dir _ => ?_
    refine .bind (.makeDirectories _ said) (fun _ _ keeps => keeps) fun _ made keeps => ?_
    exact ends_saved_report concluded (filed.keep (kept.trans keeps)) fresh rendered dir
  · exact .bind_ofOutcome fun c rendered => .bind_ofOutcome fun dir _ =>
      ends_saved_report concluded filed fresh rendered dir

theorem advances_successStage (kinds : List ReportKind) :
    Advances successStage (ConcludedWith kinds) (ConcludedWith kinds) := by
  apply advances_of_ends
  intro res s hrep filed
  refine .bind_ofOutcome fun score _ => ?_
  exact (Audit.Ends.say _ s).map fun _ _ keeps => ⟨hrep, filed.keep keeps⟩

theorem chain_stages (opts : Options) (reqs : Bool) :
    Chain Unreported (stages opts reqs) (ConcludedWith [.json, .html, .markdown]) :=
  .cons (advances_staticStage opts reqs) <|
  .cons (advances_dynamicStage opts reqs) <|
  .cons advances_aggregateStage <|
  .cons advances_threatStage <|
  .cons advances_riskStage <|
  .cons (advances_reportStage opts (by decide)) <|
  .cons (advances_reportStage opts (by decide)) <|
  .cons (advances_reportStage opts (by decide)) <|
  .cons (advances_successStage _) (.nil _)

/-! ## The analysis of a file -/

structure Usable (config settings : Value) : Prop where
  held : config.getD "settings" (.record []) = .ok settings
  dictionary : settings.kind = .record
  total : ∀ limit, settings.getD "timeout" (.int 30) = .ok limit → limit.isNumber = true
  own : ∀ limit, settings.getD "dynamic_timeout" (.int 2) = .ok limit → limit.isNumber = true

theorem Usable.exists_options {cfg settings : Value} (usable : Usable cfg settings) :
    ∃ opts, optionsOf cfg = .ok opts := by
  obtain ⟨rs, ruled⟩ := Value.exists_getD (Value.kind_of_getD usable.held) "rules" (.record [])
  have hr := Value.exists_getD usable.dictionary
  obtain ⟨static, staticRead⟩ := hr "enable_static_analysis" (.bool true)
  obtain ⟨dynamic, dynamicRead⟩ := hr "enable_dynamic_analysis" (.bool true)
  obtain ⟨isolated, isolatedRead⟩ := hr "enable_sandbox" (.bool true)
  obtain ⟨total, totalRead⟩ := hr "timeout" (.int 30)
  obtain ⟨own, ownRead⟩ := hr "dynamic_timeout" (.int 2)
  obtain ⟨shorter, compared⟩ :=
    Value.exists_less (usable.total total totalRead) (usable.own own ownRead) "<"
  obtain ⟨mode, modeRead⟩ := hr "dynamic_log_mode" (.text "queue")
  obtain ⟨iv, intervalRead⟩ := hr "dynamic_sample_interval" (.float (Double.ofFloat 0.1))
  obtain ⟨dirs, directoriesRead⟩ := hr "java_dependency_dirs" .null
  obtain ⟨libraries, librariesRead⟩ := hr "java_extra_classpath" .null
  obtain ⟨reports, reportsRead⟩ := hr "report_path" (.text "data/reports/")
  rw [optionsOf, Outcome.bind_ok usable.held, Outcome.bind_ok ruled]
  simp only [staticRead, dynamicRead, isolatedRead, totalRead, ownRead, modeRead, intervalRead,
    Value.get, directoriesRead, librariesRead, reportsRead, bind, Except.bind, pure, Except.pure,
    compared]
  exact ⟨_, rfl⟩

def Analyzable (s : Session) (p : String) : Prop :=
  Str.lower (Path.name p) = "requirements.txt" ∨
    ∃ lang, (Source.detect p).perform s = (.ok lang, s) ∧
      lang.isSupported = true

theorem Analyzable.exists_language {s : Session} {p : String} (analyzable : Analyzable s p) :
    ∃ lang, (if Str.lower (Path.name p) == "requirements.txt" then pure "python"
      else supportedLanguage p).perform s = (.ok lang, s) := by
  by_cases requirements : Str.lower (Path.name p) = "requirements.txt"
  · rw [requirements]
    exact ⟨"python", rfl⟩
  · obtain ⟨lang, detected, supported⟩ := analyzable.resolve_left requirements
    refine ⟨lang.name, ?_⟩
    rw [beq_false_of_ne requirements, if_neg Bool.false_ne_true, supportedLanguage,
      Audit.perform_bind_ok detected, supported]
    rfl

/--
Whatever fails, the analysis of a file that is not skipped answers.  Results without a failure have the
threats and the risk that follow from the static and dynamic results and all three reports; and every
report that is listed, also after a failure, is the whole content of its file, rendered from the results.
-/
theorem analyzeFile_files_reports {path : String} {config : Option Value} {document settings : Value}
    {session : Session} (configured : (configOr config).perform session = (.ok document, session))
    (usable : Usable document settings)
    (active : (isIdle path).perform session = (.ok false, session))
    (analyzable : Analyzable session path) :
    ∃ results after, (analyzeFile path config).perform session = (.ok results, after) ∧
      (results.error = none →
        Concluded results ∧ results.reports.map Prod.fst = [.json, .html, .markdown]) ∧
      ∀ report ∈ results.reports,
        ∃ content, report.1.render Moment.current results.reportData = .ok content ∧
          after.Holds report.2 (Text.Utf8.encode content) := by
  obtain ⟨options, chosen⟩ := usable.exists_options
  obtain ⟨language, known⟩ := analyzable.exists_language
  have unreported : Unreported { path, language } := rfl
  obtain ⟨results, after, ran, filed, reached⟩ :=
    (chain_stages options _).run unreported (unreported.filed session)
  refine ⟨results, after, ?_, reached, fun report listed => (filed report listed).2⟩
  exact (perform_analyzeFile configured active chosen known).trans ran

def hasty : Value :=
  .record [("settings", .record [("timeout", .int 1)])]

def barePackage : List UInt8 :=
  [0x70, 0x61, 0x63, 0x6B, 0x61, 0x67, 0x65, 0x20, 0x6D, 0x61, 0x69, 0x6E]

theorem analyzeFile_files_reports_on_package :
    ∃ results after,
      (analyzeFile "a.go" (some hasty)).perform (.holding "a.go" barePackage) = (.ok results, after) ∧
        (results.error = none →
          Concluded results ∧ results.reports.map Prod.fst = [.json, .html, .markdown]) ∧
        ∀ report ∈ results.reports,
          ∃ content, report.1.render Moment.current results.reportData = .ok content ∧
            after.Holds report.2 (Text.Utf8.encode content) := by
  have usable : Usable hasty (.record [("timeout", .int 1)]) :=
    { held := rfl
      dictionary := rfl
      total := by
        intro limit read
        cases read
        rfl
      own := by
        intro limit read
        cases read
        rfl }
  have active : (isIdle "a.go").perform (.holding "a.go" barePackage) =
      (.ok false, .holding "a.go" barePackage) := rfl
  exact analyzeFile_files_reports rfl usable active (Or.inr ⟨.go, rfl, rfl⟩)

end SourceAudit.Analysis
