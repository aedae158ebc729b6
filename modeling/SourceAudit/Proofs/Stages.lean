import SourceAudit.Analysis.FileAnalysis
import SourceAudit.Proofs.Effects

/-!
# What the stages of an analysis do

The analysis of a file takes its stages in turn. The first stage stores the value of the static
pass, and all later ones keep it and the note whether the file was skipped.
-/

open List

namespace SourceAudit.Analysis

open Outside

/-! ## Single stages -/

def FromPass (res : FileResults) : Prop :=
  ∃ opts reqs s after,
    (staticPass opts res.path res.language reqs).perform s =
      (.ok res.static, after)

def FileResults.known (res : FileResults) : FileResults :=
  { res with threats := .null, risk := .null, reports := [], error := none }

/-- A stage that succeeds leaves a part of the results as it is. -/
def Keeps {part : Type} (view : FileResults → part) (stage : Stage) : Prop :=
  ∀ res, Audit.Yields (stage res) fun next => view next = view res

section Views

variable {part : Type} {view : FileResults → part}

theorem keeps_threatStage (blind : ∀ res threats, view { res with threats } = view res) :
    Keeps view threatStage := fun _ => .after fun _ => .after fun _ => .pure (blind _ _)

theorem keeps_reportStage (opts : Options) (k : ReportKind)
    (blind : ∀ res reports, view { res with reports } = view res) :
    Keeps view (reportStage opts k) := by
  intro res
  rw [reportStage]
  split
  · exact .after fun _ => .after fun _ => .after fun _ => .after fun _ => .after fun _ =>
      .pure (blind _ _)
  · exact .after fun _ => .after fun _ => .after fun _ => .pure (blind _ _)

theorem keeps_successStage : Keeps view successStage :=
  fun _ => .after fun _ => .after fun _ => .pure rfl

end Views

def reportStages (opts : Options) : List Stage :=
  [reportStage opts .json, reportStage opts .html, reportStage opts .markdown, successStage]

theorem keeps_reportStages {part : Type} {view : FileResults → part} (opts : Options)
    (blind : ∀ res reports, view { res with reports } = view res) :
    ∀ stage ∈ reportStages opts, Keeps view stage := by
  simp only [reportStages, forall_mem_cons]
  exact ⟨keeps_reportStage opts .json blind, keeps_reportStage opts .html blind,
    keeps_reportStage opts .markdown blind, keeps_successStage, forall_mem_nil _⟩

def lastStages (opts : Options) : List Stage :=
  threatStage :: riskStage :: reportStages opts

variable {opts : Options}

theorem keeps_lastStages : ∀ stage ∈ lastStages opts, Keeps FileResults.known stage := by
  simp only [lastStages, forall_mem_cons]
  exact ⟨keeps_threatStage fun _ _ => rfl, fun _ => .after fun _ => .after fun _ => .pure rfl,
    keeps_reportStages opts fun _ _ => rfl⟩

/-! ## Runs of stages -/

theorem yields_runStages_cons {stage : Stage} {tl : List Stage} {res : FileResults}
    {mid goal : FileResults → Prop} (h1 : Audit.Yields (stage res) mid)
    (stops : ∀ msg, goal { res with error := some msg })
    (goes : ∀ next, mid next → Audit.Yields (runStages tl next) goal) :
    Audit.Yields (runStages (stage :: tl) res) goal := by
  rw [runStages]
  refine h1.attempt.bind fun out hk => ?_
  cases out with
  | error err => exact .after fun _ => .pure (stops _)
  | ok next => exact goes next (hk next rfl)

theorem yields_runStages {part : Type} {view : FileResults → part} {list : List Stage}
    (keeps : ∀ stage ∈ list, Keeps view stage)
    (blind : ∀ res error, view { res with error } = view res) (res : FileResults) :
    Audit.Yields (runStages list res) fun last => view last = view res := by
  induction list generalizing res with
  | nil => exact .pure rfl
  | cons stage tl ih =>
    obtain ⟨hh, later⟩ := forall_mem_cons.mp keeps
    refine yields_runStages_cons (hh res) (fun _ => blind _ _) fun next hs => ?_
    rw [← hs]
    exact ih later next

def Continues (earlier res : FileResults) : Prop :=
  ∃ dynamic aggregated, res.known = { earlier with dynamic, aggregated }.known ∧
    (aggregated = .record [] ∨ Findings.aggregate earlier.static dynamic = .ok aggregated)

theorem yields_runStages_static {reqs : Bool} {res : FileResults}
    (fresh : res.aggregated = .record []) :
    Audit.Yields (runStages (dynamicStage opts reqs :: aggregateStage ::
      lastStages opts) res) (Continues res) := by
  have ran : Audit.Yields (dynamicStage opts reqs res) fun next =>
      ∃ dynamic, next = { res with dynamic } := by
    rw [dynamicStage]
    split
    · exact .pure ⟨_, rfl⟩
    · exact .after fun _ => .after fun _ => .pure ⟨_, rfl⟩
  have hc (dynamic : Value) : Audit.Yields (aggregateStage { res with dynamic }) fun next =>
      ∃ aggregated, next = { res with dynamic, aggregated } ∧
        Findings.aggregate res.static dynamic = .ok aggregated :=
    .after fun _ => (Audit.Yields.ofOutcome _).bind fun _ hd => .pure ⟨_, rfl, hd⟩
  refine yields_runStages_cons ran (fun _ => ⟨_, _, rfl, Or.inl fresh⟩) ?_
  rintro _ ⟨dynamic, rfl⟩
  refine yields_runStages_cons (hc dynamic) (fun _ => ⟨_, _, rfl, Or.inl fresh⟩) ?_
  rintro _ ⟨aggregated, rfl, hd⟩ s last s' he
  exact ⟨_, _, yields_runStages keeps_lastStages (fun _ _ => rfl) _ s last s' he, Or.inr hd⟩

def Grounded (res : FileResults) : Prop :=
  res.skipped = none ∧ (res.static = .record [] ∧ res.aggregated = .record [] ∨
    FromPass res ∧ (res.aggregated = .record [] ∨
      Findings.aggregate res.static res.dynamic = .ok res.aggregated))

theorem yields_staticStage (opts : Options) (reqs : Bool) (path language : String) :
    Audit.Yields (staticStage opts reqs { path, language }) fun next =>
      FromPass next ∧ next.skipped = none ∧ next.aggregated = .record [] := by
  have passed : Audit.Yields (staticPass opts.static path language reqs) fun static =>
      FromPass { path, language, static } :=
    fun s static after hd => ⟨_, _, s, after, hd⟩
  exact .after fun _ => .after fun _ => passed.bind fun _ hk => .pure ⟨hk, rfl, rfl⟩

theorem yields_stages (opts : Options) (reqs : Bool) (path language : String) :
    Audit.Yields (runStages (stages opts reqs) { path, language }) Grounded := by
  refine yields_runStages_cons (yields_staticStage opts reqs path language)
    (fun _ => ⟨rfl, Or.inl ⟨rfl, rfl⟩⟩) ?_
  rintro next ⟨hk, skipped, fresh⟩ s last s' hd
  obtain ⟨dynamic, agg, hs, hc⟩ := yields_runStages_static fresh s last s' hd
  rw [FileResults.known, FileResults.known, FileResults.mk.injEq] at hs
  obtain ⟨samePath, sameLanguage, sameStatic, sameDynamic, sameAggregated, _, _, _, _, still⟩ := hs
  rw [Grounded, FromPass, samePath, sameLanguage, sameStatic, sameDynamic, sameAggregated]
  exact ⟨still.trans skipped, Or.inr ⟨hk, hc⟩⟩

theorem yields_stages_off (disabled : opts.dynamic.enabled = false) (reqs : Bool)
    (path language : String) :
    Audit.Yields (runStages (stages opts reqs) { path, language }) fun res =>
      res.aggregated = .record [] ∨ res.dynamic = dynamicOff := by
  refine yields_runStages_cons (yields_staticStage opts reqs path language)
    (fun _ => Or.inl rfl) fun next ⟨_, _, fresh⟩ => ?_
  have unrun : Audit.Yields (dynamicStage opts reqs next) fun later =>
      later.dynamic = dynamicOff := by
    rw [dynamicStage, disabled]
    exact .pure rfl
  refine yields_runStages_cons unrun (fun _ => Or.inl fresh) fun later off => ?_
  have hc : Audit.Yields (aggregateStage later) fun last => last.dynamic = dynamicOff :=
    .after fun _ => .after fun _ => .pure off
  refine yields_runStages_cons hc (fun _ => Or.inr off) fun last off => ?_
  intro s res s' hd
  have kept := yields_runStages keeps_lastStages (fun _ _ => rfl) last s res s' hd
  exact Or.inr ((congrArg (·.dynamic) kept).trans off)

theorem looks_configOr (cfg : Option Value) : Audit.Looks (configOr cfg) := by
  have document (dir nm : String) : Audit.Looks (Config.document? dir nm) := by
    refine .bind (.exists? _) fun f => ?_
    split
    · exact .pure _
    · refine .bind (.readText _) fun t => ?_
      split
      · exact .pure _
      · exact .throw _
  cases cfg with
  | some cfg => exact .pure cfg
  | none =>
    refine .bind (document _ _) fun _ => .bind (document _ _) fun _ =>
      .bind (document _ _) fun agent => ?_
    cases agent with
    | some stated => exact .bind (.ofOutcome _) fun _ => .pure _
    | none => exact .bind (.pure _) fun _ => .pure _

variable {p : String} {s : Session}

theorem analyzeFile_cases {cfg : Option Value} {s' : Session} {res : FileResults}
    (hans : (analyzeFile p cfg).perform s = (.ok res, s')) :
    ∃ loaded mid idle looked, (configOr cfg).perform s = (.ok loaded, mid) ∧
        (isIdle p).perform mid = (.ok idle, looked) ∧ (idle = true ∧ res = idleResults p ∨
            idle = false ∧ Grounded res) := by
  obtain ⟨loaded, mid, configured, rest⟩ := Audit.perform_bind_eq_ok.mp hans
  obtain ⟨idle, looked, hk, rest⟩ := Audit.perform_bind_eq_ok.mp rest
  refine ⟨loaded, mid, idle, looked, configured, hk, ?_⟩
  cases idle with
  | true =>
    obtain ⟨_, _, _, he⟩ := Audit.perform_bind_eq_ok.mp rest
    cases he
    exact Or.inl ⟨rfl, rfl⟩
  | false =>
    obtain ⟨opts, _, _, staged⟩ := Audit.perform_bind_eq_ok.mp rest
    refine Or.inr ⟨rfl, ?_⟩
    dsimp only at staged
    -- the language is fixed or detected before the stages begin
    split at staged
    · obtain ⟨lang, _, _, ran⟩ := Audit.perform_bind_eq_ok.mp staged
      exact yields_stages _ _ _ _ _ _ _ ran
    · obtain ⟨lang, _, _, ran⟩ := Audit.perform_bind_eq_ok.mp staged
      exact yields_stages _ _ _ _ _ _ _ ran

theorem perform_analyzeFile {language : String} {cfg : Option Value} {doc : Value}
    (configured : (configOr cfg).perform s = (.ok doc, s))
    (active : (isIdle p).perform s = (.ok false, s)) (chosen : optionsOf doc = .ok opts)
    (hk : (if Str.lower (Path.name p) == "requirements.txt" then pure "python"
      else supportedLanguage p).perform s = (.ok language, s)) :
    (analyzeFile p cfg).perform s =
      (runStages (stages opts (Str.lower (Path.name p) == "requirements.txt"))
        { path := p, language }).perform s := by
  rw [analyzeFile, Audit.perform_bind_ok configured, Audit.perform_bind_ok active]
  dsimp only
  rw [if_neg Bool.false_ne_true, Audit.perform_given chosen]
  split
  · rename_i requirements
    rw [if_pos requirements] at hk
    exact Audit.perform_bind_ok hk
  · rename_i requirements
    rw [if_neg requirements] at hk
    exact Audit.perform_bind_ok hk

end SourceAudit.Analysis
