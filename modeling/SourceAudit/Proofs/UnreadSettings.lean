import SourceAudit.Proofs.AgentDocuments

/-!
# Settings that are never read

The settings of the agent have a part on redaction. Two collections of settings that differ in this
part only are the same to every step of an analysis, so an analysis is the same computation whatever
that part says.
-/

namespace SourceAudit

namespace Value

theorem field?_cons (k : String) (e : String × Value) (tl : List (String × Value)) :
    field? k (e :: tl) = if e.1 = k then some e.2 else field? k tl := by
  rw [field?, List.find?_cons, field?]
  grind

theorem field?_setField (k other : String) (v : Value) (fs : List (String × Value)) :
    field? k (setField other v fs) = if other = k then some v else field? k fs := by
  induction fs with
  | nil => rw [setField, field?_cons]
  | cons e tl ih => grind [setField, field?_cons]

end Value

namespace Agent

open Outside
open SourceAudit.Value (field? setField field?_setField)

/-! ## Fields that agree -/

def AgreeExcept (unread : String) (fs others : List (String × Value)) : Prop :=
  ∀ k, unread ≠ k → field? k fs = field? k others

variable {unread : String} {fs others : List (String × Value)}

theorem AgreeExcept.setField (agree : AgreeExcept unread fs others) (k : String) (v : Value) :
    AgreeExcept unread (setField k v fs) (setField k v others) := by
  intro other hdis
  rw [field?_setField, field?_setField, agree other hdis]

theorem AgreeExcept.setUnread (agree : AgreeExcept unread fs others) (v another : Value) :
    AgreeExcept unread (Value.setField unread v fs) (Value.setField unread another others) := by
  intro other hdis
  rw [field?_setField, field?_setField, if_neg hdis, if_neg hdis, agree other hdis]

theorem AgreeExcept.setRight (agree : AgreeExcept unread fs others) (v : Value) :
    AgreeExcept unread fs (Value.setField unread v others) := by
  intro other hdis
  rw [field?_setField, if_neg hdis, agree other hdis]

theorem AgreeExcept.override (agree : AgreeExcept unread fs others) (k : String) (v : Value) :
    AgreeExcept unread (Value.setField k (Agent.override (field? k fs) v) fs)
      (Value.setField k (Agent.override (field? k others) v) others) := by
  by_cases hs : unread = k
  · rw [← hs]
    exact agree.setUnread _ _
  · rw [agree k hs]
    exact agree.setField k _

theorem AgreeExcept.overrideFields (agree : AgreeExcept unread fs others)
    (ovr : List (String × Value)) :
    AgreeExcept unread (Agent.overrideFields fs ovr) (Agent.overrideFields others ovr) := by
  induction ovr generalizing fs others with
  | nil => simpa only [Agent.overrideFields] using agree
  | cons e tl ih =>
    rw [Agent.overrideFields, Agent.overrideFields]
    exact ih (agree.override e.1 e.2)

theorem AgreeExcept.overrideUnread (agree : AgreeExcept unread fs others) (v : Value)
    (ovr : List (String × Value)) :
    AgreeExcept unread (Agent.overrideFields fs ovr)
      (Agent.overrideFields others (Value.setField unread v ovr)) := by
  induction ovr generalizing fs others with
  | nil =>
    rw [Value.setField, Agent.overrideFields, Agent.overrideFields, Agent.overrideFields]
    exact agree.setRight _
  | cons e tl ih =>
    rw [Value.setField]
    by_cases hs : e.1 = unread
    · rw [if_pos (beq_iff_eq.mpr hs), Agent.overrideFields, Agent.overrideFields, hs]
      exact (agree.setUnread _ _).overrideFields tl
    · rw [if_neg (by simpa using hs), Agent.overrideFields, Agent.overrideFields]
      exact ih (agree.override e.1 e.2)

/-! ## Settings that agree -/

def Agree (settings others : Value) : Prop :=
  ∀ k, "redaction" ≠ k → ∀ standard, settings.getD k standard = others.getD k standard

theorem AgreeExcept.agree (agree : AgreeExcept "redaction" fs others) :
    Agree (.record fs) (.record others) := by
  intro k hdis standard
  rw [Value.getD, Value.getD, agree k hdis]

def withRedaction (redaction cfg : Value) : Value :=
  cfg.set "agent" (((cfg.lookup? "agent").getD (.record [])).set "redaction" redaction)

theorem orElse_record (fs : List (String × Value)) :
    (Value.record fs).orElse (.record []) = .record fs := by
  cases fs <;> rfl

theorem withRedaction_record (redaction : Value) (fs : List (String × Value)) :
    withRedaction redaction (.record fs) =
      .record (Value.setField "agent"
        (((field? "agent" fs).getD (.record [])).set "redaction" redaction) fs) := rfl

theorem withRedaction_of_other {cfg : Value} (ho : ∀ fs, cfg ≠ .record fs)
    (redaction : Value) : withRedaction redaction cfg = cfg := by
  cases cfg with
  | record fs => exact absurd rfl (ho fs)
  | _ => rfl

theorem settingsOf_withRedaction (redaction cfg : Value) :
    (∃ err, settingsOf (cfg.orElse (.record [])) = .error err ∧
        settingsOf ((withRedaction redaction cfg).orElse (.record [])) = .error err) ∨
      ∃ settings others, settingsOf (cfg.orElse (.record [])) = .ok settings ∧
        settingsOf ((withRedaction redaction cfg).orElse (.record [])) = .ok others ∧
          Agree settings others := by
  -- the same settings agree with themselves, and so do two equal faults
  have settled {out other : Outcome Value} (hs : other = out) :
      (∃ err, out = .error err ∧ other = .error err) ∨
        ∃ settings others, out = .ok settings ∧ other = .ok others ∧ Agree settings others := by
    cases out with
    | error err => exact Or.inl ⟨err, rfl, hs⟩
    | ok settings => exact Or.inr ⟨settings, settings, rfl, hs, fun _ _ _ => rfl⟩
  by_cases shape : ∃ fs, cfg = .record fs
  · obtain ⟨fs, rfl⟩ := shape
    have hf (agent : Value) :
        (Value.record (Value.setField "agent" agent fs)).lookup? "agent" = some agent := by
      rw [Value.lookup?, field?_setField, if_pos rfl]
    rw [withRedaction_record, orElse_record, orElse_record, settingsOf, settingsOf, hf,
      Value.lookup?]
    cases (field? "agent" fs).getD (.record []) with
    | record ovr =>
      have hs : AgreeExcept "redaction" standardSettings standardSettings := fun _ _ => rfl
      exact Or.inr ⟨_, _, rfl, rfl, (hs.overrideUnread redaction ovr).agree⟩
    | _ => exact settled rfl
  · exact settled (by rw [withRedaction_of_other (fun fs hs => shape ⟨fs, hs⟩)])

theorem getD_withRedaction (redaction cfg : Value) {k : String} (hdis : "agent" ≠ k)
    (standard : Value) :
    ((withRedaction redaction cfg).orElse (.record [])).getD k standard =
      (cfg.orElse (.record [])).getD k standard := by
  by_cases shape : ∃ fs, cfg = .record fs
  · obtain ⟨fs, rfl⟩ := shape
    rw [withRedaction_record, orElse_record, orElse_record, Value.getD, Value.getD,
      field?_setField, if_neg hdis]
  · rw [withRedaction_of_other (fun fs hs => shape ⟨fs, hs⟩)]

section

variable {settings others : Value} (agree : Agree settings others)

include agree

theorem Agree.integerSetting {k : String} (hdis : "redaction" ≠ k) (standard : Int) :
    integerSetting settings k standard = integerSetting others k standard := by
  rw [Agent.integerSetting, Agent.integerSetting, agree k hdis]

theorem Agree.get {k : String} (hdis : "redaction" ≠ k) : settings.get k = others.get k :=
  agree k hdis .null

theorem Agree.serviceKey : serviceKey settings = serviceKey others := by
  rw [Agent.serviceKey, Agent.serviceKey, agree.get (by decide)]

theorem Agree.providerOf (k : Value) : providerOf settings k = providerOf others k := by
  simp (disch := decide) only [Agent.providerOf, agree _, agree.integerSetting, agree.get]

theorem Agree.cacheOptionsOf : cacheOptionsOf settings = cacheOptionsOf others := by
  rw [Agent.cacheOptionsOf, Agent.cacheOptionsOf, agree "cache" (by decide)]

theorem Agree.projectPayload (es : List SourceEntry) (sum : Value) :
    projectPayload es sum settings = projectPayload es sum others := by
  simp (disch := decide) only [Agent.projectPayload, agree _, agree.integerSetting]

theorem Agree.runTargets (es : List SourceEntry) (cfg : Value) :
    runTargets es cfg settings = runTargets es cfg others := by
  rw [Agent.runTargets, Agent.runTargets, agree.integerSetting (by decide)]

theorem Agree.selectTargets (prov : Provider) (es : List SourceEntry) (lim : Int) (lang : String) :
    selectTargets prov settings es lim lang = selectTargets prov others es lim lang := by
  simp (disch := decide) only [selectTargets_eq, agree _, agree.integerSetting]

theorem Agree.selectAll (prov : Provider) (es : List SourceEntry) (lim : Int) :
    selectAll prov settings es lim = selectAll prov others es lim := by
  simp only [Agent.selectAll, agree.selectTargets]

theorem Agree.requestedAnswer (prov : Provider) (pay : Value) (cache : CacheOptions) (k : String) :
    requestedAnswer prov settings pay cache k = requestedAnswer prov others pay cache k := by
  simp (disch := decide) only [Agent.requestedAnswer, agree _]

theorem Agree.answerFor (prov : Provider) (pay : Value) :
    answerFor prov settings pay = answerFor prov others pay := by
  simp only [answerFor_eq, agree.cacheOptionsOf, agree.requestedAnswer]

end

/-! ## The analysis -/

theorem ofOutcome_error_bind {α β : Type} (err : Fault) (next : α → Audit β) :
    (Audit.ofOutcome (.error err) >>= next) = throw err := rfl

theorem ofOutcome_ok_bind {α β : Type} (v : α) (next : α → Audit β) :
    (Audit.ofOutcome (.ok v) >>= next) = next v := rfl

theorem runTargets_withRedaction (redaction cfg settings : Value) (es : List SourceEntry) :
    runTargets es (withRedaction redaction cfg) settings = runTargets es cfg settings := by
  rw [runTargets, runTargets, getD_withRedaction redaction cfg (by decide)]

theorem Agree.observe {settings others : Value} (agree : Agree settings others)
    (redaction cfg : Value) (prov : Provider) (es : List SourceEntry) :
    observe prov (withRedaction redaction cfg) others es = observe prov cfg settings es := by
  simp (disch := decide) only [Agent.observe, agree.integerSetting, agree.selectAll,
    agree.runTargets, runTargets_withRedaction, getD_withRedaction]

theorem analyze_withRedaction (redaction paths cfg : Value) :
    analyze paths (withRedaction redaction cfg) = analyze paths cfg := by
  rw [analyze, analyze]
  rcases settingsOf_withRedaction redaction cfg with
    ⟨err, failed, failedToo⟩ | ⟨settings, others, hr, readOther, agree⟩
  · rw [failed, failedToo, ofOutcome_error_bind, ofOutcome_error_bind]
  · rw [hr, readOther, ofOutcome_ok_bind, ofOutcome_ok_bind]
    simp (disch := decide) only [agree _, agree.serviceKey, agree.providerOf,
      agree.observe, agree.projectPayload, agree.answerFor]

end Agent

end SourceAudit
