import SourceAudit.Agent.Analysis
import SourceAudit.Proofs.Conversation
import SourceAudit.Proofs.ReplyShapes
import SourceAudit.Proofs.ReadForms

/-!
# The documents of requests

A request carries one document: the previews of the files of a language when targets are to be
selected, or the files of the project when it is to be analysed.
-/

namespace SourceAudit.Agent

open Outside Outside.Audit
open SourceAudit.Outcome

/-! ## Files -/

theorem isPlain_ofText? (t : Option String) : Json.isPlain (Value.ofText? t) = true := by
  cases t <;> rfl

theorem arePlain_map_text (texts : List String) : Json.arePlain (texts.map .text) = true := by
  induction texts with
  | nil => rfl
  | cons t tl ih => exact ih

theorem isPlain_preview {lang : String} {lineCount : Int} {e : SourceEntry} {shown : Value}
    (made : preview lang lineCount e = .ok shown) : Json.isPlain shown = true := by
  obtain ⟨f, _, hd⟩ := bind_eq_ok.mp made
  cases hd
  simp [Json.isPlain, Json.plainFields, isPlain_ofText?, Value.ofTexts, arePlain_map_text,
    Value.ofNat]

theorem isPlain_sentFile (lim : Int) (e : SourceEntry) : Json.isPlain (sentFile lim e) = true := by
  simp [sentFile, Json.isPlain, Json.plainFields, isPlain_ofText?]

theorem arePlain_of_mapM {α : Type} {step : α → Outcome Value}
    (hp : ∀ x v, step x = .ok v → Json.isPlain v = true) {xs : List α}
    {vs : List Value} (hd : xs.mapM step = .ok vs) : Json.arePlain vs = true := by
  induction mapM_eq_ok_iff.mp hd with
  | nil => rfl
  | cons made rest ih =>
    rw [Json.arePlain, hp _ _ made, ih (mapM_eq_ok_iff.mpr rest)]
    rfl

theorem arePlain_map_sentFile (lim : Int) (es : List SourceEntry) :
    Json.arePlain (es.map (sentFile lim)) = true := by
  induction es with
  | nil => rfl
  | cons e tl ih =>
    rw [List.map_cons, Json.arePlain, isPlain_sentFile, ih]
    rfl

variable {files : List Value}

theorem fitting_of_arePlain (lim : Int) (hp : Json.arePlain files = true) (used : Nat) :
    ∃ sent, fitting lim used files = .ok sent ∧ Json.arePlain sent = true := by
  induction files generalizing used with
  | nil => exact ⟨[], rfl, rfl⟩
  | cons file tl ih =>
    rw [Json.arePlain, Bool.and_eq_true] at hp
    obtain ⟨ln, lined⟩ :=
      (Json.complete_write_isOk .line 0 file).mpr (Json.writable_of_isPlain file hp.1)
    rw [fitting, Json.line, bind_ok lined]
    dsimp only
    split
    · exact ih hp.2 used
    · obtain ⟨sent, hd, sentPlain⟩ := ih hp.2 (used + ln.length)
      refine ⟨file :: sent, bind_eq_ok.mpr ⟨sent, hd, rfl⟩, ?_⟩
      rw [Json.arePlain, hp.1, sentPlain]
      rfl

/-! ## Documents -/

def selectionDocument (lim : Int) (lang : String) (previews : List Value) : Value :=
  .record [("task", .text "select_dynamic_targets"),
    ("constraints", .record [("max_targets", .int lim), ("language", .text lang)]),
    ("files", .list previews)]

theorem isPlain_selectionDocument (lim : Int) (lang : String) {previews : List Value}
    (hp : Json.arePlain previews = true) :
    Json.isPlain (selectionDocument lim lang previews) = true := by
  simp [selectionDocument, Json.isPlain, Json.plainFields, hp]

def analysisDocument (n : Nat) (files : List Value) (sum : Value) (required : Bool)
    (fnds : Int) : Value :=
  .record [("task", .text "analyze_project"),
    ("project", .record [("files_count", .ofNat n)]), ("files", .list files),
    ("dynamic_summary", sum), ("constraints", .record [("evidence_required", .bool required),
      ("max_findings", .int fnds), ("output_language", .text "zh-CN")])]

theorem writable_analysisDocument (hp : Json.arePlain files = true) (n : Nat)
    (sum : Value) (required : Bool) (fnds : Int) :
    Json.writable (analysisDocument n files sum required fnds) = Json.writable sum := by
  have hl := Json.writableItems_of_arePlain files hp
  simp [analysisDocument, Json.writable, Json.writableFields, hl, Value.ofNat]

def SentFiles (es : List SourceEntry) (files : List Value) : Prop :=
  ∃ total each, fitting total 0 (es.map (sentFile each)) = .ok files

variable {es : List SourceEntry}

theorem SentFiles.arePlain (sent : SentFiles es files) : Json.arePlain files = true := by
  obtain ⟨total, each, hd⟩ := sent
  obtain ⟨others, hs, hp⟩ := fitting_of_arePlain total (arePlain_map_sentFile each es) 0
  rw [hd] at hs
  cases hs
  exact hp

def sentFiles (settings : Value) (es : List SourceEntry) : Outcome (List Value) := do
  let total ← integerSetting settings "max_chars" 12000
  let each ← integerSetting settings "max_file_chars" 4000
  fitting total 0 (es.map (sentFile each))

theorem SentFiles.of_sentFiles {settings : Value}
    (fitted : sentFiles settings es = .ok files) : SentFiles es files := by
  obtain ⟨total, _, fitted⟩ := bind_eq_ok.mp fitted
  obtain ⟨each, _, fitted⟩ := bind_eq_ok.mp fitted
  exact ⟨total, each, fitted⟩

variable {pay : Value}

theorem projectPayload_eq {sum settings : Value} (made : projectPayload es sum settings = .ok pay) :
    ∃ files required fnds, sentFiles settings es = .ok files ∧
      pay = analysisDocument es.length files sum required fnds := by
  obtain ⟨total, totalRead, made⟩ := bind_eq_ok.mp made
  obtain ⟨each, eachRead, made⟩ := bind_eq_ok.mp made
  obtain ⟨files, fitted, made⟩ := bind_eq_ok.mp made
  obtain ⟨required, _, made⟩ := bind_eq_ok.mp made
  obtain ⟨fnds, _, made⟩ := bind_eq_ok.mp made
  cases made
  refine ⟨files, required.truthy, fnds, ?_, rfl⟩
  rw [sentFiles, bind_ok totalRead, bind_ok eachRead, fitted]

/-! ## Messages -/

def messagesOf (prompt t : String) : Value :=
  .list [.record [("role", .text "system"), ("content", .text prompt)],
    .record [("role", .text "user"), ("content", .text t)]]

theorem looks_loadPrompt (p inline : Value) : Looks (loadPrompt p inline) := by
  refine .bind (.ofOutcome _) fun inline => ?_
  split
  · exact .pure _
  · refine .bind (.ofOutcome _) fun p => .bind (.exists? p) fun f => ?_
    split
    · exact .pure _
    · refine .bind (Steady.readText p).attempt fun read => ?_
      cases read <;> exact .pure _

theorem looks_messages (pay p inline : Value) : Looks (messages pay p inline) :=
  .bind (looks_loadPrompt p inline) fun _ => .bind (.ofOutcome _) fun _ => .pure _

theorem looks_serviceKey (settings : Value) : Looks (serviceKey settings) := by
  refine .bind (.ofOutcome _) fun stated => ?_
  split
  · exact .pure _
  · exact .looking (fun _ _ => rfl) fun _ => .pure _

theorem looks_detect (p : String) : Looks (Source.detect p) := by
  rw [Source.detect]
  split
  · exact .pure _
  · split
    · exact .pure _
    · refine .bind (.isFile p) fun file => ?_
      split
      · refine .bind (Steady.readTextSkipping p).attempt fun read => ?_
        cases read <;> exact .pure _
      · exact .pure _

theorem looks_collectFile (p : String) : Looks (collectFile p) :=
  .bind (.readBytes p) fun _ => .bind (looks_detect p) fun _ => .pure _

theorem looks_collectFiles (nms : List Value) : Looks (collectFiles nms) := by
  induction nms with
  | nil => exact .pure _
  | cons nm tl ih =>
    cases nm with
    | text p =>
      rw [collectFiles]
      refine .bind (.exists? p) fun f => ?_
      split
      · exact ih
      · exact .bind (looks_collectFile p) fun _ => .bind ih fun _ => .pure _
    | _ => exact ih

variable {p inline : Value}

theorem perform_loadPrompt (pathShape : TextOrAbsent p) (inlineShape : TextOrAbsent inline)
    (s : Session) : ∃ prompt, (loadPrompt p inline).perform s = (.ok prompt, s) := by
  obtain ⟨stated, statedRead⟩ := (succeeds_strip_iff inline "").mpr inlineShape
  obtain ⟨pl, placeRead⟩ := (succeeds_strip_iff p "").mpr pathShape
  rw [loadPrompt, perform_given statedRead]
  split
  · exact ⟨stated, rfl⟩
  · rw [perform_given placeRead]
    obtain ⟨e, looked⟩ := Analysis.perform_lookup pl s
    rw [perform_bind_ok (perform_exists? looked)]
    split
    · exact ⟨"", rfl⟩
    · rcases hr : (Audit.readText pl).perform s with ⟨out, s'⟩
      cases Looks.eq (.readText pl) hr
      rw [perform_attempt_bind hr]
      cases out with
      | ok t => exact ⟨_, rfl⟩
      | error err => exact ⟨"", rfl⟩

theorem perform_messages_eq_ok {v : Value} {s s' : Session}
    (made : (messages pay p inline).perform s = (.ok v, s')) :
    ∃ prompt t, Json.indented pay = .ok t ∧ v = messagesOf prompt t ∧ s' = s := by
  obtain ⟨prompt, loaded, hb, made⟩ := perform_bind_eq_ok.mp made
  obtain ⟨t, later, wrote, made⟩ := perform_bind_eq_ok.mp made
  rw [perform_ofOutcome, Prod.mk.injEq] at wrote
  obtain ⟨hw, rfl⟩ := wrote
  cases made
  exact ⟨_, t, hw, rfl, (looks_loadPrompt p inline).eq hb⟩

theorem perform_messages (can : Json.writable pay = true) (pathShape : TextOrAbsent p)
    (inlineShape : TextOrAbsent inline) (s : Session) :
    ∃ v, (messages pay p inline).perform s = (.ok v, s) := by
  obtain ⟨prompt, loaded⟩ := perform_loadPrompt pathShape inlineShape s
  obtain ⟨t, hw⟩ := (Json.complete_write_isOk .indented 0 pay).mpr can
  have wrote : (Audit.ofOutcome (Json.indented pay)).perform s = (.ok t, s) := by
    rw [perform_ofOutcome, Json.indented, hw]
  refine ⟨messagesOf (if prompt.isEmpty then standardPrompt else prompt) t, ?_⟩
  rw [messages, perform_bind_ok loaded]
  dsimp only
  rw [perform_bind_ok wrote]
  rfl

/-! ## The two kinds of requests -/

def documentOf : Outcome String → Value
  | .ok c => readReply c
  | .error _ => .record []

theorem selectTargets_eq (prov : Provider) (settings : Value) (es : List SourceEntry)
    (lim : Int) (lang : String) :
    selectTargets prov settings es lim lang =
      if es.isEmpty || decide (lim ≤ 0) then pure []
      else do
        let lineCount ← Audit.ofOutcome (integerSetting settings "select_preview_lines" 120)
        let previews ← Audit.ofOutcome (es.mapM (preview lang lineCount))
        let p ← Audit.ofOutcome (settings.getD "prompt_select_path" (.text ""))
        let inline ← Audit.ofOutcome (settings.getD "prompt_select_inline" (.text ""))
        let msgs ← messages (selectionDocument lim lang previews) p inline
        let bound ← Audit.ofOutcome (settings.getD "select_max_tokens" .null)
        let out ← Audit.attempt (prov.chat msgs bound)
        let tgts ← Audit.ofOutcome ((namedTargets (documentOf out)).mapM Value.asKey)
        return choose lang lim.toNat tgts es := by
  rw [selectTargets]
  split
  · rfl
  · refine bind_congr fun lineCount => bind_congr fun previews => bind_congr fun p =>
      bind_congr fun inline => bind_congr fun msgs => bind_congr fun bound =>
        bind_congr fun out => ?_
    cases out with
    | ok c => simp only [documentOf, pure_bind]
    | error err => simp only [documentOf, pure_bind]

def keptAnswer (cache : CacheOptions) (k : String) : Audit Value :=
  if cache.enabled then Project.Cache.load cache.path (.text k) (.int cache.lifetime)
  else pure .null

def requestedAnswer (prov : Provider) (settings pay : Value) (cache : CacheOptions)
    (k : String) : Audit (Value × String) := do
  let p ← Audit.ofOutcome (settings.getD "prompt_analyze_path" (.text ""))
  let inline ← Audit.ofOutcome (settings.getD "prompt_analyze_inline" (.text ""))
  let msgs ← messages pay p inline
  let bound ← Audit.ofOutcome (settings.getD "analyze_max_tokens" .null)
  match ← Audit.attempt (askModel prov cache k msgs bound) with
  | .ok answer => return (answer, "")
  | .error err => return (.record [], err.message)

theorem answerFor_eq (prov : Provider) (settings pay : Value) :
    answerFor prov settings pay = (do
      let cache ← Audit.ofOutcome (cacheOptionsOf settings)
      let k ← Audit.ofOutcome (documentKey pay)
      let kept ← keptAnswer cache k
      match kept with
      | .null => requestedAnswer prov settings pay cache k
      | answer => return (answer, "")) := by
  rw [answerFor]
  refine bind_congr fun cache => bind_congr fun k => ?_
  rw [keptAnswer]
  dsimp only
  split
  · refine bind_congr fun kept => ?_
    cases kept <;> rfl
  · rfl

end SourceAudit.Agent
