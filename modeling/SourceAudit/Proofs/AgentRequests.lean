import SourceAudit.Project.Context
import SourceAudit.Proofs.AgentAnswers
import SourceAudit.Proofs.UnreadSettings

/-!
# What requests carry

Every request of an analysis carries files as they were read: previews of them when targets are
selected, and otherwise their texts up to the limits on length.
-/

open List

namespace SourceAudit

namespace Outside.Audit

variable {α β : Type} {allowed : Value → Prop} {s : Session}

def Sends (allowed : Value → Prop) (act : Audit α) (s : Session) : Prop :=
  ∃ sent, (act.perform s).2.conversation.requests =
    sent ++ s.conversation.requests ∧ ∀ request ∈ sent, allowed request

namespace Sends

variable {act : Audit α}

theorem ofSilent (silent : Silent act) (s : Session) : Sends allowed act s :=
  ⟨[], by rw [silent s]; rfl, nofun⟩

variable {next : α → Audit β}

theorem bind (h1 : Sends allowed act s) (h2 : ∀ v s', act.perform s = (.ok v, s') →
      Sends allowed (next v) s') : Sends allowed (act >>= next) s := by
  obtain ⟨sent, hb, each⟩ := h1
  rcases hperf : act.perform s with ⟨out, s'⟩
  rw [hperf] at hb
  cases out with
  | error err =>
    refine ⟨sent, ?_, each⟩
    rw [perform_bind_error hperf]
    exact hb
  | ok v =>
    obtain ⟨later, he, eachLater⟩ := h2 v s' hperf
    refine ⟨later ++ sent, ?_, ?_⟩
    · rw [perform_bind_ok hperf, he, hb, append_assoc]
    · intro request hm
      rcases mem_append.mp hm with hm | hm
      · exact eachLater request hm
      · exact each request hm

theorem looking (looks : Looks act) (h2 : ∀ v, act.perform s = (.ok v, s) →
      Sends allowed (next v) s) : Sends allowed (act >>= next) s := by
  refine bind (ofSilent looks.apart.leaves s) fun v after hd => ?_
  cases looks.eq hd
  exact h2 v hd

theorem given {out : Outcome α} (h2 : ∀ v, out = .ok v → Sends allowed (next v) s) :
    Sends allowed (Audit.ofOutcome out >>= next) s := by
  refine looking (.ofOutcome out) fun v hd => h2 v ?_
  rw [perform_ofOutcome] at hd
  exact congrArg Prod.fst hd

theorem mono {wider : Value → Prop} (sends : Sends allowed act s)
    (weaker : ∀ request, allowed request → wider request) : Sends wider act s := by
  obtain ⟨sent, hd, each⟩ := sends
  exact ⟨sent, hd, fun request hm => weaker request (each request hm)⟩

theorem attempt (sends : Sends allowed act s) :
    Sends allowed (Audit.attempt act) s := sends

theorem mapM {step : α → Audit β} (each : ∀ x s, Sends allowed (step x) s)
    (xs : List α) (s : Session) : Sends allowed (xs.mapM step) s := by
  induction xs generalizing s with
  | nil => exact ofSilent (.pure []) s
  | cons x tl ih =>
    rw [mapM_cons]
    refine bind (each x s) fun v mid _ => ?_
    exact bind (ih mid) fun others after _ => ofSilent (.pure _) after

end Sends

theorem conversation_bind_silent {act : Audit α} {next : α → Audit β}
    (silent : ∀ v, Silent (next v)) (s : Session) :
    ((act >>= next).perform s).2.conversation = (act.perform s).2.conversation := by
  rcases hperf : act.perform s with ⟨out, s'⟩
  cases out with
  | error err => rw [perform_bind_error hperf]
  | ok v => rw [perform_bind_ok hperf, silent v s']

end Outside.Audit

namespace Agent

open Outside Outside.Audit
open SourceAudit.Outcome
open SourceAudit.Project (Cache.load Cache.save)

/-! ## Requests and their files -/

inductive Carries (es : List SourceEntry) (request : Value) : List Value → Prop
  | previews {prompt t lang : String} {lim lineCount : Int} {previews : List Value}
      (messages : request.lookup? "messages" = some (messagesOf prompt t))
      (hw : Json.indented (selectionDocument lim lang previews) = .ok t)
      (shown : (entriesIn es lang).mapM (preview lang lineCount) = .ok previews) :
      Carries es request previews
  | files {prompt t : String} {files : List Value} {sum : Value} {required : Bool}
      {fnds : Int}
      (messages : request.lookup? "messages" = some (messagesOf prompt t))
      (hw : Json.indented
        (analysisDocument es.length files sum required fnds) = .ok t)
      (sent : SentFiles es files) : Carries es request files

variable {other t : String}

theorem messagesOf_injective {prompt another : String}
    (hs : messagesOf prompt t = messagesOf other another) : t = another := by
  simp only [messagesOf, Value.list.injEq, List.cons.injEq, Value.record.injEq, Prod.mk.injEq,
    Value.text.injEq, true_and, and_true] at hs
  exact hs.2

theorem read?_of_indented {doc : Value} (made : Json.indented doc = .ok t) :
    Json.read? t = some (Json.decoded doc) := by
  have can := (Json.complete_write_isOk .indented 0 doc).mp ⟨t, made⟩
  rw [Json.indented, Json.Written.complete_eq_ok] at made
  rw [← made.2, Json.read?_write, if_pos can]

variable {request : Value}

theorem requests_afterRequest {call : Value} (asked : call.lookup? "chat" = some request)
    (s : Session) :
    (afterRequest call s).conversation.requests = request :: s.conversation.requests := by
  have added : (call :: s.calls).filterMap (fun call => call.lookup? "chat") =
      request :: s.calls.filterMap fun call => call.lookup? "chat" :=
    filterMap_cons_some asked
  exact added

theorem sends_chat {allowed : Value → Prop} {msgs : Value}
    (each : ∀ request, request.lookup? "messages" = some msgs → allowed request)
    (prov : Provider) (lim : Value) (s : Session) : Sends allowed (prov.chat msgs lim) s := by
  rcases perform_chat prov msgs lim s with
    ⟨err, failed⟩ | ⟨call, ⟨request, asked, carried⟩, sent⟩
  · refine ⟨[], ?_, nofun⟩
    rw [failed]
    rfl
  · refine ⟨[request], ?_, ?_⟩
    · rw [sent, requests_afterRequest asked]
      rfl
    · intro other hm
      rw [mem_singleton.mp hm]
      exact each request carried

/-! ## A request determines its files -/

theorem arePlain_previews {es : List SourceEntry} {lang : String} {lineCount : Int}
    {previews : List Value} (shown : es.mapM (preview lang lineCount) = .ok previews) :
    Json.arePlain previews = true :=
  arePlain_of_mapM (fun _ _ made => isPlain_preview made) shown

variable {es : List SourceEntry} {files : List Value}

theorem Carries.read (carries : Carries es request files) :
    ∃ prompt t, request.lookup? "messages" = some (messagesOf prompt t) ∧
      (Json.read? t).bind (·.lookup? "files") = some (.list files) := by
  cases carries with
  | previews messages hw shown =>
    refine ⟨_, _, messages, ?_⟩
    rw [read?_of_indented hw]
    simp [selectionDocument, Json.decoded, Json.decodedFields, Value.setField, Value.lookup?,
      Value.field?, Json.decodedItems_of_arePlain _ (arePlain_previews shown)]
  | files messages hw sent =>
    refine ⟨_, _, messages, ?_⟩
    rw [read?_of_indented hw]
    simp [analysisDocument, Json.decoded, Json.decodedFields, Value.setField, Value.lookup?,
      Value.field?, Json.decodedItems_of_arePlain _ sent.arePlain]

theorem carries_unique {others : List SourceEntry} {otherFiles : List Value}
    (h1 : Carries es request files) (h2 : Carries others request otherFiles) :
    files = otherFiles := by
  obtain ⟨prompt, t, messages, hr⟩ := h1.read
  obtain ⟨_, other, messagesToo, readToo⟩ := h2.read
  obtain rfl := messagesOf_injective (Option.some.inj (messages.symm.trans messagesToo))
  exact Value.list.inj (Option.some.inj (hr.symm.trans readToo))

/-! ## Sending requests -/

theorem silent_save (dir k answer : Value) : Silent (Cache.save dir k answer) := by
  rw [Cache.save]
  split
  · exact .pure _
  · exact .bind (.makeDirectories _) fun _ => .bind (Steady.writeText _ _).leaves.attempt fun _ => .pure _

theorem silent_keep (cache : CacheOptions) (k c : String) :
    Silent (do
      if cache.enabled then Cache.save cache.path (.text k) (readReply c)
      return readReply c) := by
  split
  · exact .bind (silent_save _ _ _) fun _ => .pure _
  · exact .pure _

def CarriesSome (es : List SourceEntry) (request : Value) : Prop :=
  ∃ files, Carries es request files

theorem sends_selectTargets (prov : Provider) (settings : Value) (es : List SourceEntry)
    (lim : Int) (lang : String) (s : Session) :
    Sends (CarriesSome es) (selectTargets prov settings (entriesIn es lang) lim lang) s := by
  rw [selectTargets_eq]
  split
  · exact .ofSilent (.pure _) s
  · refine .given fun lineCount _ => .given fun previews shown => .given fun p _ =>
      .given fun inline _ => .looking (looks_messages _ _ _) fun msgs made => ?_
    obtain ⟨prompt, t, hw, rfl, _⟩ := perform_messages_eq_ok made
    refine .given fun bound _ => .bind (.attempt (sends_chat ?_ prov bound s)) ?_
    · exact fun request carried => ⟨previews, .previews carried hw shown⟩
    · exact fun out after _ => .given fun tgts _ => .ofSilent (.pure _) after

theorem sends_answerFor {sum pay : Value} (prov : Provider) (settings : Value)
    (gathered : projectPayload es sum settings = .ok pay) (s : Session) :
    Sends (CarriesSome es) (answerFor prov settings pay) s := by
  obtain ⟨files, required, fnds, fitted, rfl⟩ := projectPayload_eq gathered
  rw [answerFor_eq]
  refine .given fun cache _ => .given fun k _ => .looking (looks_keptAnswer cache k) ?_
  intro kept _
  split
  · refine .given fun p _ => .given fun inline _ =>
      .looking (looks_messages _ _ _) fun msgs made => ?_
    obtain ⟨prompt, t, hw, rfl, _⟩ := perform_messages_eq_ok made
    refine .given fun bound _ =>
      .bind (.attempt (.bind (sends_chat ?_ prov bound s) ?_)) ?_
    · exact fun request carried => ⟨files, .files carried hw (.of_sentFiles fitted)⟩
    · intro c s' _
      exact .ofSilent (silent_keep cache k c) s'
    · intro out s' _
      split <;> exact .ofSilent (.pure _) s'
  · exact .ofSilent (.pure _) s

theorem sends_observe (prov : Provider) (cfg settings : Value) (es : List SourceEntry)
    (s : Session) : Sends (CarriesSome es) (observe prov cfg settings es) s := by
  refine .given fun general _ => .given fun enabled _ => .given fun lim _ => ?_
  split
  · exact .ofSilent (.pure _) s
  · have selects : Sends (CarriesSome es) (selectAll prov settings es lim) s :=
      .bind (.mapM (fun lang => sends_selectTargets prov settings es lim lang) _
        s) fun _ after _ => .ofSilent (.pure _) after
    refine selects.bind fun tgts after _ => ?_
    split
    · exact .ofSilent (.pure _) after
    · exact .ofSilent (.bind (silent_runTargets tgts cfg settings) fun _ => .pure _) after

def FromProject (paths : Value) (s : Session) (request : Value) : Prop :=
  ∃ nms es files, paths.items = .ok nms ∧
    (collectFiles nms).perform s = (.ok es, s) ∧ Carries es request files

theorem sends_analyze (paths cfg : Value) (s : Session) :
    Sends (FromProject paths s) (analyze paths cfg) s := by
  rw [analyze]
  refine .given fun settings _ => .given fun enabled _ => ?_
  split
  · exact .ofSilent (.pure _) s
  refine .given fun network _ => ?_
  split
  · exact .ofSilent (.pure _) s
  refine .looking (looks_serviceKey settings) fun k _ => ?_
  split
  · exact .ofSilent (.pure _) s
  refine .given fun prov _ => .given fun nms hl =>
    .looking (looks_collectFiles nms) fun es hcol => ?_
  have project (request : Value) (carried : CarriesSome es request) :
      FromProject paths s request := by
    obtain ⟨files, carries⟩ := carried
    exact ⟨nms, es, files, hl, hcol, carries⟩
  refine .mono ?_ project
  refine (sends_observe prov cfg settings es s).bind fun seen obs _ => ?_
  refine .given fun pay gathered => ?_
  refine (sends_answerFor prov settings gathered obs).bind fun answer after _ => ?_
  refine .given fun required _ => .given fun ths _ => ?_
  exact .ofSilent (.pure _) after

/-! ## The request for the findings -/

variable {paths cfg : Value} {s : Session} {plan : Plan}

theorem requests_requestedAnswer (ready : Ready paths cfg s plan) {pay : Value}
    (can : Json.writable pay = true) (cache : CacheOptions) (k : String)
    {obs : Session} (library : obs.conversation.library = true) :
    ∃ request prompt t, request.lookup? "messages" = some (messagesOf prompt t) ∧
      Json.indented pay = .ok t ∧ ((requestedAnswer plan.provider plan.settings pay cache k).perform
          obs).2.conversation.requests = request :: obs.conversation.requests := by
  obtain ⟨prompt, t, bound, hw, hd⟩ := perform_requestedAnswer_eq ready.readable can cache k obs
  obtain ⟨limits, limited⟩ := perform_limits ready.timed obs
  obtain ⟨call, ⟨request, chat, carried⟩, sent⟩ :=
    perform_chat_reachable library limited (messagesOf prompt t) bound
  refine ⟨request, prompt, t, carried, hw, ?_⟩
  rw [hd, askModel, conversation_bind_silent fun c => silent_keep cache k c, sent]
  exact requests_afterRequest chat obs

theorem requests_analyze (ready : Ready paths cfg s plan) {sum : Value}
    {obs : Session} (seen : Observed plan cfg s sum obs) {k : String}
    (keyed : plan.requestKey sum = .ok k)
    (hmiss : (keptAnswer plan.cache k).perform obs = (.ok .null, obs))
    (library : obs.conversation.library = true) :
    ∃ request files, sentFiles plan.settings plan.entries = .ok files ∧
      Carries plan.entries request files ∧ ((analyze paths cfg).perform s).2.conversation.requests =
          request :: obs.conversation.requests := by
  obtain ⟨pay, gathered, keyed⟩ := bind_eq_ok.mp keyed
  have can := (succeeds_documentKey_iff pay).mp ⟨k, keyed⟩
  obtain ⟨request, prompt, t, carried, hw, sent⟩ :=
    requests_requestedAnswer ready can plan.cache k library
  obtain ⟨files, required, fnds, fitted, rfl⟩ := projectPayload_eq gathered
  obtain ⟨tgts, ran⟩ := (perform_observe_iff ready).mpr seen
  refine ⟨request, files, fitted, .files carried hw (.of_sentFiles fitted), ?_⟩
  rw [perform_analyze ready, perform_bind_ok ran, reportOn,
    perform_given gathered, conversation_bind_silent ?_]
  · rw [answerFor_eq, perform_given ready.cache, perform_given keyed, perform_bind_ok hmiss]
    exact sent
  · intro answer
    exact .bind (.ofOutcome _) fun _ => .bind (.ofOutcome _) fun _ => .pure _

/--
Requests carry files as they were read.  An analysis is the same whatever the configuration says
about redaction.  All of its requests carry previews or texts of the files that were read at the
beginning, and a request determines what it carries.  If no answer is kept and the service can be
reached, the texts are really sent.
-/
theorem requests_carry_files_as_read (paths config : Value) (session : Session) :
    (∀ redaction, analyze paths (withRedaction redaction config) = analyze paths config) ∧
    Sends (FromProject paths session) (analyze paths config) session ∧
    (∀ entries others request files otherFiles, Carries entries request files →
      Carries others request otherFiles → files = otherFiles) ∧
    ∀ plan summary observed key, Ready paths config session plan →
      Observed plan config session summary observed → plan.requestKey summary = .ok key →
      (keptAnswer plan.cache key).perform observed = (.ok .null, observed) →
      observed.conversation.library = true →
        ∃ request files, sentFiles plan.settings plan.entries = .ok files ∧
          Carries plan.entries request files ∧
            ((analyze paths config).perform session).2.conversation.requests =
              request :: observed.conversation.requests := by
  refine ⟨fun redaction => analyze_withRedaction redaction paths config,
    sends_analyze paths config session, ?_, ?_⟩
  · intro entries others request files otherFiles first second
    exact carries_unique first second
  · intro plan summary observed key ready seen keyed missing library
    exact requests_analyze ready seen keyed missing library

/-! ## Secrets in requests -/

def userText? (request : Value) : Option String :=
  match request.lookup "messages" with
  | .list [_, user] => (user.lookup "content").text?
  | _ => none

/-- Two files that are the same when redacted are still told apart by the requests. -/
theorem requests_tell_redacted_files_apart :
    Project.redact (Source.textOf [0x73, 0x6B, 0x2D, 0x61]) [.text "sk-[ab]"] =
        Project.redact (Source.textOf [0x73, 0x6B, 0x2D, 0x62]) [.text "sk-[ab]"] ∧
      ((analyze (.list [.text "a.py"]) (quietConfig [.text "sk-[ab]"])).perform
          (quietSession [0x73, 0x6B, 0x2D, 0x61] [])).2.conversation.requests ≠
        ((analyze (.list [.text "a.py"]) (quietConfig [.text "sk-[ab]"])).perform
          (quietSession [0x73, 0x6B, 0x2D, 0x62] [])).2.conversation.requests := by
  constructor
  · have first : Source.textOf [0x73, 0x6B, 0x2D, 0x61] = "sk-a" := by cbv
    have second : Source.textOf [0x73, 0x6B, 0x2D, 0x62] = "sk-b" := by cbv
    have blacked : Project.redact "sk-a" [.text "sk-[ab]"] = .ok "<REDACTED>" := by cbv
    have blackedToo : Project.redact "sk-b" [.text "sk-[ab]"] = .ok "<REDACTED>" := by cbv
    rw [first, second, blacked, blackedToo]
  · refine fun same => absurd (congrArg (List.map userText?) same) ?_
    decide +kernel

end Agent

end SourceAudit
