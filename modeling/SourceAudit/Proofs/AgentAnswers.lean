import SourceAudit.Proofs.TargetSelection

/-!
# When the agent answers

An analysis by the agent talks to a model several times, and a reply may be any document.
-/

open List

namespace SourceAudit.Agent

open Outside Outside.Audit
open SourceAudit.Outcome
open SourceAudit.Project (Cache.load Cache.save)

/-! ## What an enabled configuration settles -/

structure Plan where
  settings : Value
  provider : Provider
  entries : List SourceEntry
  limit : Int
  dynamic : Bool
  cache : CacheOptions

namespace Plan

def languages (plan : Plan) : List String :=
  presentLanguages plan.entries

def selectionCount (plan : Plan) : Nat :=
  if plan.dynamic then plan.languages.length else 0

def Selectable (plan : Plan) (conv : Conversation) : Prop :=
  AllSelectable conv (entriesIn plan.entries) plan.languages

def chosen (plan : Plan) (conv : Conversation) : List SourceEntry :=
  shareBudget plan.limit.toNat
    (selections conv plan.limit.toNat (entriesIn plan.entries) plan.languages)

def requestKey (plan : Plan) (sum : Value) : Outcome String := do
  documentKey (← projectPayload plan.entries sum plan.settings)

end Plan

structure Ready (paths config : Value) (session : Session) (plan : Plan) : Prop where
  settings : settingsOf (config.orElse (.record [])) = .ok plan.settings
  readable : ReadableSettings plan.settings
  enabled : (plan.settings.lookup "enabled").truthy = true
  network : (plan.settings.lookup "network_enabled").truthy = true
  key : (serviceKey plan.settings).perform session = (.ok plan.provider.key, session)
  keyed : plan.provider.key.truthy = true
  provider : providerOf plan.settings plan.provider.key = .ok plan.provider
  files : ∃ names, paths.items = .ok names ∧
    (collectFiles names).perform session = (.ok plan.entries, session)
  limited : integerSetting plan.settings "max_dynamic_targets" 3 = .ok plan.limit
  dynamic : ∃ general flag,
    (config.orElse (.record [])).getD "settings" (.record []) = .ok general ∧
    general.getD "enable_dynamic_analysis" (.bool true) = .ok flag ∧
      plan.dynamic = (flag.truthy && decide (0 < plan.limit))
  cache : cacheOptionsOf plan.settings = .ok plan.cache

variable {paths config : Value} {session : Session} {plan : Plan}

theorem timed_of_providerOf {settings k : Value} {prov : Provider}
    (described : providerOf settings k = .ok prov) : Timed prov := by
  obtain ⟨addr, _, made⟩ := bind_eq_ok.mp described
  obtain ⟨model, _, made⟩ := bind_eq_ok.mp made
  obtain ⟨timeout, _, made⟩ := bind_eq_ok.mp made
  obtain ⟨retries, _, made⟩ := bind_eq_ok.mp made
  obtain ⟨connect, _, made⟩ := bind_eq_ok.mp made
  obtain ⟨read, _, made⟩ := bind_eq_ok.mp made
  obtain ⟨write, _, made⟩ := bind_eq_ok.mp made
  have limited : prov.timeout = .int timeout :=
    (congrArg Provider.timeout (Except.ok.inj made)).symm
  rw [Timed, limited]
  exact succeeds_ok _

theorem Ready.timed (ready : Ready paths config session plan) : Timed plan.provider :=
  timed_of_providerOf ready.provider

variable {key : String}

theorem flag_eq_true {fs : List (String × Value)}
    (set : ((Value.record fs).lookup key).truthy = true) :
    (do return (← (Value.record fs).getD key (.bool false)).truthy : Outcome Bool) = .ok true := by
  rw [Value.lookup, Value.lookup?] at set
  rw [Value.getD]
  cases hf : Value.field? key fs with
  | none =>
    rw [hf] at set
    exact absurd set Bool.false_ne_true
  | some v =>
    rw [hf] at set
    exact congrArg Except.ok set

theorem ReadableSettings.flag {settings : Value} (readable : ReadableSettings settings)
    (set : (settings.lookup key).truthy = true) :
    (do return (← settings.getD key (.bool false)).truthy : Outcome Bool) = .ok true := by
  obtain ⟨fs, rfl⟩ := readable.fields
  exact flag_eq_true set

/-! ## Running the targets -/

theorem entriesIn_ne_nil {es : List SourceEntry} {lang : String}
    (hm : lang ∈ presentLanguages es) : entriesIn es lang ≠ [] := by
  have hpres := (mem_filter.mp hm).2
  simpa using hpres

theorem perform_selectAll (timed : Timed plan.provider) (readable : ReadableSettings plan.settings)
    (room : 0 < plan.limit) (s : Session) :
    AnswersIff (selectAll plan.provider plan.settings plan.entries plan.limit) s
      (plan.Selectable s.conversation) (plan.chosen s.conversation)
      fun s' => ∀ i, s'.conversation.heard i =
        s.conversation.heard (plan.languages.length + i) := by
  have hpres : ∀ lang ∈ plan.languages, entriesIn plan.entries lang ≠ [] :=
    fun _ hm => entriesIn_ne_nil hm
  rcases perform_selections timed readable room hpres s with
    ⟨selectable, s', hd, heard⟩ | ⟨stuck, err, s', failed⟩
  · exact Or.inl ⟨selectable, s', perform_bind_ok hd, heard⟩
  · exact Or.inr ⟨stuck, err, s', perform_bind_error failed⟩

inductive Observed (plan : Plan) (cfg : Value) (s : Session) : Value → Session → Prop
  | off (still : plan.dynamic = false) : Observed plan cfg s nothingRun s
  | idle {asked : Session} (dynamic : plan.dynamic = true)
      (selectable : plan.Selectable s.conversation)
      (selected : (selectAll plan.provider plan.settings plan.entries plan.limit).perform s =
        (.ok (plan.chosen s.conversation), asked))
      (none : plan.chosen s.conversation = []) :
      Observed plan cfg s nothingRun asked
  | ran {asked obs : Session} {sum : TargetSummary} (dynamic : plan.dynamic = true)
      (selectable : plan.Selectable s.conversation)
      (selected : (selectAll plan.provider plan.settings plan.entries plan.limit).perform s =
        (.ok (plan.chosen s.conversation), asked))
      (some : plan.chosen s.conversation ≠ [])
      (hd : (runTargets (plan.chosen s.conversation) cfg plan.settings).perform asked =
        (.ok sum, obs)) :
      Observed plan cfg s sum.toValue obs

theorem Ready.room (ready : Ready paths config session plan) (dynamic : plan.dynamic = true) :
    0 < plan.limit := by
  obtain ⟨general, flag, _, _, both⟩ := ready.dynamic
  rw [both, Bool.and_eq_true, decide_eq_true_eq] at dynamic
  exact dynamic.2

variable {sum : Value} {obs : Session}

theorem Observed.heard (ready : Ready paths config session plan)
    (seen : Observed plan config session sum obs) :
    obs.conversation.heard 0 = session.conversation.heard plan.selectionCount := by
  -- the selections take one reply for each language, and the runs take none
  have selections {asked : Session} (dynamic : plan.dynamic = true)
      (selected : (selectAll plan.provider plan.settings plan.entries plan.limit).perform session =
        (.ok (plan.chosen session.conversation), asked)) :
      asked.conversation.heard 0 = session.conversation.heard plan.selectionCount := by
    have decided := perform_selectAll ready.timed ready.readable (ready.room dynamic) session
    rw [(decided.of_eq_ok selected).2.2 0, Plan.selectionCount, dynamic, if_pos rfl, Nat.add_zero]
  cases seen with
  | off still => rw [Plan.selectionCount, still, if_neg Bool.false_ne_true]
  | idle dynamic selectable selected none => exact selections dynamic selected
  | ran dynamic selectable selected some hd =>
    have silent := silent_runTargets (plan.chosen session.conversation) config plan.settings
    rw [silent.eq hd]
    exact selections dynamic selected

theorem perform_observe_iff (ready : Ready paths config session plan) :
    (∃ tgts, (observe plan.provider config plan.settings plan.entries).perform session =
      (.ok (tgts, sum), obs)) ↔ Observed plan config session sum obs := by
  obtain ⟨general, flag, generalRead, flagRead, dynamic⟩ := ready.dynamic
  rw [observe, perform_given generalRead, perform_given flagRead, perform_given ready.limited]
  have condition : (!flag.truthy || decide (plan.limit ≤ 0)) = !plan.dynamic := by
    simp only [dynamic, Bool.not_and, ← decide_not, Int.not_lt]
  rw [condition]
  cases moving : plan.dynamic with
  | false =>
    constructor
    · rintro ⟨tgts, hd⟩
      cases hd
      exact .off moving
    · intro seen
      cases seen with
      | off => exact ⟨[], rfl⟩
      | idle ho => exact absurd (moving.symm.trans ho) Bool.false_ne_true
      | ran ho => exact absurd (moving.symm.trans ho) Bool.false_ne_true
  | true =>
    rw [if_neg (by decide)]
    have decided := perform_selectAll ready.timed ready.readable (ready.room moving) session
    constructor
    · rintro ⟨tgts, hd⟩
      obtain ⟨picked, asked, selected, hd⟩ := perform_bind_eq_ok.mp hd
      obtain ⟨selectable, rfl, _⟩ := decided.of_eq_ok selected
      by_cases none : plan.chosen session.conversation = []
      · rw [none] at hd
        cases hd
        exact .idle moving selectable selected none
      · rw [if_neg (by simpa using none)] at hd
        obtain ⟨r, later, ran, hd⟩ := perform_bind_eq_ok.mp hd
        cases hd
        exact .ran moving selectable selected none ran
    · intro seen
      cases seen with
      | off still => exact absurd (still.symm.trans moving) Bool.false_ne_true
      | idle _ selectable hb none =>
        refine ⟨[], ?_⟩
        rw [perform_bind_ok hb, none]
        rfl
      | ran _ selectable hb some ran =>
        refine ⟨plan.chosen session.conversation, ?_⟩
        rw [perform_bind_ok hb, if_neg (by simpa using some), perform_bind_ok ran]
        rfl

/-! ## Asking for the findings -/

theorem succeeds_documentKey_iff (doc : Value) :
    Succeeds (documentKey doc) ↔ Json.writable doc = true := by
  rw [documentKey, succeeds_bind_of_total fun _ => succeeds_pure _, Json.line, Succeeds,
    Json.complete_write_isOk, Json.writable_sortFields]

theorem exists_projectPayload (readable : ReadableSettings plan.settings)
    (es : List SourceEntry) (sum : Value) :
    ∃ files required fnds, SentFiles es files ∧
      projectPayload es sum plan.settings =
        .ok (analysisDocument es.length files sum required fnds) := by
  obtain ⟨total, totalRead⟩ := readable.numbers "max_chars" 12000 (by simp)
  obtain ⟨each, eachRead⟩ := readable.numbers "max_file_chars" 4000 (by simp)
  obtain ⟨fnds, findingsRead⟩ := readable.numbers "max_findings" 10 (by simp)
  obtain ⟨required, requiredRead⟩ := readable.getD "evidence_required" (.bool true)
  obtain ⟨files, fitted, _⟩ := fitting_of_arePlain total (arePlain_map_sentFile each es) 0
  refine ⟨files, required.truthy, fnds, ⟨total, each, fitted⟩, ?_⟩
  rw [projectPayload, bind_ok totalRead, bind_ok eachRead, bind_ok fitted, bind_ok requiredRead,
    bind_ok findingsRead]
  rfl

theorem looks_load (dir k lifetime : Value) : Looks (Cache.load dir k lifetime) := by
  rw [Cache.load]
  split
  · exact .pure _
  · extract_lets p finish
    have he : Looks (finish ()) := by
      refine .bind (Steady.readText p).attempt fun read => ?_
      cases read <;> exact .pure _
    refine .bind (.exists? p) fun f => ?_
    split
    · exact .pure _
    · refine .bind (.ofOutcome _) fun limited => ?_
      split
      · have aged : Looks (Project.Cache.ageOf p) := .looking (fun _ _ => rfl) fun _ => .pure _
        refine .bind aged fun age => .bind (.ofOutcome _) fun old => ?_
        split
        · exact .pure _
        · exact he
      · exact he

theorem looks_keptAnswer (cache : CacheOptions) (k : String) : Looks (keptAnswer cache k) := by
  rw [keptAnswer]
  split
  · exact looks_load _ _ _
  · exact .pure _

def Storable (cache : CacheOptions) (k : String) (s : Session) : Prop :=
  cache.enabled = true → cache.path.truthy = true → (Value.text k).truthy = true →
    Succeeds ((Audit.makeDirectories cache.path.plain).perform s).1

theorem perform_makeDirectories_congr {s s' : Session} (hs : SameFiles s s') (p : String) :
    ((Audit.makeDirectories p).perform s').1 = ((Audit.makeDirectories p).perform s).1 := by
  obtain ⟨files, hh⟩ := hs
  have parts : Audit.key s' p = Audit.key s p := by
    rw [Audit.key, Audit.key, hh]
  rw [Audit.makeDirectories]
  split
  · rfl
  · split
    · rfl
    · rw [perform_get_bind, perform_get_bind]
      dsimp only
      rw [parts, files]
      cases s.files.at? (Audit.key s p) with
      | some e => cases e <;> rfl
      | none =>
        have below : Audit.belowFile s' (Audit.key s p) = Audit.belowFile s (Audit.key s p) := by
          rw [Audit.belowFile, Audit.belowFile, files]
        dsimp only
        rw [below]
        split <;> rfl

theorem succeeds_save_iff (dir k answer : Value) (s : Session) :
    Succeeds ((Cache.save dir k answer).perform s).1 ↔ (dir.truthy = true → k.truthy = true →
        Succeeds ((Audit.makeDirectories dir.plain).perform s).1) := by
  rw [Cache.save]
  cases truthy : dir.truthy with
  | false => exact ⟨fun _ => nofun, fun _ => succeeds_ok ()⟩
  | true =>
    cases keyed : k.truthy with
    | false => exact ⟨fun _ _ => nofun, fun _ => succeeds_ok ()⟩
    | true =>
      rcases made : (Audit.makeDirectories dir.plain).perform s with
        ⟨out, s'⟩
      cases out with
      | error err =>
        rw [if_neg (by decide), perform_bind_error made]
        exact ⟨fun he => absurd he (not_succeeds_error err), fun all => all rfl rfl⟩
      | ok _ =>
        rw [if_neg (by decide), perform_bind_ok made]
        exact ⟨fun _ _ _ => succeeds_ok _, fun _ => succeeds_ok _⟩

/-- The document that findings are taken from: one that is kept, and otherwise the reply, unless it
cannot be kept. -/
inductive GoesBy (cache : CacheOptions) (k : String) (s : Session) (reply : Value) :
    Value → Prop
  | kept {doc : Value}
      (hf : (keptAnswer cache k).perform s = (.ok doc, s))
      (hpres : doc ≠ .null) : GoesBy cache k s reply doc
  | told (hmiss : (keptAnswer cache k).perform s = (.ok .null, s))
      (stored : Storable cache k s) : GoesBy cache k s reply reply
  | lost (hmiss : (keptAnswer cache k).perform s = (.ok .null, s))
      (unstored : ¬ Storable cache k s) : GoesBy cache k s reply (.record [])

def concluded : Outcome Value → Value × String
  | .ok answer => (answer, "")
  | .error err => (.record [], err.message)

theorem perform_askModel (timed : Timed plan.provider) (cache : CacheOptions) (k : String)
    (msgs bound : Value) (s : Session) :
    ∃ out s', (askModel plan.provider cache k msgs bound).perform s = (out, s') ∧
      (Storable cache k s → (concluded out).1 = s.conversation.heard 0) ∧
        (¬ Storable cache k s → (concluded out).1 = .record []) := by
  obtain ⟨out, asked, sent, _, hs, heard⟩ := perform_chat_heard timed msgs bound s
  rw [askModel]
  cases out with
  | error err =>
    -- without a reply the document is empty, whether it could be kept or not
    exact ⟨_, _, perform_bind_error sent, fun _ => heard, fun _ => rfl⟩
  | ok c =>
    have reply : readReply c = s.conversation.heard 0 := heard
    rw [perform_bind_ok sent, reply]
    have stores := succeeds_save_iff cache.path (.text k) (s.conversation.heard 0) asked
    rw [perform_makeDirectories_congr hs] at stores
    cases enabled : cache.enabled with
    | false =>
      have stored : Storable cache k s :=
        fun ho => absurd (enabled.symm.trans ho) Bool.false_ne_true
      exact ⟨_, _, rfl, fun _ => rfl, fun unstored => absurd stored unstored⟩
    | true =>
      have stored : Storable cache k s ↔ Succeeds ((Cache.save cache.path (.text k)
          (s.conversation.heard 0)).perform asked).1 := by
        rw [stores, Storable, enabled]
        exact forall_prop_of_true rfl
      rw [stored]
      rcases saved : (Cache.save cache.path (.text k)
        (s.conversation.heard 0)).perform asked with ⟨out, s'⟩
      cases out with
      | error err =>
        exact ⟨_, _, perform_bind_error saved,
          fun he => absurd he (not_succeeds_error err), fun _ => rfl⟩
      | ok _ =>
        exact ⟨_, _, perform_bind_ok saved, fun _ => rfl,
          fun unstored => absurd (succeeds_ok _) unstored⟩

variable {pay : Value}

theorem perform_requestedAnswer_eq (readable : ReadableSettings plan.settings)
    (can : Json.writable pay = true) (cache : CacheOptions) (k : String) (s : Session) :
    ∃ prompt t bound, Json.indented pay = .ok t ∧
      (requestedAnswer plan.provider plan.settings pay cache k).perform s =
        (.ok (concluded ((askModel plan.provider cache k (messagesOf prompt t) bound).perform s).1),
          ((askModel plan.provider cache k (messagesOf prompt t) bound).perform s).2) := by
  obtain ⟨p, pathRead, pathShape⟩ := readable.prompt "prompt_analyze_path" (by simp)
  obtain ⟨inline, inlineRead, inlineShape⟩ := readable.prompt "prompt_analyze_inline" (by simp)
  obtain ⟨bound, boundRead⟩ := readable.getD "analyze_max_tokens" .null
  obtain ⟨msgs, made⟩ := perform_messages can pathShape inlineShape s
  obtain ⟨prompt, t, hw, rfl, _⟩ := perform_messages_eq_ok made
  refine ⟨prompt, t, bound, hw, ?_⟩
  rw [requestedAnswer, perform_given pathRead, perform_given inlineRead, perform_bind_ok made,
    perform_given boundRead, perform_bind_ok (perform_attempt _ _)]
  cases ((askModel plan.provider cache k (messagesOf prompt t) bound).perform s).1 with
  | ok answer => rfl
  | error err => rfl

theorem perform_requestedAnswer (timed : Timed plan.provider)
    (readable : ReadableSettings plan.settings) (can : Json.writable pay = true)
    (cache : CacheOptions) (k : String) (s : Session) :
    ∃ doc problem s', (requestedAnswer plan.provider plan.settings pay cache k).perform s =
        (.ok (doc, problem), s') ∧
      (Storable cache k s → doc = s.conversation.heard 0) ∧
        (¬ Storable cache k s → doc = .record []) := by
  obtain ⟨prompt, t, bound, _, hd⟩ := perform_requestedAnswer_eq readable can cache k s
  obtain ⟨out, s', asked, stored, unstored⟩ :=
    perform_askModel timed cache k (messagesOf prompt t) bound s
  rw [asked] at hd
  exact ⟨_, _, s', hd, stored, unstored⟩

variable {doc : Value}

theorem perform_answerFor_iff (ready : Ready paths config session plan)
    (can : Json.writable pay = true) (keyed : documentKey pay = .ok key) :
    (∃ problem s', (answerFor plan.provider plan.settings pay).perform obs =
      (.ok (doc, problem), s')) ↔ GoesBy plan.cache key obs (obs.conversation.heard 0) doc := by
  obtain ⟨told, problem, s', asked, stored, unstored⟩ :=
    perform_requestedAnswer ready.timed ready.readable can plan.cache key obs
  rw [answerFor_eq, perform_given ready.cache, perform_given keyed]
  constructor
  · rintro ⟨msg, later, hd⟩
    obtain ⟨kept, mid, looked, hd⟩ := perform_bind_eq_ok.mp hd
    cases (looks_keptAnswer plan.cache key).eq looked
    by_cases hmiss : kept = .null
    · rw [hmiss] at looked hd
      rw [asked] at hd
      cases hd
      by_cases can : Storable plan.cache key obs
      · rw [stored can]
        exact .told looked can
      · rw [unstored can]
        exact .lost looked can
    · have hs : doc = kept := by
        cases kept <;> first | exact absurd rfl hmiss | (cases hd; rfl)
      rw [hs]
      exact .kept looked hmiss
  · intro goes
    cases goes with
    | kept hf hpres =>
      rw [perform_bind_ok hf]
      cases doc <;> first | exact absurd rfl hpres | exact ⟨_, _, rfl⟩
    | told hmiss can =>
      rw [perform_bind_ok hmiss, ← stored can]
      exact ⟨problem, s', asked⟩
    | lost hmiss cannot =>
      rw [perform_bind_ok hmiss, ← unstored cannot]
      exact ⟨problem, s', asked⟩

theorem succeeds_documentKey_of_answerFor {answer : Value} {s' : Session} {problem : String}
    (hd : (answerFor plan.provider plan.settings pay).perform obs =
      (.ok (answer, problem), s')) : Succeeds (documentKey pay) := by
  obtain ⟨cache, _, _, hd⟩ := perform_bind_eq_ok.mp hd
  obtain ⟨k, _, keyed, _⟩ := perform_bind_eq_ok.mp hd
  rw [perform_ofOutcome, Prod.mk.injEq] at keyed
  exact ⟨k, keyed.1⟩

/-! ## The whole analysis -/

def reportOn (plan : Plan) (tgts : List SourceEntry) (summary : Value) : Audit Report := do
  let pay ← Audit.ofOutcome (projectPayload plan.entries summary plan.settings)
  let (answer, problem) ← answerFor plan.provider plan.settings pay
  let required ← Audit.ofOutcome (plan.settings.getD "evidence_required" (.bool true))
  let threats ← Audit.ofOutcome
    (threatsOf (findingsIn answer) (fileLines plan.entries) required.truthy)
  let notes := [("selected_dynamic_targets", Value.ofTexts (tgts.map (·.path))),
    ("files_count", .ofNat plan.entries.length)]
  let problemNote := if problem.isEmpty then [] else [("analysis_error", Value.text problem)]
  return { threats, summary, notes := .record (notes ++ problemNote) }

theorem perform_analyze (ready : Ready paths config session plan) :
    (analyze paths config).perform session =
      (observe plan.provider config plan.settings plan.entries >>= fun seen =>
        reportOn plan seen.1 seen.2).perform session := by
  obtain ⟨nms, hl, hcol⟩ := ready.files
  rw [analyze, perform_given ready.settings]
  rw [perform_given (ready.readable.flag ready.enabled),
    if_neg (by decide), perform_given (ready.readable.flag ready.network),
    if_neg (by decide), perform_bind_ok ready.key, if_neg (by simp [ready.keyed]),
    perform_given ready.provider, perform_given hl, perform_bind_ok hcol]
  rfl

theorem succeeds_requestKey_iff (readable : ReadableSettings plan.settings) (sum : Value) :
    Succeeds (plan.requestKey sum) ↔ Json.writable sum = true := by
  obtain ⟨files, required, fnds, sent, gathered⟩ := exists_projectPayload readable plan.entries sum
  rw [Plan.requestKey, bind_ok gathered, succeeds_documentKey_iff,
    writable_analysisDocument sent.arePlain]

theorem answers_reportOn_iff (ready : Ready paths config session plan)
    (tgts : List SourceEntry) (sum : Value) (obs : Session) :
    Answers (reportOn plan tgts sum) obs ↔
      Json.writable sum = true ∧
        ∃ k doc, plan.requestKey sum = .ok k ∧
          GoesBy plan.cache k obs (obs.conversation.heard 0) doc ∧
            AcceptableFindings (findingsIn doc) := by
  obtain ⟨files, required, fnds, sent, gathered⟩ :=
    exists_projectPayload ready.readable plan.entries sum
  obtain ⟨needed, neededRead⟩ := ready.readable.getD "evidence_required" (.bool true)
  have writes := writable_analysisDocument sent.arePlain plan.entries.length sum required fnds
  have keys : plan.requestKey sum =
      documentKey (analysisDocument plan.entries.length files sum required fnds) := by
    rw [Plan.requestKey, bind_ok gathered]
  rw [keys, ← writes, Answers, reportOn, perform_given gathered]
  generalize analysisDocument plan.entries.length files sum required fnds = pay
  constructor
  · rintro ⟨rep, s', hd⟩
    obtain ⟨⟨doc, problem⟩, mid, hans, hd⟩ := perform_bind_eq_ok.mp hd
    obtain ⟨k, keyed⟩ := succeeds_documentKey_of_answerFor hans
    have can := (succeeds_documentKey_iff pay).mp ⟨k, keyed⟩
    have goes := (perform_answerFor_iff ready can keyed).mp ⟨problem, mid, hans⟩
    rw [perform_given neededRead] at hd
    obtain ⟨ths, later, told, _⟩ := perform_bind_eq_ok.mp hd
    rw [perform_ofOutcome, Prod.mk.injEq] at told
    have shapes := (succeeds_threatsOf_iff _ _ _).mp ⟨ths, told.1⟩
    exact ⟨can, k, doc, keyed, goes, shapes⟩
  · rintro ⟨can, k, doc, keyed, goes, shapes⟩
    obtain ⟨problem, mid, hans⟩ := (perform_answerFor_iff ready can keyed).mpr goes
    obtain ⟨ths, told⟩ := (succeeds_threatsOf_iff (findingsIn doc)
      (fileLines plan.entries) needed.truthy).mpr shapes
    rw [perform_bind_ok hans, perform_given neededRead, perform_given told]
    exact ⟨_, _, rfl⟩

/-! ## A quiet configuration -/

def quietAgent (pats : List Value) : Value :=
  .record [("enabled", .bool true), ("network_enabled", .bool true), ("api_key", .text "k"),
    ("cache", .record [("enabled", .bool false)]),
    ("redaction", .record [("enabled", .bool true), ("patterns", .list pats)])]

def quietConfig (pats : List Value) : Value :=
  .record [("agent", quietAgent pats),
    ("settings", .record [("enable_dynamic_analysis", .bool false)])]

def quietSession (c : List UInt8) (replies : List ChatReply) : Session :=
  { Session.holding "a.py" c with script := { replies } }

def quietEntry (c : List UInt8) : SourceEntry where
  path := "a.py"
  language := some "python"
  content := Source.textOf c
  lines := Str.splitLines (Source.textOf c)

def quietSettings (pats : List Value) : Value :=
  .record [("enabled", .bool true), ("provider", .text "openai"),
    ("model", .text "qwen-plus-latest"), ("api_key", .text "k"),
    ("base_url", .text "https://aihubmix.com/v1"), ("timeout", .int 60),
    ("max_retries", .int 5), ("timeout_connect", .int 10), ("timeout_read", .int 60),
    ("timeout_write", .int 20), ("network_enabled", .bool true),
    ("evidence_required", .bool true), ("max_findings", .int 10), ("max_chars", .int 12000),
    ("max_file_chars", .int 4000), ("select_max_tokens", .int 256),
    ("analyze_max_tokens", .int 2048), ("max_execution_log_chars", .int 2000),
    ("max_dynamic_targets", .int 3), ("select_preview_lines", .int 120),
    ("prompt_select_path", .text "config/agent_prompt_select.txt"),
    ("prompt_select_inline", .text ""), ("prompt_analyze_path", .text "config/agent_prompt.txt"),
    ("prompt_analyze_inline", .text ""),
    ("redaction", .record [("enabled", .bool true), ("patterns", .list pats)]),
    ("cache", .record [("enabled", .bool false), ("path", .text "data/agent_cache"),
      ("ttl_seconds", .int 86400)])]

def quietProvider : Provider where
  key := .text "k"
  address := .text "https://aihubmix.com/v1"
  model := .text "qwen-plus-latest"
  timeout := .int 60
  retries := .int 5
  connect := .int 10
  read := .int 60
  write := .int 20

def quietPlan (pats : List Value) (c : List UInt8) : Plan where
  settings := quietSettings pats
  provider := quietProvider
  entries := [quietEntry c]
  limit := 3
  dynamic := false
  cache := { enabled := false, path := .text "data/agent_cache", lifetime := 86400 }

theorem settingsOf_of_quietAgent {cfg : Value} {pats : List Value}
    (hf : cfg.lookup? "agent" = some (quietAgent pats)) :
    settingsOf cfg = .ok (quietSettings pats) := by
  rw [settingsOf, hf]
  simp [quietAgent, Value.fields, overrideFields, override, Value.setField, Value.field?,
    standardSettings, quietSettings]

theorem settingsOf_quietConfig (pats : List Value) :
    settingsOf (quietConfig pats) = .ok (quietSettings pats) := by
  apply settingsOf_of_quietAgent
  cbv

theorem at?_quietSession (c : List UInt8) (replies : List ChatReply) :
    (quietSession c replies).files.at? (Audit.key (quietSession c replies) "a.py") =
      some (.file c) := by
  have hh : (quietSession c replies).here = "/W" := rfl
  have parts : Audit.key (quietSession c replies) "a.py" = ["W", "a.py"] := by
    rw [Audit.key, hh]
    rfl
  rw [parts]
  rfl

theorem perform_lookup_quietSession (c : List UInt8) (replies : List ChatReply) :
    (Audit.lookup "a.py").perform (quietSession c replies) =
      (.ok (some (.file c)), quietSession c replies) := by
  rw [Audit.lookup, perform_get_bind, at?_quietSession]
  rfl

theorem detect_quietEntry (s : Session) : (Source.detect "a.py").perform s = (.ok .python, s) := by
  have extension :
      Source.Language.ofExtension? (Path.extension (Str.lower "a.py")) = some .python := by
    cbv
  rfl

theorem perform_collectFiles_single {s : Session} {c : List UInt8}
    (looked : (Audit.lookup "a.py").perform s = (.ok (some (.file c)), s))
    (unlocked : (Audit.checkOpen "a.py").perform s = (.ok (), s)) :
    (collectFiles [.text "a.py"]).perform s = (.ok [quietEntry c], s) := by
  have bytes : (Audit.readBytes "a.py").perform s = (.ok c, s) := by
    rw [Audit.readBytes, perform_bind_ok unlocked, Audit.loadBytes, perform_bind_ok looked]
    rfl
  have hcol : (collectFile "a.py").perform s = (.ok (quietEntry c), s) := by
    rw [collectFile, perform_bind_ok bytes]
    rfl
  rw [collectFiles, perform_bind_ok (perform_exists? looked), if_neg (by simp),
    perform_bind_ok hcol]
  rfl

theorem readable_quietSettings (pats : List Value) : ReadableSettings (quietSettings pats) where
  fields := ⟨_, rfl⟩
  numbers := by
    intro k standard hm
    simp only [mem_cons, not_mem_nil, or_false] at hm
    rcases hm with ⟨rfl, rfl⟩ | ⟨rfl, rfl⟩ | ⟨rfl, rfl⟩ | ⟨rfl, rfl⟩ <;> exact ⟨_, by cbv⟩
  prompts := by
    intro k hm
    simp only [mem_cons, not_mem_nil, or_false] at hm
    rcases hm with rfl | rfl | rfl | rfl <;> exact fun _ => by cbv

theorem serviceKey_quiet (pats : List Value) (s : Session) :
    (serviceKey (quietSettings pats)).perform s = (.ok (.text "k"), s) := by
  cbv

theorem providerOf_quiet (pats : List Value) :
    providerOf (quietSettings pats) (.text "k") = .ok quietProvider := by
  cbv

theorem flags_quiet (pats : List Value) :
    ((quietSettings pats).lookup "enabled").truthy = true ∧
      ((quietSettings pats).lookup "network_enabled").truthy = true := by
  constructor <;> cbv

theorem limit_quiet (pats : List Value) :
    integerSetting (quietSettings pats) "max_dynamic_targets" 3 = .ok 3 := by
  cbv

theorem cache_quiet (pats : List Value) :
    cacheOptionsOf (quietSettings pats) =
      .ok { enabled := false, path := .text "data/agent_cache", lifetime := 86400 } := by
  cbv

theorem ready_quiet (pats : List Value) (c : List UInt8) (replies : List ChatReply) :
    Ready (.list [.text "a.py"]) (quietConfig pats) (quietSession c replies)
      (quietPlan pats c) := by
  have general : (quietConfig pats).getD "settings" (.record []) =
      .ok (.record [("enable_dynamic_analysis", .bool false)]) := by
    cbv
  have flag : (Value.record [("enable_dynamic_analysis", .bool false)]).getD
      "enable_dynamic_analysis" (.bool true) = .ok (.bool false) := by
    cbv
  exact
    { settings := settingsOf_quietConfig pats
      readable := readable_quietSettings pats
      enabled := (flags_quiet pats).1
      network := (flags_quiet pats).2
      key := serviceKey_quiet pats _
      keyed := rfl
      provider := providerOf_quiet pats
      files := ⟨_, rfl, perform_collectFiles_single (perform_lookup_quietSession c replies) rfl⟩
      limited := limit_quiet pats
      dynamic := ⟨_, _, general, flag, rfl⟩
      cache := cache_quiet pats }

theorem GoesBy.eq_of_disabled {cache : CacheOptions} {s : Session} {reply : Value}
    (goes : GoesBy cache key s reply doc) (disabled : cache.enabled = false) : doc = reply := by
  cases goes with
  | kept hf hpres =>
    rw [keptAnswer, disabled] at hf
    cases hf
    exact absurd rfl hpres
  | told => rfl
  | lost _ unstored =>
    exact absurd (fun enabled => absurd (disabled.symm.trans enabled) Bool.false_ne_true) unstored

theorem heard_quiet (pats : List Value) (c : List UInt8) (reply : String) (tl : List ChatReply) :
    (quietSession c (.content (.text reply) :: tl)).conversation.heard
      (quietPlan pats c).selectionCount = readReply reply := by
  rw [Conversation.heard_eq_documentIn rfl]
  exact Conversation.documentIn_text reply

/-! ## When there is a report -/

/-- With an enabled configuration and files that can be read, an analysis ends with a report exactly
when the replies that it takes have acceptable shapes: those for the selections name targets that
can be looked up, and the document that findings are taken from has findings of acceptable shapes.
Besides, the selected targets must run and the summary of their runs must be writable. -/
theorem answers_analyze_iff (ready : Ready paths config session plan) :
    Answers (analyze paths config) session ↔
      ∃ summary observed key document,
        Observed plan config session summary observed ∧ Json.writable summary = true ∧
          plan.requestKey summary = .ok key ∧
            GoesBy plan.cache key observed (session.conversation.heard plan.selectionCount) document ∧
              AcceptableFindings (findingsIn document) := by
  rw [Answers, perform_analyze ready]
  constructor
  · rintro ⟨report, after, done⟩
    obtain ⟨⟨targets, summary⟩, observed, ran, reported⟩ := perform_bind_eq_ok.mp done
    have seen := (perform_observe_iff ready).mp ⟨targets, ran⟩
    obtain ⟨can, key, document, keyed, goes, shapes⟩ :=
      (answers_reportOn_iff ready targets summary observed).mp ⟨report, after, reported⟩
    rw [seen.heard ready] at goes
    exact ⟨summary, observed, key, document, seen, can, keyed, goes, shapes⟩
  · rintro ⟨summary, observed, key, document, seen, can, keyed, goes, shapes⟩
    obtain ⟨targets, ran⟩ := (perform_observe_iff ready).mpr seen
    rw [← seen.heard ready] at goes
    obtain ⟨report, after, reported⟩ := (answers_reportOn_iff ready targets summary observed).mpr
      ⟨can, key, document, keyed, goes, shapes⟩
    exact ⟨report, after, perform_bind_eq_ok.mpr ⟨(targets, summary), observed, ran, reported⟩⟩

/-- A list of findings is taken, and a number in place of it ends the analysis without a report. -/
theorem answers_analyze_of_list_not_of_number :
    Answers (analyze (.list [.text "a.py"]) (quietConfig []))
        (quietSession [] [.content (.text "\x7b\"findings\": []\x7d")]) ∧
      ¬ Answers (analyze (.list [.text "a.py"]) (quietConfig []))
        (quietSession [] [.content (.text "\x7b\"findings\": 5\x7d")]) := by
  constructor
  · decide +kernel
  · intro answers
    obtain ⟨summary, observed, key, document, _, _, _, goes, shapes⟩ :=
      (answers_analyze_iff (ready_quiet [] [] _)).mp answers
    rw [goes.eq_of_disabled rfl, heard_quiet] at shapes
    exact absurd shapes.1 (by decide +kernel)

end SourceAudit.Agent
