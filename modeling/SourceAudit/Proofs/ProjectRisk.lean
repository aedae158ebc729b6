import SourceAudit.Proofs.AgentAnswers
import SourceAudit.Proofs.FencedReplies
import SourceAudit.Proofs.RepeatedFindings
import SourceAudit.Proofs.RepliesInTurn
import SourceAudit.Proofs.RiskInReports

/-!
# The risk of a project and repeated findings

A project is analysed twice with replies that differ in one place: where the model is asked for
findings, the second reply repeats some findings of the first one.
-/

namespace SourceAudit.Outside.Audit

variable {α β : Type}

theorem ofOutcome_pure (v : α) : ofOutcome (pure v : Outcome α) = pure v := rfl

theorem ofOutcome_bind (out : Outcome α) (next : α → Outcome β) :
    ofOutcome (out >>= next) = ofOutcome out >>= fun v => ofOutcome (next v) := by
  cases out <;> rfl

theorem perform_bind_congr {act other : Audit α} {s begun : Session}
    (hs : act.perform s = other.perform begun) (next : α → Audit β) :
    (act >>= next).perform s = (other >>= next).perform begun := by
  rcases hperf : other.perform begun with ⟨out, s'⟩
  rw [hperf] at hs
  cases out with
  | error err => rw [perform_bind_error hs, perform_bind_error hperf]
  | ok v => rw [perform_bind_ok hs, perform_bind_ok hperf]

end SourceAudit.Outside.Audit

namespace SourceAudit.Findings.Breakdown

theorem plus_assoc (counts more others : Breakdown) :
    (counts.plus more).plus others = counts.plus (more.plus others) := by
  simp only [plus, Int.add_assoc]

theorem plus_eq_self_iff {counts more : Breakdown} : counts.plus more = counts ↔ more = {} := by
  cases counts
  cases more
  simp [plus]

end SourceAudit.Findings.Breakdown

namespace SourceAudit.Agent

open Outside Outside.Audit
open SourceAudit.Outcome
open SourceAudit.Project (Cache.load Cache.save)

/-! ## Asking for findings -/

/-- What is settled when a model is asked for the findings of a project. -/
structure Inquiry where
  settings : Value
  provider : Provider
  entries : List SourceEntry
  targets : List SourceEntry
  summary : Value
  payload : Value
  cache : CacheOptions
  key : String
  required : Bool

namespace Inquiry

def answer (inq : Inquiry) : Audit (Value × String) :=
  requestedAnswer inq.provider inq.settings inq.payload inq.cache inq.key

def report (inq : Inquiry) (answer : Value) (problem : String) : Audit Report := do
  let required ← Audit.ofOutcome (inq.settings.getD "evidence_required" (.bool true))
  let threats ← Audit.ofOutcome
    (threatsOf (findingsIn answer) (fileLines inq.entries) required.truthy)
  let notes := [("selected_dynamic_targets", Value.ofTexts (inq.targets.map (·.path))),
    ("files_count", .ofNat inq.entries.length)]
  let problemNote := if problem.isEmpty then [] else [("analysis_error", Value.text problem)]
  return { threats, summary := inq.summary, notes := .record (notes ++ problemNote) }

end Inquiry

def flagOf (settings : Value) (k : String) : Outcome Bool := do
  return (← settings.getD k (.bool false)).truthy

/-- The analysis comes to ask a model for findings, and then the session is `asked`. -/
structure Asks (paths config : Value) (session : Session) (inquiry : Inquiry) (asked : Session) :
    Prop where
  settings : settingsOf (config.orElse (.record [])) = .ok inquiry.settings
  enabled : flagOf inquiry.settings "enabled" = .ok true
  network : flagOf inquiry.settings "network_enabled" = .ok true
  key : (serviceKey inquiry.settings).perform session = (.ok inquiry.provider.key, session)
  keyed : inquiry.provider.key.truthy = true
  provider : providerOf inquiry.settings inquiry.provider.key = .ok inquiry.provider
  files : ∃ names, paths.items = .ok names ∧
    (collectFiles names).perform session = (.ok inquiry.entries, session)
  observed : (observe inquiry.provider config inquiry.settings inquiry.entries).perform session =
    (.ok (inquiry.targets, inquiry.summary), asked)
  payload : projectPayload inquiry.entries inquiry.summary inquiry.settings = .ok inquiry.payload
  cache : cacheOptionsOf inquiry.settings = .ok inquiry.cache
  document : documentKey inquiry.payload = .ok inquiry.key
  missing : (keptAnswer inquiry.cache inquiry.key).perform asked = (.ok .null, asked)
  required : ∃ stated, inquiry.settings.getD "evidence_required" (.bool true) = .ok stated ∧
    stated.truthy = inquiry.required

variable {paths config : Value} {s asked s' : Session} {inq : Inquiry}

theorem Asks.perform_analyze (asks : Asks paths config s inq asked) :
    (analyze paths config).perform s =
      (inq.answer >>= fun told => inq.report told.1 told.2).perform asked := by
  obtain ⟨nms, hl, hcol⟩ := asks.files
  have hans : (answerFor inq.provider inq.settings inq.payload).perform asked =
      inq.answer.perform asked := by
    rw [answerFor_eq, perform_given asks.cache,
      perform_given asks.document, perform_bind_ok asks.missing]
    rfl
  have flag {nm : String} (set : flagOf inq.settings nm = .ok true) : (Audit.ofOutcome (do
        return (← inq.settings.getD nm (.bool false)).truthy)).perform s = (.ok true, s) := by
    rw [← set, ← perform_ofOutcome]
    rfl
  rw [analyze, perform_given asks.settings]
  rw [perform_bind_ok (flag asks.enabled), if_neg (by decide),
    perform_bind_ok (flag asks.network), if_neg (by decide), perform_bind_ok asks.key,
    if_neg (by simp [asks.keyed]),
    perform_given asks.provider, perform_given hl, perform_bind_ok hcol,
    perform_bind_ok asks.observed, perform_given asks.payload]
  exact perform_bind_congr hans _

theorem Ready.exists_asks {plan : Plan} (ready : Ready paths config s plan) {summary : Value}
    (seen : Observed plan config s summary asked) (can : Json.writable summary = true)
    (hmiss : ∀ key, (keptAnswer plan.cache key).perform asked = (.ok .null, asked)) :
    ∃ inq, Asks paths config s inq asked ∧ inq.settings = plan.settings ∧
      inq.entries = plan.entries ∧ inq.cache = plan.cache := by
  obtain ⟨targets, observed⟩ := (perform_observe_iff ready).mpr seen
  obtain ⟨key, keyed⟩ := (succeeds_requestKey_iff ready.readable summary).mpr can
  obtain ⟨payload, gathered, keyed⟩ := bind_eq_ok.mp keyed
  obtain ⟨stated, statedRead⟩ := ready.readable.getD "evidence_required" (.bool true)
  refine ⟨{ settings := plan.settings, provider := plan.provider, entries := plan.entries, targets
            summary, payload, cache := plan.cache, key, required := stated.truthy },
    ?_, rfl, rfl, rfl⟩
  exact
    { settings := ready.settings
      enabled := ready.readable.flag ready.enabled
      network := ready.readable.flag ready.network
      key := ready.key
      keyed := ready.keyed
      provider := ready.provider
      files := ready.files
      observed
      payload := gathered
      cache := ready.cache
      document := keyed
      missing := hmiss key
      required := ⟨stated, statedRead, rfl⟩ }

variable {pre tl : List ChatReply} {reply other : ChatReply}

theorem Asks.exchange (asks : Asks paths config s inq asked)
    (waiting : s.script.replies = pre ++ reply :: tl)
    (next : asked.script.replies = reply :: tl) (other : ChatReply) :
    Asks paths config (s.hearing (pre ++ other :: tl)) inq (asked.hearing (other :: tl)) where
  settings := asks.settings
  enabled := asks.enabled
  network := asks.network
  key := (looks_serviceKey _).deaf.again asks.key _
  keyed := asks.keyed
  provider := asks.provider
  files := by
    obtain ⟨nms, hl, hcol⟩ := asks.files
    exact ⟨nms, hl, (looks_collectFiles nms).deaf.again hcol _⟩
  observed := (takesInTurn_observe _ _ _ _).exchange asks.observed waiting next
  payload := asks.payload
  cache := asks.cache
  document := asks.document
  missing := (looks_keptAnswer _ _).deaf.again asks.missing _
  required := asks.required

/-! ## Two replies to one request -/

theorem replyOutcome_cons (reply : ChatReply) (tl : List ChatReply) :
    replyOutcome (reply :: tl) = replyOutcome [reply] := by
  cases reply <;> rfl

theorem perform_chat_hearing {prov : Provider} (timed : Timed prov)
    (library : asked.script.chatLibrary = true) (msgs lim : Value) :
    ∃ call, ∀ replies, (prov.chat msgs lim).perform (asked.hearing replies) =
      (replyOutcome replies, afterRequest call (asked.hearing replies)) := by
  obtain ⟨limits, limited⟩ := perform_limits timed asked
  refine ⟨prov.callOf msgs lim limits, fun replies => ?_⟩
  have reached : (asked.hearing replies).script.chatLibrary = true := library
  rw [Provider.chat, perform_get_bind, reached]
  rw [if_neg (by decide), perform_bind_ok ((looks_limits prov).deaf.again limited replies)]
  exact perform_receive _

theorem matches_keep (dir k pay another : Value) :
    Matches (Cache.save dir k pay) (Cache.save dir k another) := by
  rw [Cache.save, Cache.save]
  split
  · exact .pure _
  · exact .bind (.makeDirectories _) fun _ => .tryWriteText (.pure _) _ _ _

theorem perform_askModel_twice {prov : Provider} {cache : CacheOptions} {k : String}
    (timed : Timed prov) (library : asked.script.chatLibrary = true)
    (storable : Storable cache k asked) (next : asked.script.replies = reply :: tl)
    {t again : String} (told : replyOutcome [reply] = .ok t)
    (retold : replyOutcome [other] = .ok again) (msgs bound : Value) :
    ∃ after later, (askModel prov cache k msgs bound).perform asked = (.ok (readReply t), after) ∧
        (askModel prov cache k msgs bound).perform (asked.hearing (other :: tl)) =
          (.ok (readReply again), later) ∧ SameTree after later := by
  obtain ⟨call, sent⟩ := perform_chat_hearing timed library msgs bound
  -- the requests leave the same session behind, since each takes one reply
  have h1 : (prov.chat msgs bound).perform asked =
      (.ok t, afterRequest call (asked.hearing (other :: tl))) := by
    have heard := sent asked.script.replies
    rw [Session.hearing_self, next, replyOutcome_cons, told] at heard
    rw [heard, afterRequest, next]
    rfl
  have h2 := sent (other :: tl)
  rw [replyOutcome_cons, retold] at h2
  rw [askModel, perform_bind_ok h1, perform_bind_ok h2]
  generalize left : afterRequest call (asked.hearing (other :: tl)) = told
  cases enabled : cache.enabled with
  | false => exact ⟨told, told, rfl, rfl, .refl told⟩
  | true =>
    have hs : SameFiles asked told := by
      rw [← left]
      exact ⟨rfl, rfl⟩
    obtain ⟨_, saved⟩ : Succeeds
        ((Cache.save cache.path (.text k) (readReply t)).perform told).1 := by
      rw [succeeds_save_iff, perform_makeDirectories_congr hs]
      exact storable enabled
    have kept : (Cache.save cache.path (.text k) (readReply t)).perform told =
        (.ok (), ((Cache.save cache.path (.text k) (readReply t)).perform told).2) :=
      Prod.ext saved rfl
    obtain ⟨later, also, alike⟩ :=
      matches_keep cache.path (.text k) (readReply t) (readReply again) _ _ _ _ (.refl told) kept
    exact ⟨_, later, perform_bind_ok kept, perform_bind_ok also, alike⟩

structure Reachable (inquiry : Inquiry) (asked : Session) : Prop where
  library : asked.script.chatLibrary = true
  storable : Storable inquiry.cache inquiry.key asked

theorem Reachable.answer_twice (reachable : Reachable inq asked)
    (timed : Timed inq.provider) (next : asked.script.replies = reply :: tl)
    {t again : String} (told : replyOutcome [reply] = .ok t)
    (retold : replyOutcome [other] = .ok again) {r : Value × String}
    (hans : inq.answer.perform asked = (.ok r, s')) :
    r = (readReply t, "") ∧
      ∃ later, inq.answer.perform (asked.hearing (other :: tl)) =
        (.ok (readReply again, ""), later) ∧ SameTree s' later := by
  rw [Inquiry.answer, requestedAnswer] at hans ⊢
  obtain ⟨p, pathRead, hans⟩ := ofOutcome_bind_eq_ok hans
  obtain ⟨inline, inlineRead, hans⟩ := ofOutcome_bind_eq_ok hans
  obtain ⟨msgs, mid, made, hans⟩ := perform_bind_eq_ok.mp hans
  obtain ⟨_, _, _, _, still⟩ := perform_messages_eq_ok made
  rw [still] at made hans
  obtain ⟨bound, boundRead, hans⟩ := ofOutcome_bind_eq_ok hans
  obtain ⟨l, later, asking, askingAgain, alike⟩ := perform_askModel_twice timed
    reachable.library reachable.storable next told retold msgs bound
  rw [perform_attempt_bind asking] at hans
  obtain ⟨hs, rfl⟩ := Prod.mk.inj hans
  refine ⟨(Except.ok.inj hs).symm, later, ?_, alike⟩
  rw [perform_given pathRead, perform_given inlineRead,
    perform_bind_ok ((looks_messages _ _ _).deaf.again made _), perform_given boundRead,
    perform_attempt_bind askingAgain]
  rfl

def Brings (reply : ChatReply) (fnds : List Value) : Prop :=
  ∃ t, replyOutcome [reply] = .ok t ∧ findingsIn (readReply t) = .list fnds

theorem Asks.analyze_repeated (asks : Asks paths config s inq asked)
    (reachable : Reachable inq asked) (waiting : s.script.replies = pre ++ reply :: tl)
    (next : asked.script.replies = reply :: tl) {fnds repeated copies : List Value}
    (h1 : Brings reply fnds) (h2 : Brings other repeated)
    (repeats : Repeats fnds repeated copies) {rep : Report}
    (hd : (analyze paths config).perform s = (.ok rep, s')) :
    ∃ more extra later, (analyze paths config).perform (s.hearing (pre ++ other :: tl)) =
          (.ok { rep with threats := more }, later) ∧
        SameTree s' later ∧
          threatsOf (.list copies) (fileLines inq.entries) inq.required = .ok extra ∧
            Repeats rep.threats more extra := by
  obtain ⟨t, told, brought⟩ := h1
  obtain ⟨again, retold, alsoBrought⟩ := h2
  rw [asks.perform_analyze] at hd
  rw [(asks.exchange waiting next other).perform_analyze]
  obtain ⟨r, mid, hans, hrep⟩ := perform_bind_eq_ok.mp hd
  obtain ⟨rfl, later, answeredAgain, alike⟩ :=
    reachable.answer_twice (timed_of_providerOf asks.provider) next told retold hans
  obtain ⟨stated, statedRead, required⟩ := asks.required
  rw [Inquiry.report, perform_given statedRead, brought, required] at hrep
  obtain ⟨ths, threatened, hrep⟩ := ofOutcome_bind_eq_ok hrep
  obtain ⟨more, extra, moreMade, extraMade, repeatsThreats⟩ := threatsOf_repeated repeats threatened
  obtain ⟨hs, rfl⟩ := Prod.mk.inj hrep
  cases hs
  refine ⟨more, extra, later, ?_, alike, extraMade, repeatsThreats⟩
  rw [perform_bind_ok answeredAgain, Inquiry.report,
    perform_given statedRead, alsoBrought, required, perform_given moreMade]
  rfl

end SourceAudit.Agent

namespace SourceAudit.Analysis

open Outside Outside.Audit
open SourceAudit.Outcome
open SourceAudit.Findings (Breakdown Risk)
open SourceAudit.Agent (Asks Inquiry Reachable Brings Repeats riskOf tally)

/-! ## The results of a project -/

structure Basis where
  config : Value
  label : String
  languages : List (String × Value)
  static : Value

def gather (paths : Value) (config : Option Value) : Audit (Option Basis) := do
  let config ← configOr config
  if !paths.truthy then return none
  let files ← Audit.ofOutcome paths.items
  let languages ← languagesOf files
  let f ← languages.mapM fun (lang, p) => projectDependencies lang p
  return some
    { config, label := projectLabel files, languages
      static := ({ dependencies := f.flatMap Prod.fst
                   vulnerabilities := .list (f.flatMap Prod.snd) } : StaticFindings).toValue }

def Basis.assess (basis : Basis) (rep : Agent.Report) : Outcome FileResults := do
  let aggregated ← Findings.aggregate basis.static rep.summary
  let ruled ← Findings.identify aggregated
  let ths ← Findings.mergeBy projectKey
    (.list (ruled.map (·.toValue))) (.list (rep.threats.map (·.toValue)))
  let sum := (aggregated.lookup "summary").orElse (.record [])
  let counts ← combinedCounts sum rep.threats
  let risk ← Findings.assessCounts counts
  let language := match basis.languages with
    | [(language, _)] => language
    | [] => "unknown"
    | _ => "mixed"
  return { path := basis.label, language, static := basis.static, dynamic := rep.summary
           aggregated, threats := .list ths, risk := risk.toValue }

def Basis.file (basis : Basis) (res : FileResults) : Audit (List (ReportKind × String)) := do
  let dir ← Audit.ofOutcome do
    asPath (← (← basis.config.getD "settings" (.record [])).getD "report_path"
      (.text "data/reports/"))
  Audit.makeDirectories dir
  let stem := if (Path.name basis.label).isEmpty then "zip_project" else Path.name basis.label
  saveReports dir stem res [.json, .html, .markdown]

theorem analyzeProject_eq (paths : Value) (cfg : Option Value) :
    analyzeProject paths cfg = (do
      match ← gather paths cfg with
      | none => return noFiles
      | some basis =>
        let rep ← Agent.analyze paths basis.config let res ← Audit.ofOutcome (basis.assess rep)
        return { res with reports := ← basis.file res }) := by
  rw [gather, bind_assoc]
  refine bind_congr fun cfg => ?_
  split
  · rfl
  · simp only [bind_assoc]
    refine bind_congr fun files => bind_congr fun langs => bind_congr fun f =>
      bind_congr fun rep => ?_
    -- the results name one language, none or several
    rcases langs with _ | ⟨lang, _ | ⟨another, others⟩⟩ <;>
      simp only [Basis.assess, Basis.file, ofOutcome_bind, ofOutcome_pure, bind_assoc, pure_bind]

theorem apart_gather (paths : Value) (cfg : Option Value) : Apart (gather paths cfg) := by
  refine .bind (looks_configOr cfg).apart fun cfg => ?_
  split
  · exact .pure _
  · exact .bind (.ofOutcome _) fun files => .bind (looks_languagesOf files).apart fun langs =>
      .bind (.mapM (fun e => apart_projectDependencies e.1 e.2) langs) fun _ =>
        .pure _

theorem Basis.assess_repeated {basis : Basis} {rep : Agent.Report} {res : FileResults}
    {more extra : List Agent.ModelThreat} (repeats : Repeats rep.threats more extra)
    (hd : basis.assess rep = .ok res) :
    ∃ counts, res.risk = (riskOf counts).toValue ∧
      basis.assess { rep with threats := more } =
        .ok { res with risk := (riskOf (counts.plus (tally extra))).toValue } := by
  obtain ⟨agg, aggregates, hd⟩ := bind_eq_ok.mp hd
  obtain ⟨ruled, identified, hd⟩ := bind_eq_ok.mp hd
  obtain ⟨ths, merged, hd⟩ := bind_eq_ok.mp hd
  obtain ⟨counts, hc, hd⟩ := bind_eq_ok.mp hd
  obtain ⟨stated, all⟩ := Agent.exists_stated hc
  rw [all] at hc
  cases hc
  cases hd
  refine ⟨stated.plus (tally rep.threats), rfl, ?_⟩
  rw [Basis.assess, bind_ok aggregates, bind_ok identified, Agent.mergeBy_repeated repeats,
    bind_ok merged, bind_ok (all more), bind_ok (Agent.assessCounts_toValue _),
    Agent.tally_repeated repeats, Breakdown.plus_assoc]
  rfl

theorem Basis.matches_file (basis : Basis) (res : FileResults) (risk other : Risk) :
    Matches (basis.file { res with risk := risk.toValue })
      (basis.file { res with risk := other.toValue }) :=
  .bind (.ofOutcome _) fun _ => .bind (.makeDirectories _) fun _ =>
    matches_saveReports _ _ res risk other _

/-- The project is analysed with a request for findings, which is made when the session is `asked` and
comes to a reply that can be kept. -/
structure Consults (paths : Value) (config : Option Value) (session : Session) (inquiry : Inquiry)
    (asked : Session) : Prop where
  asks : ∃ basis prepared,
    (gather paths config).perform session = (.ok (some basis), prepared) ∧
      Asks paths basis.config prepared inquiry asked
  reachable : Reachable inquiry asked

/--
Let the reply to the request for findings be exchanged for one that repeats some of its findings.
Then the project has the same results except for the risk.  The risk counts every threat that is made
of a copy once more, and so it is the same exactly when no threat is made of the copies.
-/
theorem repeated_findings_count_in_risk_only {paths : Value} {config : Option Value}
    {session asked after : Session} {inquiry : Inquiry} {front rest : List ChatReply}
    {reply other : ChatReply} {findings repeated copies : List Value} {results : FileResults}
    (consults : Consults paths config session inquiry asked)
    (waiting : session.script.replies = front ++ reply :: rest)
    (next : asked.script.replies = reply :: rest)
    (first : Brings reply findings) (second : Brings other repeated)
    (repeats : Repeats findings repeated copies)
    (done : (analyzeProject paths config).perform session = (.ok results, after)) :
    ∃ others later counts extra,
      (analyzeProject paths config).perform (session.hearing (front ++ other :: rest)) =
          (.ok others, later) ∧
        Agent.threatsOf (.list copies) (Agent.fileLines inquiry.entries) inquiry.required =
            .ok extra ∧
          results.risk = (riskOf counts).toValue ∧
            others = { results with risk := (riskOf (counts.plus (tally extra))).toValue } ∧
              (others.risk = results.risk ↔ extra = []) := by
  obtain ⟨basis, prepared, gathered, asks⟩ := consults.asks
  have waitingStill : prepared.script.replies = front ++ reply :: rest := by
    have kept := (apart_gather paths config).deaf.replies_eq session
    rw [gathered] at kept
    exact kept.trans waiting
  rw [analyzeProject_eq, perform_bind_ok gathered] at done
  obtain ⟨report, told, analysed, done⟩ := perform_bind_eq_ok.mp done
  obtain ⟨found, assessed, done⟩ := ofOutcome_bind_eq_ok done
  obtain ⟨reports, filed, saved, done⟩ := perform_bind_eq_ok.mp done
  obtain ⟨same, rfl⟩ := Prod.mk.inj done
  cases same
  obtain ⟨more, extra, retold, analysedAgain, alike, extraMade, repeatsThreats⟩ :=
    asks.analyze_repeated consults.reachable waitingStill next first second repeats analysed
  obtain ⟨counts, counted, assessedAgain⟩ := basis.assess_repeated repeatsThreats assessed
  have base : found = { found with risk := (riskOf counts).toValue } := by rw [← counted]
  rw [base] at saved
  obtain ⟨later, savedAgain, _⟩ := basis.matches_file found (riskOf counts)
    (riskOf (counts.plus (tally extra))) _ _ _ _ alike saved
  refine ⟨_, later, counts, extra, ?_, extraMade, counted, rfl, ?_⟩
  · rw [analyzeProject_eq, perform_bind_ok ((apart_gather paths config).deaf.again gathered _)]
    dsimp only
    rw [perform_bind_ok analysedAgain, perform_given assessedAgain, perform_bind_ok savedAgain]
    rfl
  · rw [counted]
    constructor
    · intro agree
      exact Agent.tally_eq_zero_iff.mp
        (Breakdown.plus_eq_self_iff.mp (Agent.riskOf_toValue_injective agree))
    · rintro rfl
      rw [Agent.tally_eq_zero_iff.mpr rfl, Breakdown.plus_eq_self_iff.mpr rfl]

/-! ## A finding that is told twice -/

def assignment : List UInt8 := [0x78, 0x20, 0x3D, 0x20, 0x31, 0x0A]

def severeFinding : Value :=
  .record [("severity", .text "high"),
    ("evidence", .list [.record [("file", .text "a.py"), ("line", .int 1)]])]

def writtenFinding : String :=
  "\x7b\"severity\": \"high\", \"evidence\": [\x7b\"file\": \"a.py\", \"line\": 1\x7d]\x7d"

def bracedReply (body : String) : ChatReply :=
  .content (.text ("\x7b" ++ body ++ "\x7d"))

def toldOnce : ChatReply :=
  bracedReply ("\"findings\": [" ++ writtenFinding ++ "]")

def toldTwice : ChatReply :=
  bracedReply ("\"findings\": [" ++ writtenFinding ++ ", " ++ writtenFinding ++ "]")

theorem brings_bracedReply {body : String} {fnds : List Value}
    (bare : Agent.unfenced ("\x7b" ++ body ++ "\x7d") = "\x7b" ++ body ++ "\x7d")
    (hr : Json.read? ("\x7b" ++ body ++ "\x7d") =
      some (.record [("findings", .list fnds)])) : Brings (bracedReply body) fnds :=
  ⟨_, rfl, congrArg Agent.findingsIn (Agent.readReply_of_unfenced bare hr)⟩

theorem brings_toldOnce : Brings toldOnce [severeFinding] :=
  brings_bracedReply (by decide +kernel) (by cbv)

theorem brings_toldTwice : Brings toldTwice [severeFinding, severeFinding] :=
  brings_bracedReply (by decide +kernel) (by cbv)

theorem exists_asks_quiet (c : List UInt8) (replies : List ChatReply) :
    ∃ inq, Asks (.list [.text "a.py"]) (Agent.quietConfig [])
        (Agent.quietSession c replies) inq (Agent.quietSession c replies) ∧
      inq.entries = [Agent.quietEntry c] ∧ inq.required = true ∧
        Reachable inq (Agent.quietSession c replies) := by
  obtain ⟨inq, asks, settings, entries, cache⟩ := (Agent.ready_quiet [] c replies).exists_asks
    (.off rfl) rfl fun _ => rfl
  refine ⟨inq, asks, entries, ?_, rfl, ?_⟩
  · obtain ⟨stated, hr, truthy⟩ := asks.required
    have standard : (Agent.quietSettings []).getD "evidence_required" (.bool true) =
        .ok (.bool true) := by
      cbv
    rw [settings] at hr
    cases standard.symm.trans hr
    exact truthy.symm
  · intro enabled
    rw [cache] at enabled
    cases enabled

theorem threatsOf_severeFinding :
    ∃ th, Agent.threatsOf (.list [severeFinding])
      (Agent.fileLines [Agent.quietEntry assignment]) true = .ok [th] := by
  refine ⟨{ kind := "Unknown", severity := .high, description := "", lines := [1]
            evidence := [{ file := "a.py", line := 1, snippet := .text "x = 1" }] }, ?_⟩
  cbv

def aloneWith (reply : ChatReply) : Session :=
  Agent.quietSession assignment [reply]

theorem perform_ofFile_alone :
    (Dependencies.ofFile "a.py" "python").perform (aloneWith toldOnce) =
      (.ok [], aloneWith toldOnce) := by
  have none : ((Dependencies.ofFile "a.py" "python").perform
      (aloneWith toldOnce)).1.toOption.map List.length = some 0 := by
    decide +kernel
  obtain ⟨f, s', hd, empty⟩ := exists_perform_of_map none
  rw [hd, (Dependencies.looks_ofFile "a.py" "python").eq hd, List.eq_nil_of_length_eq_zero empty]

def aloneBasis : Basis where
  config := Agent.quietConfig []
  label := projectLabel [.text "a.py"]
  languages := [("python", .text "a.py")]
  static := ({} : StaticFindings).toValue

theorem perform_gather_alone :
    (gather (.list [.text "a.py"]) (some (Agent.quietConfig []))).perform (aloneWith toldOnce) =
      (.ok (some aloneBasis), aloneWith toldOnce) := by
  have hn : (Value.list [.text "a.py"]).items = .ok [.text "a.py"] := rfl
  have detected : (Source.detectValue (.text "a.py")).perform (aloneWith toldOnce) =
      (.ok .python, aloneWith toldOnce) :=
    Agent.detect_quietEntry _
  have languages : (languagesOf [.text "a.py"]).perform (aloneWith toldOnce) =
      (.ok [("python", .text "a.py")], aloneWith toldOnce) := by
    rfl
  have runnable : Agent.runnableLanguages.contains "python" = true := by decide
  have dependencies : (projectDependencies "python" (.text "a.py")).perform (aloneWith toldOnce) =
      (.ok ([], []), aloneWith toldOnce) := by
    rw [projectDependencies, if_neg (by decide), Value.plain,
      perform_attempt_bind perform_ofFile_alone]
    rfl
  rw [gather, configOr, perform_bind_ok (perform_pure _ _), if_neg (by decide), perform_given hn,
    perform_bind_ok languages, List.mapM_cons, bind_assoc, perform_bind_ok dependencies]
  rfl

theorem answers_alone :
    Answers (analyzeProject (.list [.text "a.py"]) (some (Agent.quietConfig [])))
      (aloneWith toldOnce) := by
  decide +kernel

/-- A finding that is told twice is reported once, and it raises the risk. -/
theorem finding_told_twice_raises_risk :
    ∃ results others after later,
      (analyzeProject (.list [.text "a.py"]) (some (Agent.quietConfig []))).perform
          (aloneWith toldOnce) = (.ok results, after) ∧
        (analyzeProject (.list [.text "a.py"]) (some (Agent.quietConfig []))).perform
            (aloneWith toldTwice) = (.ok others, later) ∧
          others.threats = results.threats ∧ others.risk ≠ results.risk := by
  obtain ⟨inquiry, asks, entries, required, reachable⟩ := exists_asks_quiet assignment [toldOnce]
  obtain ⟨threat, threatened⟩ := threatsOf_severeFinding
  obtain ⟨results, after, done⟩ := answers_alone
  have repeats : Repeats [severeFinding] [severeFinding, severeFinding] [severeFinding] :=
    .again .none (List.mem_singleton_self _)
  obtain ⟨others, later, counts, extra, repeated, extraMade, _, same, agree⟩ :=
    repeated_findings_count_in_risk_only ⟨⟨aloneBasis, _, perform_gather_alone, asks⟩, reachable⟩
      (List.nil_append _).symm rfl brings_toldOnce brings_toldTwice repeats done
  rw [entries, required, threatened] at extraMade
  cases extraMade
  refine ⟨results, others, after, later, done, repeated, ?_, fun equal => ?_⟩
  · rw [same]
  · cases agree.mp equal

end SourceAudit.Analysis
