import SourceAudit.Analysis.ProjectAnalysis
import SourceAudit.Proofs.AgentDocuments
import SourceAudit.Proofs.Stages

/-!
# Replies are taken in turn

Every request takes the next reply, so an analysis takes the replies from the front, and what it
does up to some point depends on the replies taken until then.
-/

open List

namespace SourceAudit.Outside.Audit

variable {α β : Type}

def TakesInTurn (act : Audit α) : Prop :=
  ∀ s out after, act.perform s = (out, after) →
    ∃ taken, s.script.replies = taken ++ after.script.replies ∧
      (after.script.replies ≠ [] → ∀ others, others ≠ [] →
        act.perform (s.hearing (taken ++ others)) = (out, after.hearing others))

theorem Deaf.takesInTurn {act : Audit α} (deaf : Deaf act) : TakesInTurn act := by
  intro s out s' hd
  have kept := deaf.replies_eq s
  rw [hd] at kept
  exact ⟨[], kept.symm, fun _ others _ => deaf.again hd others⟩

namespace TakesInTurn

variable {act : Audit α}

theorem bind {next : α → Audit β} (h1 : TakesInTurn act)
    (h2 : ∀ v, TakesInTurn (next v)) : TakesInTurn (act >>= next) := by
  intro s out s' hd
  rcases hb : act.perform s with ⟨r, mid⟩
  obtain ⟨taken, split, hs⟩ := h1 s r mid hb
  cases r with
  | error err =>
    rw [perform_bind_error hb] at hd
    obtain ⟨rfl, rfl⟩ := Prod.mk.inj hd
    exact ⟨taken, split, fun left others some => perform_bind_error (hs left others some)⟩
  | ok v =>
    rw [perform_bind_ok hb] at hd
    obtain ⟨more, continued, alike⟩ := h2 v mid out s' hd
    have divided : s.script.replies = (taken ++ more) ++ s'.script.replies := by
      rw [split, continued, append_assoc]
    refine ⟨taken ++ more, divided, fun left others some => ?_⟩
    -- what the second part takes is left by the first one
    have between : mid.script.replies ≠ [] := by
      rw [continued]
      exact append_ne_nil_of_right_ne_nil more left
    have again := hs between (more ++ others) (append_ne_nil_of_right_ne_nil more some)
    rw [append_assoc, perform_bind_ok again]
    exact alike left others some

theorem looking {next : Session → Audit β} (blind : ∀ s replies, next (s.hearing replies) = next s)
    (takes : ∀ s, TakesInTurn (next s)) : TakesInTurn (MonadState.get >>= next) := by
  intro s out s' hd
  rw [perform_get_bind] at hd
  obtain ⟨taken, split, hs⟩ := takes s s out s' hd
  refine ⟨taken, split, fun left others some => ?_⟩
  rw [perform_get_bind, blind]
  exact hs left others some

theorem attempt (takes : TakesInTurn act) : TakesInTurn (Audit.attempt act) := by
  intro s out s' hd
  rcases hb : act.perform s with ⟨r, later⟩
  rw [perform_attempt, hb] at hd
  obtain ⟨rfl, rfl⟩ := Prod.mk.inj hd
  obtain ⟨taken, split, hs⟩ := takes s r later hb
  refine ⟨taken, split, fun left others some => ?_⟩
  rw [perform_attempt, hs left others some]

theorem pure (v : α) : TakesInTurn (Pure.pure v : Audit α) := Deaf.takesInTurn fun _ _ => rfl

theorem ofOutcome (out : Outcome α) : TakesInTurn (Audit.ofOutcome out) :=
  (Steady.ofOutcome out : Looks _).deaf.takesInTurn

theorem mapM {step : α → Audit β} (takes : ∀ x, TakesInTurn (step x)) (xs : List α) :
    TakesInTurn (xs.mapM step) := by
  induction xs with
  | nil => exact pure []
  | cons x tl ih =>
    rw [mapM_cons]
    exact bind (takes x) fun _ => bind ih fun _ => pure _

theorem exchange (takes : TakesInTurn act) {s s' : Session} {out : Outcome α}
    (hd : act.perform s = (out, s')) {pre tl others : List ChatReply}
    {reply other : ChatReply} (waiting : s.script.replies = pre ++ reply :: tl)
    (next : s'.script.replies = reply :: tl) :
    act.perform (s.hearing (pre ++ other :: others)) = (out, s'.hearing (other :: others)) := by
  obtain ⟨taken, split, hs⟩ := takes s out s' hd
  rw [next] at split hs
  have pre : taken = pre := append_cancel_right (split.symm.trans waiting)
  rw [← pre]
  exact hs (cons_ne_nil _ _) _ (cons_ne_nil _ _)

end TakesInTurn

end SourceAudit.Outside.Audit

namespace SourceAudit.Agent

open Outside Outside.Audit

/-! ## Requests -/

theorem takesInTurn_receive : TakesInTurn Provider.receive := by
  intro s out s' hd
  rw [perform_receive] at hd
  obtain ⟨rfl, rfl⟩ := Prod.mk.inj hd
  rcases waiting : s.script.replies with _ | ⟨reply, tl⟩
  · exact ⟨[], rfl, fun left => absurd rfl left⟩
  · refine ⟨[reply], rfl, fun _ others _ => ?_⟩
    rw [perform_receive]
    cases reply <;> rfl

def Provider.callOf (prov : Provider) (msgs lim limits : Value) : Value :=
  let bound := if lim.same .null then [] else [("max_tokens", lim)]
  .record [("chat", .record ([("model", prov.model), ("messages", msgs),
      ("temperature", Provider.temperature)] ++ bound)),
    ("client", .record [("api_key", prov.key), ("base_url", prov.address),
      ("timeout", limits), ("max_retries", prov.retries)])]

theorem takesInTurn_chat (prov : Provider) (msgs lim : Value) :
    TakesInTurn (prov.chat msgs lim) := by
  refine .looking (fun _ _ => rfl) fun s => ?_
  have sent : TakesInTurn (do
      Audit.record (prov.callOf msgs lim (← prov.limits))
      Provider.receive) :=
    .bind (looks_limits prov).deaf.takesInTurn fun _ =>
      .bind (Deaf.takesInTurn fun _ _ => rfl) fun _ => takesInTurn_receive
  dsimp only
  split
  · exact Deaf.takesInTurn fun _ _ => rfl
  · exact sent

/-! ## Selecting and running targets -/

theorem takesInTurn_selectTargets (prov : Provider) (settings : Value)
    (es : List SourceEntry) (lim : Int) (lang : String) :
    TakesInTurn (selectTargets prov settings es lim lang) := by
  rw [selectTargets_eq]
  split
  · exact .pure _
  · exact .bind (.ofOutcome _) fun _ => .bind (.ofOutcome _) fun _ =>
      .bind (.ofOutcome _) fun p => .bind (.ofOutcome _) fun inline =>
        .bind (looks_messages _ p inline).deaf.takesInTurn fun _ => .bind (.ofOutcome _) fun _ =>
          .bind (takesInTurn_chat _ _ _).attempt fun _ => .bind (.ofOutcome _) fun _ => .pure _

theorem takesInTurn_selectAll (prov : Provider) (settings : Value) (es : List SourceEntry)
    (lim : Int) : TakesInTurn (selectAll prov settings es lim) :=
  .bind (.mapM (fun lang => takesInTurn_selectTargets _ _ _ _ lang) _) fun _ => .pure _

theorem takesInTurn_observe (prov : Provider) (cfg settings : Value)
    (es : List SourceEntry) : TakesInTurn (observe prov cfg settings es) := by
  refine .bind (.ofOutcome _) fun _ => .bind (.ofOutcome _) fun _ =>
    .bind (.ofOutcome _) fun lim => ?_
  split
  · exact .pure _
  · refine .bind (takesInTurn_selectAll prov settings es lim) fun tgts => ?_
    split
    · exact .pure _
    · exact .bind (apart_runTargets tgts cfg settings).deaf.takesInTurn fun _ => .pure _

end SourceAudit.Agent

/-! ## Projects -/

namespace SourceAudit.Dependencies

open Outside Outside.Audit

theorem looks_ofFile (p lang : String) : Looks (ofFile p lang) := by
  refine .bind (.absolute p) fun _ => .bind (.nearestMarked _ _) fun root =>
    .bind (.mapM (fun manifest => ?_) _) fun _ => .pure _
  refine .bind (Steady.loadBytes _).attempt fun loaded => ?_
  cases loaded with
  | error err => exact .pure _
  | ok bytes =>
    dsimp only
    split <;> exact .pure _

theorem apart_ask (questions : List Value) : Apart (ask questions) := by
  refine .bind (.record rfl) fun _ => .looking (fun _ _ => rfl) fun s => ?_
  split
  · exact .throw _
  · split
    · exact .failing _
    · exact .ofOutcome _

theorem apart_query (deps lang : Value) : Apart (query deps lang) := by
  refine .bind (.ofOutcome _) fun system => .bind (.ofOutcome _) fun asked => ?_
  dsimp only
  split
  · exact .pure _
  · refine .bind (apart_ask _).attempt fun answered => ?_
    cases answered with
    | error err => exact .bind (.say _) fun _ => .pure _
    | ok answered =>
      refine .bind (.ofOutcome _) fun res => .bind (.ofOutcome _) fun ids => ?_
      have hl : Apart (do
          let advs := (← get).script.advisories let details := gather advs (advs.arrival ids)
          Audit.ofOutcome (findingsOf (gathered? details) (asked.map Prod.fst) res)) :=
        .looking (fun _ _ => rfl) fun _ => .ofOutcome _
      split
      · exact .bind (.say _) fun _ => hl
      · exact hl

theorem apart_advise (deps lang : Value) : Apart (advise deps lang) := by
  refine .bind (.say _) fun _ => .bind (apart_query deps lang).attempt fun f => ?_
  split
  · exact .pure _
  · exact .pure _
  · exact .bind (.say _) fun _ => .pure _

end SourceAudit.Dependencies

namespace SourceAudit.Analysis

open Outside Outside.Audit

theorem looks_languagesOf (paths : List Value) : Looks (languagesOf paths) := by
  have detected (p : Value) : Looks (Source.detectValue p) := by
    rw [Source.detectValue]
    split
    · exact .bind (.ofOutcome _) fun t => Agent.looks_detect t
    · exact .pure _
  induction paths with
  | nil => exact .pure _
  | cons p tl ih =>
    exact .bind (detected p) fun _ => .bind ih fun _ => .pure _

theorem apart_projectDependencies (lang : String) (p : Value) :
    Apart (projectDependencies lang p) := by
  rw [projectDependencies]
  split
  · exact .pure _
  · refine .bind (Dependencies.looks_ofFile _ _).apart.attempt fun f => ?_
    cases f with
    | error err => exact .pure _
    | ok f =>
      dsimp only
      split
      · exact .pure _
      · refine .bind (Dependencies.apart_advise _ _).attempt fun advised => ?_
        cases advised <;> exact .pure _

end SourceAudit.Analysis
