import SourceAudit.Agent.Provider
import SourceAudit.Agent.Reply
import SourceAudit.Agent.Targets
import SourceAudit.Project.Cache
import SourceAudit.Proofs.Preparation

/-!
# The conversation with the chat service

A session records everything that is asked of the outside, and only part of that is addressed to the
chat service.
-/

namespace SourceAudit.Outside

structure Conversation where
  requests : List Value
  replies : List ChatReply
  library : Bool
  timeoutObjects : Bool

def Session.conversation (s : Session) : Conversation where
  requests := s.calls.filterMap fun call => call.lookup? "chat"
  replies := s.script.replies
  library := s.script.chatLibrary
  timeoutObjects := s.script.timeoutObjects

namespace Audit

instance : Unfiled Session.conversation where
  same _ _ _ _ := rfl

def Silent {α : Type} (act : Audit α) : Prop :=
  Leaves Session.conversation act

abbrev Apart {α : Type} (act : Audit α) : Prop :=
  Steady Session.conversation act

theorem Looks.apart {α : Type} {act : Audit α} (looks : Looks act) : Apart act :=
  looks.steady Session.conversation

namespace Steady

theorem record {call : Value} (ho : call.lookup? "chat" = none) : Apart (Audit.record call) := by
  refine .modify (fun s => ?_) fun _ _ => rfl
  have unasked : (call :: s.calls).filterMap (fun call => call.lookup? "chat") =
        s.calls.filterMap fun call => call.lookup? "chat" :=
    List.filterMap_cons_none ho
  change Conversation.mk _ _ _ _ = Conversation.mk _ _ _ _
  rw [← unasked]

theorem say (t : String) : Apart (Audit.say t) := .modify (fun _ => rfl) fun _ _ => rfl

/-! ## Commands and processes -/

theorem sleep (seconds : Value) : Apart (Audit.sleep seconds) :=
  .modify (fun _ => rfl) fun _ _ => rfl

theorem draw : Apart Audit.draw := ⟨.looking fun _ => rfl, .changing fun _ _ => rfl⟩

theorem runCommand (cmd : List String) (dir : Option String) (lim : Value) :
    Apart (Audit.runCommand cmd dir lim) := by
  refine .bind (record rfl) fun _ =>
    ⟨.looking fun s => ?_, .changing fun s replies => ?_⟩
  · split
    · rfl
    · split <;> rfl
  · have commands : (s.hearing replies).script.commands = s.script.commands := rfl
    have usual : (s.hearing replies).script.commandDefault = s.script.commandDefault := rfl
    rw [commands, usual]
    cases s.script.commands with
    | cons step tl => rfl
    | nil => cases s.script.commandDefault <;> rfl

theorem finish (cmd : List String) (dir : Option String) (lim : Value) :
    Apart (Audit.finish cmd dir lim) := by
  refine .bind (runCommand cmd dir lim) fun ended => ?_
  cases ended with
  | finished status output errors => exact .pure _
  | timedOut output errors => exact .throw _
  | failed nm msg => exact .throw _

theorem startProcess (cmd : List String) (dir : Option String) :
    Apart (Audit.startProcess cmd dir) :=
  .bind (record rfl) fun _ => .modify (fun _ => rfl) fun _ _ => rfl

theorem poll : Apart Audit.poll := by
  refine ⟨.looking fun s => ?_, .changing fun s replies => ?_⟩
  · split <;> rfl
  · have alike : (s.hearing replies).polled < (s.hearing replies).script.target.polls ↔
        s.polled < s.script.target.polls := .rfl
    by_cases running : s.polled < s.script.target.polls
    · rw [if_pos running, if_pos (alike.mpr running)]
      rfl
    · rw [if_neg running, if_neg (mt alike.mp running)]
      rfl

theorem terminate : Apart Audit.terminate :=
  .bind (record rfl) fun _ => .modify (fun _ => rfl) fun _ _ => rfl

theorem collect : Apart Audit.collect := by
  refine ⟨.looking fun s => ?_, .changing fun s replies => ?_⟩
  · dsimp only
    split <;> rfl
  · have alike : (s.hearing replies).script.target.unresponsive =
        s.script.target.unresponsive := rfl
    dsimp only
    rw [alike]
    cases s.script.target.unresponsive <;> rfl

end Steady

end Audit

end SourceAudit.Outside

namespace SourceAudit.Monitor

open Outside Outside.Audit

/-! ## Runs in the sandbox -/

theorem apart_nextRun (usual : List (String × Value)) : Apart (nextRun usual) := by
  refine ⟨.looking fun s => ?_, .changing fun s replies => ?_⟩
  · split
    · rfl
    · split
      · rfl
      · split <;> rfl
  · have sandbox : (s.hearing replies).script.sandbox = s.script.sandbox := rfl
    rw [sandbox]
    cases s.script.sandbox with
    | nil => rfl
    | cons x tl =>
      dsimp only
      cases x.lookup? "raise" with
      | some msg => rfl
      | none => cases x <;> rfl

theorem apart_requestSandbox (p args lim mode : Value) : Apart (requestSandbox p args lim mode) :=
  .bind (.record rfl) fun _ => apart_nextRun _

theorem apart_requestDirect (p args lim : Value) : Apart (requestDirect p args lim) :=
  .bind (.record rfl) fun _ => apart_nextRun _

theorem apart_logLines (src : Value) : Apart (logLines src) := by
  cases src with
  | list xs => exact .pure _
  | text p =>
    refine .bind (Steady.loadBytes p).attempt fun loaded => ?_
    cases loaded with
    | error err => exact .pure _
    | ok bytes =>
      dsimp only
      split <;> exact .pure _
  | _ => exact .pure _

theorem apart_analyzeNetwork (src : Value) : Apart (analyzeNetwork src) :=
  .bind (apart_logLines src) fun _ => .ofOutcome _

theorem apart_analyzeFiles (src : Value) : Apart (analyzeFiles src) :=
  .bind (apart_logLines src) fun _ => .pure _

theorem apart_analyzeMemory (src : Value) : Apart (analyzeMemory src) :=
  .bind (apart_logLines src) fun _ => .pure _

/-! ## Fuzzing -/

theorem apart_drawBetween (low high : Int) : Apart (drawBetween low high) := by
  refine .bind .draw fun n => ?_
  dsimp only
  split
  · exact .failing _
  · exact .pure _

theorem apart_drawChars (n : Nat) : Apart (drawChars n) := by
  induction n with
  | zero => exact .pure _
  | succ n ih =>
    have drawn : Apart drawChar := .bind .draw fun _ => .pure _
    exact .bind drawn fun _ => .bind ih fun _ => .pure _

theorem apart_randomText (low high : Int) : Apart (randomText low high) :=
  .bind (apart_drawBetween low high) fun _ => .bind (apart_drawChars _) fun _ => .pure _

theorem apart_randomTexts (n : Nat) : Apart (randomTexts n) := by
  induction n with
  | zero => exact .pure _
  | succ n ih =>
    exact .bind (apart_randomText 1 50) fun _ => .bind ih fun _ => .pure _

theorem apart_runActivity (run : Value) : Apart (runActivity run) := by
  refine .bind (.ofOutcome _) fun es => ?_
  split
  · exact apart_analyzeNetwork es
  · refine .bind (.ofOutcome _) fun file => ?_
    split
    · exact apart_analyzeNetwork file
    · exact .pure _

theorem apart_fuzzOnce (p lim mode : Value) (sandboxed : Bool) (input : String) :
    Apart (fuzzOnce p lim mode sandboxed input) := by
  cases sandboxed with
  | true =>
    exact .bind (apart_requestSandbox p _ lim mode) fun run =>
      .bind (.ofOutcome _) fun _ => .bind (.ofOutcome _) fun _ =>
        .bind (apart_runActivity run) fun _ => .ofOutcome _
  | false =>
    exact .bind (apart_requestDirect p _ lim) fun _ =>
      .bind (.ofOutcome _) fun _ => .bind (.ofOutcome _) fun _ =>
        .bind (.pure _) fun _ => .ofOutcome _

theorem apart_fuzz (p : Value) (n : Int) (lim mode : Value) (sandboxed : Bool) :
    Apart (fuzz p n lim mode sandboxed) := by
  have cases : Apart (fuzzCases n) := .bind (apart_randomTexts _) fun _ => .pure _
  exact .bind cases fun inputs =>
    .mapM (fun input => .orElse (apart_fuzzOnce p lim mode sandboxed input) fun _ => .pure _) inputs

/-! ## Watched processes -/

theorem apart_isOverdue (started : Double) (lim : Value) : Apart (isOverdue started lim) :=
  .bind (.since started) fun _ => .ofOutcome _

theorem apart_watchProcess (started : Double) (lim iv : Value) (visible : Bool)
    (rem budget : Nat) (seen : ProcessObservations) :
    Apart (watchProcess started lim iv visible rem budget seen) := by
  induction rem generalizing budget seen with
  | zero =>
    rw [watchProcess]
    refine .bind .poll fun status => ?_
    cases status <;> exact .pure _
  | succ rem ih =>
    rw [watchProcess]
    refine .bind .poll fun status => ?_
    cases status with
    | some _ => exact .pure _
    | none =>
      refine .bind (apart_isOverdue started lim) fun overdue => ?_
      split
      · exact .pure _
      · exact .bind .sample fun sample =>
          .bind (.sleep iv) fun _ => ih _ _

theorem apart_concludeRun (started : Double) (seen : ProcessObservations) (timedOut : Bool) :
    Apart (concludeRun started seen timedOut) :=
  .bind (.orElse .collect fun _ => .pure _) fun _ =>
    .looking (fun _ _ => rfl) fun _ => .bind (.since started) fun _ => .pure _

theorem apart_followProcess (lim iv : Value) (started : Double) (n : Int)
    (visible : Bool) (error : String) : Apart (followProcess lim iv started n visible error) := by
  refine .bind .pollsLeft fun l =>
    .bind (apart_watchProcess _ _ _ _ _ _ _) fun ⟨seen, timedOut⟩ => ?_
  have concluded := apart_concludeRun started seen timedOut
  dsimp only
  split
  · refine .bind .poll fun status => ?_
    split
    · exact .bind .terminate fun _ => concluded
    · exact concluded
  · exact concluded

theorem apart_runLooking (cmd : List String) (dir : Option String)
    (lim iv : Value) (started : Double) (n : Int) :
    Apart (runLooking cmd dir lim iv started n) := by
  refine .bind (.startProcess cmd dir) fun _ => .bind (.attempt .inspect) fun f => ?_
  cases f with
  | ok _ => exact apart_followProcess lim iv started n true ""
  | error err => exact apart_followProcess lim iv started n false _

theorem apart_runSampled (cmd : List String) (dir : Option String) (lim iv samples : Value) :
    Apart (runSampled cmd dir lim iv samples) := by
  refine .bind .now fun started => .bind (.ofOutcome _) fun n =>
    .looking (fun _ _ => rfl) fun s => ?_
  split
  · exact apart_runLooking cmd dir lim iv started n
  · exact .bind (.finish cmd dir lim) fun _ =>
      .bind (.since started) fun _ => .pure _

theorem apart_runLimited (cmd : List String) (dir : Option String) (lim : Value) :
    Apart (runLimited cmd dir lim) := by
  refine .bind (.runCommand cmd dir lim) fun ended => ?_
  cases ended with
  | finished status output errors => exact .pure _
  | timedOut output errors => exact .pure _
  | failed nm msg => exact .throw _

end SourceAudit.Monitor

namespace SourceAudit.Agent

open Outside Outside.Audit

/-! ## Running Java projects -/

namespace Java

theorem apart_projectRoot (p : String) : Apart (projectRoot p) :=
  .bind (.absolute _) fun _ => .nearestMarked _ _

theorem apart_sourcesBelow (dir : String) : Apart (sourcesBelow dir) :=
  .bind (.walk dir) fun _ => .pure _

theorem apart_firstDirectory (dirs : List String) : Apart (firstDirectory dirs) := by
  induction dirs with
  | nil => exact .pure _
  | cons dir tl ih =>
    refine .bind (.isDirectory dir) fun f => ?_
    split
    · exact .pure _
    · exact ih

theorem apart_projectSources (root : String) : Apart (projectSources root) := by
  refine .bind (apart_firstDirectory _) fun f => .bind (apart_sourcesBelow _) fun srcs => ?_
  split
  · exact .bind (apart_sourcesBelow root) fun _ => .pure _
  · exact .pure _

theorem apart_mainClass (p : String) : Apart (mainClass p) := by
  refine .bind (Steady.readTextSkipping p).attempt fun read => ?_
  cases read with
  | error err => exact .pure _
  | ok code =>
    dsimp only
    split
    · exact .pure _
    · split <;> exact .pure _

theorem apart_classPath (root : String) (dirs further : Value) :
    Apart (classPath root dirs further) :=
  .bind (.ofOutcome _) fun _ =>
    .bind (Monitor.Java.looks_projectLibraries root _).apart fun _ =>
      .bind (Monitor.Java.looks_distinctExisting _).apart fun _ => .pure _

theorem apart_writeArguments (tgt classPath : String) (srcs : List String) :
    Apart (writeArguments tgt classPath srcs) :=
  .bind (.temporaryFile _ _) fun _ => .bind (.writeText _ _) fun _ => .pure _

theorem apart_runCommand (cmd : List String) (dir : String) (lim : Value) :
    Apart (runCommand cmd dir lim) := by
  refine .bind (Monitor.apart_runLimited cmd _ lim) fun ended => ?_
  cases ended <;> exact .pure _

theorem apart_fetchLibraries (root : String) (settings lim : Value) :
    Apart (fetchLibraries root settings lim) := by
  refine .bind (.ofOutcome _) fun stated => ?_
  dsimp only
  split
  · exact .pure _
  · refine .bind (.exists? _) fun f => ?_
    split
    · exact .pure _
    · refine .bind (.which _) fun tool => ?_
      split
      · exact .pure _
      · refine .bind (apart_runCommand _ root lim) fun fs => ?_
        split
        · exact .pure _
        · split <;> exact .pure _

end Java

/-! ## Running targets -/

theorem apart_runGo (p : String) (lim : Value) : Apart (runGo p lim) := by
  refine .bind (.which _) fun tool => ?_
  split
  · exact .pure _
  · exact .bind (.absolute p) fun _ => .bind (Monitor.apart_runSampled _ _ _ _ _) fun _ =>
      .pure _

theorem apart_compileAndRun (root mainClass classPath tgt args problem : String)
    (lim compileLimit : Value) :
    Apart (compileAndRun root mainClass classPath tgt args problem lim compileLimit) := by
  refine .bind (Java.apart_runCommand _ root compileLimit) fun fs => ?_
  dsimp only
  split
  · exact .pure _
  · exact .bind (Monitor.apart_runSampled _ _ _ _ _) fun _ => .pure _

theorem apart_runJava (p : String) (lim settings : Value) : Apart (runJava p lim settings) := by
  rw [runJava]
  refine .bind (.which _) fun compiler => .bind (.which _) fun machine => ?_
  split
  · exact .pure _
  · refine .bind (.absolute p) fun p => .bind (Java.apart_projectRoot p) fun root =>
      .bind (Java.apart_mainClass p) fun mainClass => ?_
    split
    · exact .pure _
    · -- Only the arguments for the compiler and its output directory are written.
      refine .bind (Java.apart_projectSources root) fun _ => .bind (.ofOutcome _) fun fetchLimit =>
        .bind (.ofOutcome _) fun compileLimit =>
          .bind (Java.apart_fetchLibraries root settings fetchLimit) fun _ =>
            .bind (.ofOutcome _) fun problem => .bind (.ofOutcome _) fun dirs =>
              .bind (.ofOutcome _) fun further =>
                .bind (Java.apart_classPath root dirs further) fun classPath => ?_
      have compiled (tgt args : String) := apart_compileAndRun root mainClass classPath
        tgt args problem lim compileLimit
      exact .bind (.temporaryDirectory _) fun tgt =>
        .bind (Java.apart_writeArguments tgt classPath _) fun args =>
          .bind (compiled tgt args).attempt fun r =>
            .bind (.removeTree args) fun _ => .bind (.removeTree tgt) fun _ =>
              .ofOutcome r

theorem apart_runPython (sum : TargetSummary) (p : String) (lim : Int) (mode : Value)
    (width : Int) : Apart (runPython sum p lim mode width) := by
  rw [runPython]
  refine .bind (Monitor.apart_requestSandbox _ _ _ _) fun run => .bind (.ofOutcome _) fun log => ?_
  extract_lets placed noted marked gathered
  have apart (seen : List Value × List Value × List Value) : Apart (gathered seen) :=
    .bind (Monitor.apart_fuzz _ _ _ _ _) fun _ => .bind (.ofOutcome _) fun _ =>
      .bind (.ofOutcome _) fun _ => .pure _
  split
  · exact .bind (Monitor.apart_analyzeNetwork log) fun _ =>
      .bind (Monitor.apart_analyzeFiles log) fun _ =>
        .bind (Monitor.apart_analyzeMemory log) fun _ => .bind (.pure _) apart
  · exact .bind (.pure _) apart

theorem apart_runTarget (opts : RunOptions) (sum : TargetSummary) (e : SourceEntry) :
    Apart (runTarget opts sum e) := by
  rw [runTarget]
  split
  · exact .pure _
  · split
    · exact apart_runPython _ _ _ _ _
    · exact .bind (apart_runGo _ _) fun _ => .ofOutcome _
    · exact .bind (apart_runJava _ _ _) fun _ => .ofOutcome _
    · exact .pure _

theorem apart_runTargets (es : List SourceEntry) (cfg settings : Value) :
    Apart (runTargets es cfg settings) :=
  .bind (.ofOutcome _) fun opts => .foldlM (apart_runTarget opts) es _

theorem silent_runTargets (es : List SourceEntry) (cfg settings : Value) :
    Silent (runTargets es cfg settings) :=
  (apart_runTargets es cfg settings).leaves

/-! ## Requests -/

def afterRequest (call : Value) (s : Session) : Session :=
  { s with
    calls := call :: s.calls
    script := { s.script with replies := s.script.replies.tail } }

def replyOutcome : List ChatReply → Outcome String
  | [] => .error (.runtime "no scripted reply")
  | .content v :: _ => .ok (v.orElse (.text "")).plain
  | .failed msg :: _ => .error (.runtime msg)
  | .nothing :: _ => .ok ""
  | .noChoices :: _ => .ok ""
  | .noMessage :: _ => .ok ""

def IsRequest (call msgs : Value) : Prop :=
  ∃ request, call.lookup? "chat" = some request ∧ request.lookup? "messages" = some msgs

theorem perform_receive (s : Session) :
    Provider.receive.perform s = (replyOutcome s.script.replies,
        { s with
          script := { s.script with replies := s.script.replies.tail } }) := by
  rw [Provider.receive, perform_get_bind]
  rcases replies : s.script.replies with _ | ⟨reply, tl⟩
  · rw [← replies]
    cases s with
    | mk files here script =>
      dsimp only at replies ⊢
      cases script with
      | mk commands =>
        dsimp only at replies ⊢
        subst replies
        rfl
  · cases reply <;> rfl

theorem looks_limits (prov : Provider) : Looks prov.limits := by
  refine .bind (.ofOutcome _) fun total => .looking (fun _ _ => rfl) fun s => ?_
  split <;> exact .pure _

theorem perform_chat_unreachable {s : Session}
    (library : s.script.chatLibrary = false) (prov : Provider) (msgs lim : Value) :
    ∃ err, (prov.chat msgs lim).perform s = (.error err, s) := by
  rw [Provider.chat, perform_get_bind, library]
  exact ⟨_, rfl⟩

theorem perform_chat_reachable {s : Session} {prov : Provider} {limits : Value}
    (library : s.script.chatLibrary = true)
    (limited : prov.limits.perform s = (.ok limits, s)) (msgs lim : Value) :
    ∃ call, IsRequest call msgs ∧ (prov.chat msgs lim).perform s =
        (replyOutcome s.script.replies, afterRequest call s) := by
  rw [Provider.chat, perform_get_bind, library]
  dsimp only
  rw [if_neg (by decide), perform_bind_ok limited]
  exact ⟨_, ⟨_, rfl, rfl⟩, perform_receive _⟩

theorem perform_chat (prov : Provider) (msgs lim : Value) (s : Session) :
    (∃ err, (prov.chat msgs lim).perform s = (.error err, s)) ∨
      ∃ call, IsRequest call msgs ∧ (prov.chat msgs lim).perform s =
          (replyOutcome s.script.replies, afterRequest call s) := by
  cases library : s.script.chatLibrary with
  | false => exact Or.inl (perform_chat_unreachable library prov msgs lim)
  | true =>
    rcases limited : prov.limits.perform s with ⟨out, s'⟩
    cases (looks_limits prov).eq limited
    cases out with
    | ok limits => exact Or.inr (perform_chat_reachable library limited msgs lim)
    | error err =>
      refine Or.inl ⟨err, ?_⟩
      rw [Provider.chat, perform_get_bind, library]
      dsimp only
      rw [if_neg (by decide), perform_bind_error limited]

end SourceAudit.Agent
