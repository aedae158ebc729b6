import SourceAudit.Proofs.Computation

/-!
# What computations leave alone

Most computations only look at the session. Besides, replies of the chat service are heard by
requests only: everything else is deaf to them, which means that with other replies waiting it comes
to the same outcome and leaves the same session behind, with those other replies.
-/

namespace SourceAudit.Outside

def Session.hearing (s : Session) (replies : List ChatReply) : Session :=
  { s with script := { s.script with replies } }

@[simp]
theorem Session.hearing_replies (s : Session) (replies : List ChatReply) :
    (s.hearing replies).script.replies = replies := rfl

theorem Session.hearing_self (s : Session) :
    s.hearing s.script.replies = s := rfl

@[simp]
theorem Session.hearing_files (s : Session) (replies : List ChatReply) :
    (s.hearing replies).files = s.files := rfl

@[simp]
theorem Audit.key_hearing (s : Session) (replies : List ChatReply) (p : String) :
    Audit.key (s.hearing replies) p = Audit.key s p := rfl

namespace Audit

variable {α β part : Type} {act : Audit α}

def Deaf (act : Audit α) : Prop :=
  ∀ s replies, act.perform (s.hearing replies) =
    ((act.perform s).1, (act.perform s).2.hearing replies)

namespace Deaf

theorem bind {next : α → Audit β} (h1 : Deaf act) (h2 : ∀ v, Deaf (next v)) :
    Deaf (act >>= next) := by
  intro s replies
  have hb := h1 s replies
  rcases hperf : act.perform s with ⟨out, mid⟩
  rw [hperf] at hb
  cases out with
  | error err => rw [perform_bind_error hperf, perform_bind_error hb]
  | ok v =>
    rw [perform_bind_ok hperf, perform_bind_ok hb]
    exact h2 v mid replies

theorem changing {next : Session → Audit β}
    (deaf : ∀ s replies, (next (s.hearing replies)).perform (s.hearing replies) =
      (((next s).perform s).1, ((next s).perform s).2.hearing replies)) :
    Deaf (MonadState.get >>= next) := by
  intro s replies
  rw [perform_get_bind, perform_get_bind]
  exact deaf s replies

theorem attempt (deaf : Deaf act) : Deaf (Audit.attempt act) := by
  intro s replies
  rw [perform_attempt, perform_attempt, deaf s replies]

theorem again (deaf : Deaf act) {s s' : Session} {out : Outcome α}
    (hd : act.perform s = (out, s')) (replies : List ChatReply) :
    act.perform (s.hearing replies) = (out, s'.hearing replies) := by
  rw [deaf s replies, hd]

theorem replies_eq (deaf : Deaf act) (s : Session) :
    (act.perform s).2.script.replies = s.script.replies := by
  have hs := deaf s s.script.replies
  rw [Session.hearing_self] at hs
  rw [hs]
  rfl

end Deaf

structure Steady (view : Session → part) (action : Audit α) : Prop where
  leaves : Leaves view action
  deaf : Deaf action

namespace Steady

variable {view : Session → part}

theorem pure (v : α) : Steady view (Pure.pure v : Audit α) := ⟨.pure v, fun _ _ => rfl⟩

theorem throw (err : Fault) : Steady view (MonadExcept.throw err : Audit α) :=
  ⟨.throw err, fun _ _ => rfl⟩

theorem ofOutcome (out : Outcome α) : Steady view (Audit.ofOutcome out) := by
  cases out with
  | ok v => exact pure v
  | error err => exact throw err

theorem bind {next : α → Audit β} (h1 : Steady view act)
    (h2 : ∀ v, Steady view (next v)) : Steady view (act >>= next) :=
  ⟨.bind h1.leaves fun v => (h2 v).leaves, .bind h1.deaf fun v => (h2 v).deaf⟩

theorem failing {next : α → Audit β} (err : Fault) :
    Steady view (MonadExcept.throw err >>= next) := ⟨.failing err, fun _ _ => rfl⟩

theorem looking {next : Session → Audit β} (blind : ∀ s replies, next (s.hearing replies) = next s)
    (steady : ∀ s, Steady view (next s)) : Steady view (MonadState.get >>= next) := by
  refine ⟨.bind .get fun s => (steady s).leaves, .changing fun s replies => ?_⟩
  rw [blind]
  exact (steady s).deaf s replies

theorem attempt (steady : Steady view act) : Steady view (Audit.attempt act) :=
  ⟨steady.leaves.attempt, steady.deaf.attempt⟩

theorem orElse {replacement : Fault → Audit α} (h1 : Steady view act)
    (h2 : ∀ err, Steady view (replacement err)) : Steady view (Audit.orElse act replacement) := by
  refine bind h1.attempt fun out => ?_
  cases out with
  | ok v => exact pure v
  | error err => exact h2 err

theorem mapM {step : α → Audit β} (steady : ∀ x, Steady view (step x)) (xs : List α) :
    Steady view (xs.mapM step) := by
  induction xs with
  | nil => exact pure []
  | cons x tl ih =>
    rw [List.mapM_cons]
    exact bind (steady x) fun _ => bind ih fun _ => pure _

theorem foldlM {step : β → α → Audit β} (steady : ∀ state x, Steady view (step state x))
    (xs : List α) (state : β) : Steady view (xs.foldlM step state) := by
  induction xs generalizing state with
  | nil => exact pure state
  | cons x tl ih =>
    rw [List.foldlM_cons]
    exact bind (steady state x) ih

theorem anyM {test : α → Audit Bool} (steady : ∀ x, Steady view (test x)) (xs : List α) :
    Steady view (xs.anyM test) := by
  induction xs with
  | nil => exact pure false
  | cons x tl ih =>
    refine bind (steady x) fun passed => ?_
    cases passed with
    | true => exact pure true
    | false => exact ih

theorem findM? {test : α → Audit Bool} (steady : ∀ x, Steady view (test x)) (xs : List α) :
    Steady view (xs.findM? test) := by
  induction xs with
  | nil => exact pure none
  | cons x tl ih =>
    refine bind (steady x) fun passed => ?_
    cases passed with
    | true => exact pure (some x)
    | false => exact ih

theorem modify {change : Session → Session} (keeps : ∀ s, view (change s) = view s)
    (deaf : ∀ s replies, change (s.hearing replies) = (change s).hearing replies) :
    Steady view (modify change : Audit Unit) :=
  ⟨keeps, fun s replies => congrArg (Prod.mk _) (deaf s replies)⟩

/-! ## Looking at files, tools and the clock -/

theorem lookup (p : String) : Steady view (Audit.lookup p) := by
  refine looking (fun s replies => ?_) fun s => ?_
  · simp only [key_hearing, Session.hearing_files]
  split
  · exact pure none
  · split <;> exact pure _

theorem exists? (p : String) : Steady view (Audit.exists? p) := bind (lookup p) fun _ => pure _

theorem isDirectory (p : String) : Steady view (Audit.isDirectory p) :=
  bind (lookup p) fun _ => pure _

theorem isFile (p : String) : Steady view (Audit.isFile p) := by
  refine bind (lookup p) fun e => ?_
  split <;> exact pure _

theorem walk (p : String) : Steady view (Audit.walk p) := looking (fun _ _ => rfl) fun _ => pure _

theorem absolute (p : String) : Steady view (Audit.absolute p) :=
  looking (fun _ _ => rfl) fun _ => pure _

theorem nearestMarked (start : String) (markers : List String) :
    Steady view (Audit.nearestMarked start markers) := by
  refine bind (absolute start) fun own => bind (findM? (fun dir => ?_) _) fun _ => pure _
  exact anyM (fun marker => exists? (Path.join dir marker)) markers

theorem which (tool : String) : Steady view (Audit.which tool) :=
  looking (fun _ _ => rfl) fun _ => pure _

theorem now : Steady view Audit.now := looking (fun _ _ => rfl) fun _ => pure _

theorem since (earlier : Double) : Steady view (Audit.since earlier) := bind now fun _ => pure _

theorem missing (p : String) : Steady view (Audit.missing p) :=
  looking (fun _ _ => rfl) fun _ => pure _

theorem checkOpen (p : String) : Steady view (Audit.checkOpen p) := by
  refine looking (fun _ _ => rfl) fun s => ?_
  split
  · exact throw _
  · exact pure _

theorem checkWritable (p : String) : Steady view (Audit.checkWritable p) := by
  refine looking (fun s replies => ?_) fun s => ?_
  · simp only [key_hearing, Session.hearing_files]
  dsimp only
  split
  · exact throw _
  · split
    · exact throw _
    · split
      · exact throw _
      · exact pure _
      · split
        · exact pure _
        · exact bind (missing p) fun _ => throw _

theorem loadBytes (p : String) : Steady view (Audit.loadBytes p) := by
  refine bind (lookup p) fun e => ?_
  split
  · exact pure _
  · exact throw _
  · exact bind (missing p) fun _ => throw _

theorem readBytes (p : String) : Steady view (Audit.readBytes p) :=
  bind (checkOpen p) fun _ => loadBytes p

theorem readText (p : String) : Steady view (Audit.readText p) := by
  refine bind (readBytes p) fun bytes => ?_
  split
  · exact pure _
  · exact throw _

theorem readTextSkipping (p : String) : Steady view (Audit.readTextSkipping p) :=
  bind (readBytes p) fun _ => pure _

theorem readTextReplacing (p : String) : Steady view (Audit.readTextReplacing p) :=
  bind (readBytes p) fun _ => pure _

/-! ## Looking at the process -/

theorem pollsLeft : Steady view Audit.pollsLeft := looking (fun _ _ => rfl) fun _ => pure _

theorem inspect : Steady view Audit.inspect := by
  refine looking (fun _ _ => rfl) fun s => ?_
  split
  · exact throw _
  · exact pure _

theorem sample : Steady view Audit.sample := looking (fun _ _ => rfl) fun _ => pure _

end Steady

abbrev Looks (act : Audit α) : Prop :=
  Steady id act

namespace Looks

theorem eq {s s' : Session} {out : Outcome α} (looks : Looks act)
    (hd : act.perform s = (out, s')) : s' = s :=
  looks.leaves.eq hd

theorem bind_eq_ok {next : α → Audit β} {s s' : Session} {v : β}
    (looks : Looks act) (hd : (act >>= next).perform s = (.ok v, s')) :
    ∃ a, act.perform s = (.ok a, s) ∧ (next a).perform s = (.ok v, s') := by
  obtain ⟨a, mid, hb, he⟩ := perform_bind_eq_ok.mp hd
  cases looks.eq hb
  exact ⟨a, hb, he⟩

theorem steady (looks : Looks act) (view : Session → part) : Steady view act := by
  refine ⟨fun s => congrArg view ?_, looks.deaf⟩
  exact looks.leaves s

end Looks

/-! ## Changing files -/

class Unfiled (view : Session → part) : Prop where
  same : ∀ (session : Session) (files : Store) (ages : List (List String × Value))
    (temporary : Nat), view { session with files, ages, temporary } = view session

section Files

variable {view : Session → part} [Unfiled view]

namespace Steady

theorem writeText (p c : String) : Steady view (Audit.writeText p c) :=
  bind (checkOpen p) fun _ => bind (checkWritable p) fun _ =>
    modify (fun s => Unfiled.same s _ _ _) fun _ _ => rfl

theorem removeTree (p : String) : Steady view (Audit.removeTree p) :=
  modify (fun s => Unfiled.same s _ _ _) fun _ _ => rfl

theorem nextTemporary : Steady view Audit.nextTemporary :=
  ⟨.looking fun s => Unfiled.same s _ _ _, .changing fun _ _ => rfl⟩

theorem temporaryDirectory (stem : String) : Steady view (Audit.temporaryDirectory stem) :=
  bind nextTemporary fun _ =>
    bind (modify (fun s => Unfiled.same s _ _ _) fun _ _ => rfl) fun _ => pure _

theorem temporaryFile (stem extension : String) :
    Steady view (Audit.temporaryFile stem extension) :=
  bind nextTemporary fun _ =>
    bind (modify (fun s => Unfiled.same s _ _ _) fun _ _ => rfl) fun _ => pure _

end Steady

theorem Leaves.appendText (p c : String) : Leaves view (Audit.appendText p c) :=
  bind (Steady.checkOpen p).leaves fun _ => bind (Steady.checkWritable p).leaves fun _ =>
    modify fun s => Unfiled.same s _ _ _

theorem Leaves.makeDirectories (p : String) : Leaves view (Audit.makeDirectories p) := by
  rw [Audit.makeDirectories]
  dsimp only
  split
  · exact failing _
  · split
    · exact failing _
    · refine looking fun s => ?_
      split
      · rfl
      · rfl
      · split
        · exact failing _ s
        · exact Unfiled.same s _ _ _

end Files

end Audit

end SourceAudit.Outside
