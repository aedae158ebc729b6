import SourceAudit.Monitor.ProcessRun
import SourceAudit.Proofs.BuiltRuns

/-!
# How monitored runs end

A monitored run returns a result that tells whether its limit cut it off.
-/

namespace SourceAudit.Outside

namespace Audit

variable {α β : Type}

def Delivers (act : Audit α) (P : α → Prop) : Prop :=
  ∀ s, ∃ v after, act.perform s = (.ok v, after) ∧ P v

namespace Delivers

theorem pure {P : α → Prop} {v : α} (holds : P v) : Delivers (Pure.pure v) P :=
  fun s => ⟨v, s, rfl, holds⟩

theorem bind {P : α → Prop} {goal : β → Prop} {act : Audit α} {next : α → Audit β}
    (h1 : Delivers act P) (h2 : ∀ v, P v → Delivers (next v) goal) :
    Delivers (act >>= next) goal := by
  intro s
  obtain ⟨v, mid, hd, holds⟩ := h1 s
  rw [perform_bind_ok hd]
  exact h2 v holds mid

theorem before {goal : β → Prop} {act : Audit α} {next : α → Audit β}
    (h1 : Delivers act fun _ => True) (h2 : ∀ v, Delivers (next v) goal) :
    Delivers (act >>= next) goal :=
  h1.bind fun v _ => h2 v

theorem get : Delivers (MonadState.get : Audit Session) fun _ => True :=
  fun s => ⟨s, s, rfl, trivial⟩

theorem since (earlier : Double) : Delivers (Audit.since earlier) fun _ => True :=
  fun s => ⟨_, s, rfl, trivial⟩

theorem poll : Delivers Audit.poll fun _ => True := by
  intro s
  rcases Nat.lt_or_ge s.polled s.script.target.polls with running | he
  · exact ⟨_, _, perform_poll_running running, trivial⟩
  · exact ⟨_, _, perform_poll_ended he, trivial⟩

theorem terminate : Delivers Audit.terminate fun _ => True :=
  fun s => ⟨_, _, perform_terminate s, trivial⟩

end Delivers

end Audit

end SourceAudit.Outside

namespace SourceAudit.Monitor

open Outside Outside.Audit

/-! ## Commands -/

variable {lim : Value}

section Sampled

variable {iv samples : Value} {n : Int} {s : Session}
  (hc : sampleCount lim iv samples = .ok n) (cmd : List String) (dir : Option String)

include hc

end Sampled

variable {iv samples : Value} {n : Int}

namespace Runner

variable (runner : Runner) {given : Arguments} {s ready : Session} {prog : BuiltProgram}

end Runner

/-! ## The outcome of a monitored run -/

end SourceAudit.Monitor
