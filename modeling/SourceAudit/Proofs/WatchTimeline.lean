import SourceAudit.Monitor.ProcessRun
import SourceAudit.Proofs.Computation
import Mathlib.Tactic.Ring

/-!
# The timeline of a watched process

A watched process is asked again and again whether it still runs. Between two questions the watcher
looks at it and pauses, so the script of the process, the clock and the pause decide together how
often the watcher looks and whether the limit ends the run.
-/

open List

namespace SourceAudit.Outside

structure Schedule where
  target : Target
  ticks : Nat
  sleeps : Nat

def Session.schedule (s : Session) : Schedule where
  target := s.script.target
  ticks := s.ticks
  sleeps := s.sleeps

namespace Schedule

def timeAt (ticks : Nat) : Double :=
  Double.ofFloat (1000.0 + Float.ofNat ticks / 4.0)

def passed (started : Double) (lim : Value) (ticks : Nat) : Bool :=
  (Value.float (Double.ofFloat ((timeAt ticks).toFloat - started.toFloat))).compareNumbers lim ==
    some .gt

def late (schedule : Schedule) (lim iv : Value) (looks : Nat) : Bool :=
  passed (timeAt schedule.ticks) lim (schedule.ticks + looks * Audit.pauseTicks iv)

def sampleAfter (schedule : Schedule) (looks : Nat) : Sample :=
  (schedule.target.samples[min (schedule.sleeps + looks)
    (schedule.target.samples.length - 1)]?).getD {}

def samples (schedule : Schedule) (looks : Nat) : List Sample :=
  (List.range looks).map schedule.sampleAfter

end Schedule

/-! ## When a watch ends -/

/--
A process that is found running a number of times is looked at `looks` times: until it has ended, or
until the first time that it is late, which cuts the run off.
-/
structure EndsAfter (late : Nat → Bool) (polls looks : Nat) (cut : Bool) : Prop where
  within : looks ≤ polls
  timely : ∀ check < looks, late check = false
  exited : cut = false → looks = polls
  overdue : cut = true → looks < polls ∧ late looks = true

namespace EndsAfter

variable {late : Nat → Bool} {polls looks : Nat} {cut : Bool}

theorem cut_iff (ends : EndsAfter late polls looks cut) :
    cut = true ↔ ∃ check < polls, late check = true := by
  constructor
  · intro isCut
    exact ⟨looks, ends.overdue isCut⟩
  · rintro ⟨check, before, isLate⟩
    cases cut with
    | true => rfl
    | false =>
      rw [← ends.exited rfl] at before
      rw [ends.timely check before] at isLate
      exact absurd isLate Bool.false_ne_true

theorem unique {otherLooks : Nat} {otherCut : Bool} (one : EndsAfter late polls looks cut)
    (ho : EndsAfter late polls otherLooks otherCut) : looks = otherLooks ∧ cut = otherCut := by
  have sameCut : cut = otherCut := Bool.eq_iff_iff.mpr (one.cut_iff.trans ho.cut_iff.symm)
  subst sameCut
  refine ⟨?_, rfl⟩
  cases cut with
  | false => exact (one.exited rfl).trans (ho.exited rfl).symm
  | true =>
    have ⟨_, oneLate⟩ := one.overdue rfl
    have ⟨_, otherLate⟩ := ho.overdue rfl
    rcases Nat.lt_trichotomy looks otherLooks with before | hs | behind
    · rw [ho.timely looks before] at oneLate
      exact absurd oneLate Bool.false_ne_true
    · exact hs
    · rw [one.timely otherLooks behind] at otherLate
      exact absurd otherLate Bool.false_ne_true

end EndsAfter

/-! ## Steps of a watch -/

namespace Audit


variable {s : Session}

theorem perform_poll_running (running : s.polled < s.script.target.polls) :
    poll.perform s = (.ok none, { s with polled := s.polled + 1 }) := by
  rw [poll, perform_get_bind, if_pos running]
  rfl

theorem perform_poll_ended (he : s.script.target.polls ≤ s.polled) :
    poll.perform s = (.ok (some (statusToCome s)),
        { s with
          polled := s.polled + 1
          exitStatus := some (statusToCome s) }) := by
  rw [poll, perform_get_bind, if_neg (Nat.not_lt.mpr he)]
  rfl

theorem perform_terminate (s : Session) :
    terminate.perform s =
      (.ok (), { s with calls := .text "terminate" :: s.calls, terminated := true }) :=
  rfl

end Audit

end SourceAudit.Outside

namespace SourceAudit.Monitor

open Outside Outside.Audit

section Loops

variable {lim : Value} (numeric : lim.isNumber = true) (started : Double) (iv : Value)

include numeric

variable {s : Session}

end Loops

/-! ## Watched runs -/

def exitStatus (tgt : Target) (cut : Bool) : Option Int :=
  if cut then (if tgt.unresponsive then none else some (-15)) else some tgt.status

end SourceAudit.Monitor
