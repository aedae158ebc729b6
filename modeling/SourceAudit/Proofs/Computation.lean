import SourceAudit.Outside.Process

/-!
# Computations step by step

The laws by which a computation of the analysis is taken apart. A computation either yields a value
or a fault and always leaves a session behind, so a sequence of two computations is decided by the
first one.
-/

open List

namespace SourceAudit.Outcome

variable {α β : Type} {a : Outcome α} {next : α → Outcome β}

theorem bind_ok {mid : α} (hd : a = .ok mid) : (a >>= next) = next mid := by
  rw [hd]
  rfl

theorem bind_eq_ok {v : β} : (a >>= next) = .ok v ↔ ∃ mid, a = .ok mid ∧ next mid = .ok v := by
  cases a with
  | error err => exact ⟨nofun, nofun⟩
  | ok mid =>
    constructor
    · intro hd
      exact ⟨mid, rfl, hd⟩
    · rintro ⟨_, hs, hd⟩
      cases hs
      exact hd

theorem ite_bind {condition : Prop} [Decidable condition] {other : Outcome α} :
    ((if condition then a else other) >>= next) =
      if condition then a >>= next else other >>= next := by
  split <;> rfl

end SourceAudit.Outcome

namespace SourceAudit.Outside

def Session.holding (nm : String) (c : List UInt8) : Session :=
  { Session.start {} with
    files := (Session.start {}).files.put ["W", nm] (.file c) }

namespace Audit

variable {α β : Type}

@[simp]
theorem perform_pure (v : α) (s : Session) :
    (pure v : Audit α).perform s = (.ok v, s) := rfl

@[simp]
theorem perform_throw (err : Fault) (s : Session) :
    (throw err : Audit α).perform s = (.error err, s) := rfl

@[simp]
theorem perform_attempt (act : Audit α) (s : Session) :
    (attempt act).perform s = (.ok (act.perform s).1, (act.perform s).2) := rfl

@[simp]
theorem perform_ofOutcome (out : Outcome α) (s : Session) :
    (ofOutcome out).perform s = (out, s) := by
  cases out <;> rfl

variable {act : Audit α} {next : α → Audit β}

theorem perform_bind_ok {s s' : Session} {v : α} (hd : act.perform s = (.ok v, s')) :
    (act >>= next).perform s = (next v).perform s' := by
  change (match act.perform s with
      | (out, mid) => ExceptT.bindCont next out mid) = _
  rw [hd]
  rfl

theorem perform_given {out : Outcome α} {s : Session} {v : α} (given : out = .ok v) :
    (ofOutcome out >>= next).perform s = (next v).perform s :=
  perform_bind_ok (by rw [given, perform_ofOutcome])

theorem perform_get_bind {next : Session → Audit β} {s : Session} :
    (MonadState.get >>= next).perform s = (next s).perform s := rfl

theorem perform_attempt_bind {s s' : Session} {out : Outcome α}
    (he : act.perform s = (out, s')) (next : Outcome α → Audit β) :
    (attempt act >>= next).perform s = (next out).perform s' :=
  perform_bind_ok (by rw [perform_attempt, he])

theorem perform_exists? {s s' : Session} {p : String} {e : Option Entry}
    (looked : (lookup p).perform s = (.ok e, s')) : (exists? p).perform s = (.ok e.isSome, s') :=
  (perform_bind_ok looked).trans rfl

theorem perform_bind_error {s s' : Session} {err : Fault}
    (failed : act.perform s = (.error err, s')) : (act >>= next).perform s = (.error err, s') := by
  change (match act.perform s with
      | (out, mid) => ExceptT.bindCont next out mid) = _
  rw [failed]
  rfl

theorem perform_bind_eq_ok {s s' : Session} {v : β} :
    (act >>= next).perform s = (.ok v, s') ↔
      ∃ a mid,
        act.perform s = (.ok a, mid) ∧ (next a).perform mid = (.ok v, s') := by
  rcases hperf : act.perform s with ⟨out, mid⟩
  cases out with
  | error err =>
    rw [perform_bind_error hperf]
    simp
  | ok a =>
    rw [perform_bind_ok hperf]
    constructor
    · intro hd
      exact ⟨a, mid, rfl, hd⟩
    · rintro ⟨_, _, hs, hd⟩
      cases hs
      exact hd

theorem perform_bind_eq_error {s s' : Session} {err : Fault} :
    (act >>= next).perform s = (.error err, s') ↔
      act.perform s = (.error err, s') ∨
        ∃ a mid,
          act.perform s = (.ok a, mid) ∧ (next a).perform mid = (.error err, s') := by
  rcases hperf : act.perform s with ⟨out, mid⟩
  cases out with
  | error other =>
    rw [perform_bind_error hperf]
    simp
  | ok a =>
    rw [perform_bind_ok hperf]
    constructor
    · intro failed
      exact Or.inr ⟨a, mid, rfl, failed⟩
    · rintro (hs | ⟨_, _, hs, failed⟩)
      · cases hs
      · cases hs
        exact failed

theorem exists_perform_of_map {γ : Type} {s : Session} {sum : α → γ} {seen : γ}
    (evaluated : (act.perform s).1.toOption.map sum = some seen) :
    ∃ v s', act.perform s = (.ok v, s') ∧ sum v = seen := by
  revert evaluated
  rcases act.perform s with ⟨err | v, s'⟩ <;> intro evaluated
  · cases evaluated
  · exact ⟨v, s', rfl, Option.some.inj evaluated⟩

/-! ## What a computation yields -/

def Yields (act : Audit α) (P : α → Prop) : Prop :=
  ∀ s v after, act.perform s = (.ok v, after) → P v

namespace Yields

theorem pure {P : α → Prop} {v : α} (holds : P v) : Yields (Pure.pure v) P := by
  intro s other s' hd
  cases hd
  exact holds

theorem bind {P : α → Prop} {goal : β → Prop} (h1 : Yields act P)
    (h2 : ∀ v, P v → Yields (next v) goal) : Yields (act >>= next) goal := by
  intro s v s' hd
  obtain ⟨mid, between, hb, he⟩ := perform_bind_eq_ok.mp hd
  exact h2 mid (h1 s mid between hb) between v s' he

theorem after {goal : β → Prop} (h2 : ∀ v, Yields (next v) goal) : Yields (act >>= next) goal := by
  have anything : Yields act fun _ => True := fun _ _ _ _ => trivial
  exact anything.bind fun v _ => h2 v

theorem attempt {P : α → Prop} (yields : Yields act P) :
    Yields (Audit.attempt act) fun out => ∀ v, out = .ok v → P v := by
  intro s out s' hd v yielded
  rw [perform_attempt] at hd
  cases hd
  exact yields s v _ (Prod.ext yielded rfl)

theorem ofOutcome (out : Outcome α) : Yields (Audit.ofOutcome out) fun v => out = .ok v := by
  intro s v s' hd
  rw [perform_ofOutcome] at hd
  exact congrArg Prod.fst hd

theorem mapM {step : α → Audit β} {P : β → Prop} (yields : ∀ x, Yields (step x) P) (xs : List α) :
    Yields (xs.mapM step) fun vs => ∀ v ∈ vs, P v := by
  induction xs with
  | nil => exact .pure (forall_mem_nil _)
  | cons x tl ih =>
    rw [mapM_cons]
    exact .bind (yields x) fun _ holds => .bind ih fun _ each =>
      .pure (forall_mem_cons.mpr ⟨holds, each⟩)

end Yields

theorem ofOutcome_bind_eq_ok {out : Outcome α} {s s' : Session} {v : β}
    (hd : (ofOutcome out >>= next).perform s = (.ok v, s')) :
    ∃ a, out = .ok a ∧ (next a).perform s = (.ok v, s') := by
  obtain ⟨a, mid, hb, he⟩ := perform_bind_eq_ok.mp hd
  rw [perform_ofOutcome] at hb
  cases hb
  exact ⟨a, rfl, he⟩

/-! ## Computations that leave a part of the session -/

variable {part : Type}

def Leaves (view : Session → part) (act : Audit α) : Prop :=
  ∀ s, view (act.perform s).2 = view s

namespace Leaves

variable {view : Session → part}

theorem eq {s s' : Session} {out : Outcome α} (leaves : Leaves view act)
    (hd : act.perform s = (out, s')) : view s' = view s := by
  have hs := leaves s
  rw [hd] at hs
  exact hs

theorem pure (v : α) : Leaves view (Pure.pure v : Audit α) := fun _ => rfl

theorem throw (err : Fault) : Leaves view (MonadExcept.throw err : Audit α) := fun _ => rfl

theorem get : Leaves view (MonadState.get : Audit Session) := fun _ => rfl

theorem ofOutcome (out : Outcome α) : Leaves view (Audit.ofOutcome out) := by
  cases out <;> exact fun _ => rfl

theorem bind (h1 : Leaves view act) (h2 : ∀ v, Leaves view (next v)) :
    Leaves view (act >>= next) := by
  intro s
  have hb := h1 s
  rcases hperf : act.perform s with ⟨out, mid⟩
  rw [hperf] at hb
  cases out with
  | error err =>
    rw [perform_bind_error hperf]
    exact hb
  | ok v =>
    rw [perform_bind_ok hperf]
    exact (h2 v mid).trans hb

theorem failing (err : Fault) : Leaves view (MonadExcept.throw err >>= next) := fun _ => rfl

theorem looking {next : Session → Audit β} (leaves : ∀ s, view ((next s).perform s).2 = view s) :
    Leaves view (MonadState.get >>= next) := by
  intro s
  rw [perform_get_bind]
  exact leaves s

theorem attempt (leaves : Leaves view act) : Leaves view (Audit.attempt act) := leaves

theorem modify {change : Session → Session} (keeps : ∀ s, view (change s) = view s) :
    Leaves view (modify change : Audit Unit) := keeps

end Leaves

end Audit

end SourceAudit.Outside
