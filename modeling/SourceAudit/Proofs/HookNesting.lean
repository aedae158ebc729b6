import SourceAudit.Monitor.Hooking
import Mathlib.Data.List.Chain

/-!
# Taking hooks out again

A program installs hooks and takes them out any number of times, in any order.
-/

open List

namespace SourceAudit.Monitor

namespace Hooking

inductive Call where
  | install
  | uninstall
deriving DecidableEq, Repr

def Call.perform : Call → Hooking → Hooking
  | .install, hooking => hooking.install.1
  | .uninstall, hooking => hooking.uninstall.1

def after (hooking : Hooking) (calls : List Call) : Hooking :=
  calls.foldl (fun hooking call => call.perform hooking) hooking

@[simp]
theorem after_cons (hooking : Hooking) (call : Call) (calls : List Call) :
    hooking.after (call :: calls) = (call.perform hooking).after calls := rfl

theorem after_append (hooking : Hooking) (calls others : List Call) :
    hooking.after (calls ++ others) = (hooking.after calls).after others :=
  foldl_append

def before (bindings : Bindings) : Hooking :=
  { bindings }

/-! ## What one call does -/

def hookedBy (owner : Nat) (bindings : Bindings) : Bindings :=
  fun hook => if HookRuntime.isAvailable hook then .hooked owner else bindings hook

theorem hookedBy_of_isAvailable {hook : Hook} (available : HookRuntime.isAvailable hook = true)
    (owner : Nat) (bindings : Bindings) : hookedBy owner bindings hook = .hooked owner :=
  if_pos available

/--
The hooks of the owner, if there is one, are installed over the bindings `base`; without an owner
the names are bound as `base` says.
-/
inductive Stands (base : Bindings) : Option Nat → Hooking → Prop
  | bare {hooking : Hooking} (bound : hooking.bindings = base)
      (idle : ∀ runtime, hooking.latest = some runtime → runtime.installed = false) :
      Stands base none hooking
  | layered {hooking : Hooking} {runtime : HookRuntime}
      (bound : hooking.bindings = hookedBy runtime.owner base)
      (latest : hooking.latest = some runtime) (installed : runtime.installed = true)
      (saved : ∀ hook, HookRuntime.isAvailable hook = true →
        runtime.saved hook = some (base hook)) :
      Stands base (some runtime.owner) hooking

variable {base : Bindings} {owner : Option Nat} {hooking : Hooking}

theorem stands_before (bindings : Bindings) : Stands bindings none (before bindings) := by
  apply Stands.bare
  · rfl
  · intro runtime latest
    cases latest

theorem stands_install (hooking : Hooking) :
    Stands hooking.bindings (some hooking.count) (Call.install.perform hooking) := by
  let fresh : HookRuntime := { owner := hooking.count }
  apply @Stands.layered _ _ (fresh.install hooking.bindings).1
  · rfl
  · rfl
  · rfl
  · intro hook available
    exact if_pos available

theorem Stands.install (stands : Stands base none hooking) :
    Stands base (some hooking.count) (Call.install.perform hooking) := by
  cases stands with
  | bare bound _ =>
    rw [← bound]
    exact stands_install hooking

theorem Stands.install_over {other : Nat} (stands : Stands base (some other) hooking) :
    Stands (hookedBy other base) (some hooking.count) (Call.install.perform hooking) := by
  cases stands with
  | layered bound _ _ _ =>
    rw [← bound]
    exact stands_install hooking

theorem Stands.uninstall (stands : Stands base owner hooking) :
    Stands base none (Call.uninstall.perform hooking) := by
  rw [Call.perform, Hooking.uninstall]
  cases stands with
  | bare bound idle =>
    split
    · exact Stands.bare bound idle
    · rename_i runtime latest
      have still : runtime.uninstall hooking.bindings = (runtime, hooking.bindings, []) := by
        rw [HookRuntime.uninstall, idle runtime latest]
        rfl
      rw [still]
      refine Stands.bare bound ?_
      intro other hs
      cases hs
      exact idle runtime latest
  | @layered _ runtime bound latest installed saved =>
    rw [latest]
    dsimp only
    rw [HookRuntime.uninstall, if_pos installed]
    apply Stands.bare
    · funext hook
      show (if HookRuntime.isAvailable hook then _ else _) = _
      split_ifs with available
      · rw [saved hook available]
        rfl
      · rw [bound]
        exact if_neg available
    · intro other hs
      cases hs
      rfl

theorem count_perform (call : Call) (hooking : Hooking) :
    (call.perform hooking).count = hooking.count + [call].count .install := by
  cases call with
  | install => rfl
  | uninstall =>
    rw [Call.perform, Hooking.uninstall]
    split <;> rfl

/-! ## What a sequence of calls does -/

theorem count_after (hooking : Hooking) (calls : List Call) :
    (hooking.after calls).count = hooking.count + calls.count .install := by
  induction calls generalizing hooking with
  | nil => rfl
  | cons call calls ih =>
    have parts : (call :: calls).count .install = [call].count .install + calls.count .install := by
      rw [← count_append, singleton_append]
    rw [after_cons, ih, count_perform, parts, Nat.add_assoc]

def Separated (calls : List Call) : Prop :=
  calls.IsChain fun a b => a = .install → b = .uninstall

def lead : Option Nat → List Call
  | some _ => [.install]
  | none => []

theorem Stands.after_separated {calls : List Call} (stands : Stands base owner hooking)
    (separated : Separated (lead owner ++ calls)) :
    ∃ later, Stands base later (hooking.after calls) := by
  induction calls generalizing owner hooking with
  | nil => exact ⟨owner, stands⟩
  | cons call calls ih =>
    cases call with
    | uninstall =>
      apply ih stands.uninstall
      exact separated.suffix ⟨lead owner ++ [.uninstall], by simp [lead]⟩
    | install =>
      cases owner with
      | none => exact ih stands.install separated
      | some other =>
        have next := (isChain_cons_cons.mp separated).1 rfl
        cases next

theorem exists_of_not_separated {calls : List Call} (joined : ¬ Separated calls) :
    ∃ pre tl, calls = pre ++ .install :: .install :: tl ∧ Separated (.install :: tl) := by
  induction calls with
  | nil => exact absurd List.IsChain.nil joined
  | cons call calls ih =>
    by_cases separated : Separated calls
    · cases calls with
      | nil => exact absurd (List.IsChain.singleton call) joined
      | cons next tl =>
        have pair : ¬ (call = .install → next = .uninstall) := by
          intro fits
          exact joined (isChain_cons_cons.mpr ⟨fits, separated⟩)
        cases call with
        | uninstall => exact absurd (fun hs => by cases hs) pair
        | install =>
          cases next with
          | uninstall => exact absurd (fun _ => rfl) pair
          | install => exact ⟨[], tl, rfl, separated⟩
    · rcases ih separated with ⟨pre, tl, rfl, behind⟩
      exact ⟨call :: pre, tl, rfl, behind⟩

theorem bindings_of_joined (bindings : Bindings) (pre : List Call) {tl : List Call}
    (separated : Separated (.install :: tl)) {hook : Hook}
    (available : HookRuntime.isAvailable hook = true) :
    ((before bindings).after (pre ++ .install :: .install :: tl ++ [.uninstall])).bindings
        hook = .hooked (pre.count .install) := by
  have h1 := stands_install ((before bindings).after pre)
  have h2 := h1.install_over
  rcases h2.after_separated separated with ⟨later, stands⟩
  have last := stands.uninstall
  rw [after_append, after_append]
  cases last with
  | bare bound _ =>
    refine (congrFun bound hook).trans ?_
    rw [hookedBy_of_isAvailable available, count_after]
    exact congrArg Function.hooked (Nat.zero_add _)

def Foreign (bindings : Bindings) : Prop :=
  ∀ hook owner, bindings hook ≠ .hooked owner

/--
After any calls that end with taking the hooks out, every name is bound to what it was bound to
before the first call exactly when no installation directly follows another one.  Otherwise the
names stay bound to hooks, namely to those of the first of the last two installations that follow
each other directly.
-/
theorem bindings_restored_iff_separated {bindings : Bindings} (foreign : Foreign bindings)
    (calls : List Call) :
    (((before bindings).after (calls ++ [.uninstall])).bindings = bindings ↔ Separated calls) ∧
      ∀ front rest, calls = front ++ .install :: .install :: rest → Separated (.install :: rest) →
        ∀ hook, HookRuntime.isAvailable hook = true →
          ((before bindings).after (calls ++ [.uninstall])).bindings hook =
            .hooked (front.count .install) := by
  constructor
  · constructor
    · intro restored
      by_contra joined
      rcases exists_of_not_separated joined with ⟨front, rest, rfl, behind⟩
      have left : _ = Function.hooked (front.count .install) :=
        bindings_of_joined bindings front behind
          (show HookRuntime.isAvailable .system = true from rfl)
      rw [restored] at left
      exact foreign .system _ left
    · intro separated
      rcases (stands_before bindings).after_separated separated with ⟨later, stands⟩
      have last := stands.uninstall
      rw [after_append]
      cases last with
      | bare bound _ => exact bound
  · rintro front rest rfl behind hook available
    exact bindings_of_joined bindings front behind available

/-- Hooks that are installed twice and taken out once are still there. -/
theorem bindings_kept_after_two_installations :
    Foreign (fun _ => .genuine) ∧
      ((before fun _ => .genuine).after [.install, .uninstall, .install, .uninstall]).bindings =
        (fun _ => .genuine) ∧
      ((before fun _ => .genuine).after [.install, .install, .uninstall]).bindings ≠
        (fun _ => .genuine) ∧
      ((before fun _ => .genuine).after [.install, .install, .uninstall]).bindings .system =
        .hooked 0 := by
  have foreign : Foreign fun _ => .genuine := by
    intro hook owner same
    cases same
  have once := bindings_restored_iff_separated foreign [.install, .uninstall, .install]
  have twice := bindings_restored_iff_separated foreign [.install, .install]
  refine ⟨foreign, once.1.mpr ?_, ?_, twice.2 [] [] rfl (List.IsChain.singleton _) .system rfl⟩
  · simp [Separated]
  · intro restored
    have separated := twice.1.mp restored
    simp [Separated] at separated

end Hooking

end SourceAudit.Monitor
