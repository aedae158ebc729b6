import SourceAudit.Monitor.Hook

/-!
# Installing hooks

Hooks are installed by binding the names of functions to them, after saving what the names were
bound to, and are taken out by binding the saved functions again.
-/

namespace SourceAudit.Monitor

inductive Function where
  | genuine
  | hooked (owner : Nat)
  | substitute
deriving DecidableEq, Repr

abbrev Bindings := Hook → Function

structure HookRuntime where
  owner : Nat
  installed : Bool := false
  saved : Hook → Option Function := fun _ => none

namespace HookRuntime

def installedMessage : String := "[INFO] Hooks installed successfully"

def uninstalledMessage : String := "[INFO] Hooks uninstalled successfully"

def isAvailable (hook : Hook) : Bool :=
  hook != .windowsLibrary

def install (runtime : HookRuntime) (bindings : Bindings) : HookRuntime × Bindings × List String :=
  if runtime.installed then (runtime, bindings, [])
  else
    let saved (hook : Hook) : Option Function :=
      if isAvailable hook then some (bindings hook) else runtime.saved hook
    let bound (hook : Hook) : Function :=
      if isAvailable hook then .hooked runtime.owner else bindings hook
    ({ runtime with installed := true, saved }, bound, [installedMessage])

def uninstall (runtime : HookRuntime) (bindings : Bindings) :
    HookRuntime × Bindings × List String :=
  if runtime.installed then
    let bound (hook : Hook) : Function :=
      if isAvailable hook then (runtime.saved hook).getD (bindings hook) else bindings hook
    ({ runtime with installed := false }, bound, [uninstalledMessage])
  else (runtime, bindings, [])

def substitute (runtime : HookRuntime) (hook : Hook) : HookRuntime :=
  { runtime with
    saved := fun other => if other = hook then some .substitute else runtime.saved other }

def hookedNames (runtime : HookRuntime) (bindings : Bindings) : List String :=
  ((Hook.all.filter fun hook =>
    !hook.isOptional && bindings hook = .hooked runtime.owner).map Hook.key).mergeSort
      fun a b => decide (a ≤ b)

end HookRuntime

structure Hooking where
  bindings : Bindings := fun _ => .genuine
  latest : Option HookRuntime := none
  count : Nat := 0

namespace Hooking

def install (hooking : Hooking) : Hooking × List String :=
  let runtime : HookRuntime := { owner := hooking.count }
  let (runtime, bindings, msgs) := runtime.install hooking.bindings
  ({ bindings, latest := some runtime, count := hooking.count + 1 }, msgs)

def uninstall (hooking : Hooking) : Hooking × List String :=
  match hooking.latest with
  | none => (hooking, [])
  | some runtime =>
    let (runtime, bindings, msgs) := runtime.uninstall hooking.bindings
    ({ hooking with bindings, latest := some runtime }, msgs)

end Hooking

structure HookedCall where
  outcome : Outcome Value
  handedOn : List (List Value × List (String × Value))
  messages : List String

def Hook.invoke (hook : Hook) (stack : String) (isThere : String → Bool) (given : List Value)
    (named : List (String × Value)) (outcome : Outcome Value) : HookedCall :=
  match hook.prepare stack isThere given named with
  | .error err => { outcome := .error err, handedOn := [], messages := [] }
  | .ok prepared =>
    let failure := match outcome with
      | .error err => if prepared.guarded then [hook.failure err] else []
      | .ok _ => []
    { outcome, handedOn := [(prepared.arguments, prepared.named)]
      messages := prepared.messages ++ failure }

end SourceAudit.Monitor
