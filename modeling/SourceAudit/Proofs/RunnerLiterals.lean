import SourceAudit.Monitor.Sandbox
import SourceAudit.Proofs.TextCutting

/-!
# Paths in the script of a run

The script that runs a program under hooks names the program and its log in raw literals, and the
paths are put between the quotes as they are. A raw literal knows no escapes, but a backslash keeps the
character behind it from ending the literal.
-/

open List

namespace SourceAudit.Monitor

/-! ## Raw literals -/

/-- Reads a raw literal behind its opening quote: its characters, and the text behind it. -/
def rawLiteral? : (escaped : Bool) → List Char → Option (List Char × List Char)
  | _, [] => none
  | true, '\r' :: '\n' :: t => (rawLiteral? false t).map fun read => ('\n' :: read.1, read.2)
  | true, c :: t =>
    (rawLiteral? false t).map fun read => ((if c = '\r' then '\n' else c) :: read.1, read.2)
  | false, c :: t =>
    if c = '\'' then some ([], t)
    else if c = '\n' ∨ c = '\r' then none
    else (rawLiteral? (c == '\\') t).map fun read => (c :: read.1, read.2)

/-- Whether a text ends in an odd number of backslashes, so that the next character is held. -/
def slashOpen (t : List Char) : Bool :=
  (t.reverse.takeWhile (· == '\\')).length % 2 == 1

theorem slashOpen_concat (t : List Char) (c : Char) :
    slashOpen (t ++ [c]) = (c == '\\' && !slashOpen t) := by
  rw [slashOpen, slashOpen, reverse_append, reverse_singleton, singleton_append, takeWhile_cons]
  by_cases slash : c = '\\'
  · have parity := Nat.mod_two_eq_zero_or_one (t.reverse.takeWhile (· == '\\')).length
    grind
  · simp [slash]

/-- Behind a front that is read already, all that would end a literal in a text is held. -/
structure HeldBehind (front text : List Char) : Prop where
  carriage : '\r' ∉ text
  held : ∀ before c behind, text = before ++ c :: behind → c = '\'' ∨ c = '\n' →
    slashOpen (front ++ before) = true
  closed : slashOpen (front ++ text) = false

theorem heldBehind_nil {pre : List Char} : HeldBehind pre [] ↔ slashOpen pre = false := by
  constructor
  · intro held
    simpa using held.closed
  · intro closed
    exact ⟨not_mem_nil, fun before c behind hs => by simp at hs, by simpa using closed⟩

theorem heldBehind_cons {pre t : List Char} {c : Char} :
    HeldBehind pre (c :: t) ↔
      c ≠ '\r' ∧ (c = '\'' ∨ c = '\n' → slashOpen pre = true) ∧ HeldBehind (pre ++ [c]) t := by
  constructor
  · rintro ⟨carriage, held, closed⟩
    refine ⟨fun hs => carriage (hs ▸ mem_cons_self), fun ends => ?_, ?_, ?_, ?_⟩
    · simpa using held [] c t rfl ends
    · exact fun hm => carriage (mem_cons_of_mem c hm)
    · intro before d behind hs ends
      simpa using held (c :: before) d behind (by rw [hs, cons_append]) ends
    · simpa using closed
  · rintro ⟨ho, hh, carriage, held, closed⟩
    refine ⟨?_, ?_, by simpa using closed⟩
    · exact fun hm => (mem_cons.mp hm).elim (fun hs => ho hs.symm) carriage
    · rintro (_ | ⟨d, before⟩) e behind hs ends
      · cases hs
        simpa using hh ends
      · cases hs
        simpa using held before e behind rfl ends

theorem map_cons_eq_some {read : Option (List Char × List Char)} {c : Char} {p tl : List Char} :
    (read.map fun parts => (c :: parts.1, parts.2)) = some (c :: p, tl) ↔ read = some (p, tl) := by
  cases read <;> simp [Prod.ext_iff]

/-- A carriage return is never read as itself. -/
theorem rawLiteral?_carriage (t p other : List Char) :
    rawLiteral? true ('\r' :: t) ≠ some ('\r' :: p, other) := by
  cases t with
  | nil => simp [rawLiteral?]
  | cons d t =>
    by_cases feed : d = '\n'
    · simp [feed, rawLiteral?]
    · simp [feed, rawLiteral?]

theorem rawLiteral?_eq_iff (pre p tl other : List Char) :
    rawLiteral? (slashOpen pre) (p ++ '\'' :: tl) = some (p, other) ↔
      other = tl ∧ HeldBehind pre p := by
  induction p generalizing pre with
  | nil =>
    rw [heldBehind_nil, nil_append]
    cases slashOpen pre
    · simp [rawLiteral?, eq_comm]
    · cases hr : rawLiteral? false tl <;> simp [rawLiteral?, hr]
  | cons c p ih =>
    have next := ih (pre ++ [c])
    rw [slashOpen_concat] at next
    rw [heldBehind_cons, cons_append]
    by_cases carriage : c = '\r'
    · refine iff_of_false ?_ fun ⟨_, other, _⟩ => other carriage
      subst carriage
      cases slashOpen pre
      · simp [rawLiteral?]
      · exact rawLiteral?_carriage _ _ _
    · cases held : slashOpen pre with
      | true =>
        rw [held, Bool.not_true, Bool.and_false] at next
        have step : rawLiteral? true (c :: (p ++ '\'' :: tl)) =
            (rawLiteral? false (p ++ '\'' :: tl)).map fun parts => (c :: parts.1, parts.2) := by
          simp [rawLiteral?, carriage]
        rw [step, map_cons_eq_some, next]
        simp [carriage]
      | false =>
        rw [held, Bool.not_false, Bool.and_true] at next
        rw [rawLiteral?]
        by_cases quote : c = '\''
        · simp [quote]
        · by_cases feed : c = '\n'
          · simp [feed]
          · rw [if_neg quote, if_neg (by simp [feed, carriage]), map_cons_eq_some, next]
            simp [carriage, quote, feed]

/-! ## Literals of a script -/

def Held (p : String) : Prop :=
  HeldBehind [] p.toList

/-- Reads the raw literals that stand behind the given pieces of text. -/
def readLiterals? : List String → List Char → Option (List String × List Char)
  | [], t => some ([], t)
  | piece :: pieces, t => do
    let (c, tl) ← (Text.after? piece.toList t).bind (rawLiteral? false)
    let (contents, tl) ← readLiterals? pieces tl
    return (String.ofList c :: contents, tl)

theorem readLiterals?_cons_eq_iff (piece p : String) (pieces paths : List String)
    (tl ending : List Char) :
    readLiterals? (piece :: pieces) (piece.toList ++ (p.toList ++ '\'' :: tl)) =
        some (p :: paths, ending) ↔
      Held p ∧ readLiterals? pieces tl = some (paths, ending) := by
  have hr := rawLiteral?_eq_iff [] p.toList tl
  change ∀ other, rawLiteral? false _ = _ ↔ _ at hr
  rw [readLiterals?, Text.after?_append, Option.bind_some, Option.bind_eq_bind,
    Option.bind_eq_some_iff]
  constructor
  · rintro ⟨⟨c, other⟩, hf, later⟩
    obtain ⟨⟨contents, last⟩, foundLater, hs⟩ := Option.bind_eq_some_iff.mp later
    obtain ⟨hn, rfl, rfl⟩ : String.ofList c = p ∧ contents = paths ∧ last = ending := by
      simpa [and_assoc] using hs
    rw [← hn, String.toList_ofList] at hr
    obtain ⟨rfl, held⟩ := (hr other).mp (by simpa [← hn] using hf)
    exact ⟨by simpa [Held, ← hn] using held, foundLater⟩
  · rintro ⟨held, foundLater⟩
    refine ⟨(p.toList, tl), (hr tl).mpr ⟨rfl, held⟩, ?_⟩
    simp [foundLater]

/-! ## The script -/

def scriptHead : String :=
  "#!/usr/bin/env python\n" ++ "# -*- coding: utf-8 -*-\n" ++
    "# Auto-generated hook runner script\n" ++ "\n" ++ "import sys\n" ++ "import os\n" ++
    "import traceback\n" ++ "\n" ++ "# Add engines directory to path\n" ++
    "sys.path.insert(0, r'" ++ applicationRoot ++ "')\n" ++ "\n" ++
    "# Import and install hooks\n" ++
    "from engines.dynamic.syscall_monitor import install_hooks\n" ++ "\n" ++
    "# Install hooks before importing target\n" ++ "install_hooks(r'"

def betweenLogs : String := ")\n" ++ "log_file = r'"

def beforeTarget : String := "\n" ++ "\n" ++ "# Now run the target file\n" ++ "target_file = r'"

theorem exists_ending (args : Value) : ∃ ending : String, ∀ tgt log : String,
    runnerScript tgt log args = scriptHead ++ (log ++ ("'" ++ (betweenLogs ++ (log ++
      ("'" ++ (beforeTarget ++ (tgt ++ ("'" ++ ending)))))))) := by
  have closed : "')\n" = "'" ++ ")\n" := rfl
  have he : "'\n" = "'" ++ "\n" := rfl
  delta runnerScript scriptHead betweenLogs beforeTarget
  simp only [closed, he, String.append_assoc, -String.reduceAppend]
  exact ⟨_, fun _ _ => rfl⟩

/--
The literals of a script are the given paths, with nothing of a path outside of its literal, exactly
when both paths are held by their literals: they have no carriage return, every quote and every line
feed in them stands behind an odd number of backslashes, and they do not end in such a number.
-/
theorem literals_eq_paths_iff_held (arguments : Value) : ∃ ending, ∀ target log : String,
    readLiterals? [scriptHead, betweenLogs, beforeTarget]
        (runnerScript target log arguments).toList = some ([log, log, target], ending) ↔
      Held log ∧ Held target := by
  obtain ⟨ending, script⟩ := exists_ending arguments
  refine ⟨ending.toList, fun target log => ?_⟩
  have quote : "'".toList = ['\''] := rfl
  simp only [script, String.toList_append, quote, singleton_append, readLiterals?_cons_eq_iff]
  simp [readLiterals?]

end SourceAudit.Monitor
