import SourceAudit.Monitor.Sandbox
import SourceAudit.Proofs.LogEntries
import SourceAudit.Proofs.StoredFiles

/-!
# Logs by queue and by file

A log goes to a queue, which keeps its entries apart, or to a file, where the entries stand one
behind the other and are cut apart again at the line ends.
-/

open List

namespace SourceAudit.Text

/-! ## Line ends -/

variable {t : List Char}

theorem unifyNewlines_cons {c : Char} (separate : c = '\r' → t.head? ≠ some '\n') :
    unifyNewlines (c :: t) = (if c = '\r' then '\n' else c) :: unifyNewlines t := by
  rw [unifyNewlines]
  rintro tl returned rfl
  exact separate returned rfl

theorem unifyNewlines_of_plain (hp : '\r' ∉ t) : unifyNewlines t = t := by
  induction t with
  | nil => rfl
  | cons c t ih =>
    rw [mem_cons, not_or] at hp
    have ho : c ≠ '\r' := Ne.symm hp.1
    rw [unifyNewlines_cons fun returned => absurd returned ho, if_neg ho, ih hp.2]

theorem notMem_unifyNewlines (t : List Char) : '\r' ∉ unifyNewlines t := by
  fun_induction unifyNewlines t with
  | case1 => exact not_mem_nil
  | case2 t ih => simp [ih]
  | case3 c t _ ih =>
    rw [mem_cons, not_or]
    refine ⟨?_, ih⟩
    split_ifs with returned
    · decide
    · exact Ne.symm returned

theorem unifyNewlines_append (pre t : List Char) :
    unifyNewlines (pre ++ '\n' :: t) = unifyNewlines (pre ++ ['\n']) ++ unifyNewlines t := by
  fun_induction unifyNewlines pre with
  | case1 => simp [unifyNewlines]
  | case2 pre ih => simp [unifyNewlines, ih]
  | case3 c pre separate ih =>
    rcases pre with _ | ⟨d, pre⟩
    · by_cases returned : c = '\r'
      -- A carriage return at the end joins the line feed behind it.
      · simp [returned, unifyNewlines]
      · simp [returned, unifyNewlines]
    · have unified (tl : List Char) : unifyNewlines (c :: d :: pre ++ tl) =
          (if c = '\r' then '\n' else c) :: unifyNewlines (d :: pre ++ tl) := by
        apply unifyNewlines_cons
        intro returned fed
        apply separate pre returned
        simpa using fed
      rw [unified, unified, ih]
      rfl

theorem exists_unifyNewlines_ended (pre : List Char) :
    ∃ t, unifyNewlines (pre ++ ['\n']) = t ++ ['\n'] ∧
      (unifyNewlines pre = t ∨ unifyNewlines pre = t ++ ['\n']) := by
  fun_induction unifyNewlines pre with
  | case1 => exact ⟨[], rfl, Or.inl rfl⟩
  | case2 pre ih =>
    obtain ⟨t, he, before⟩ := ih
    refine ⟨'\n' :: t, by simp [unifyNewlines, he], ?_⟩
    rcases before with before | before
    · exact Or.inl (by rw [before])
    · exact Or.inr (by rw [before, cons_append])
  | case3 c pre separate ih =>
    obtain ⟨t, he, before⟩ := ih
    by_cases joins : c = '\r' ∧ pre = []
    · obtain ⟨rfl, rfl⟩ := joins
      exact ⟨[], rfl, Or.inr rfl⟩
    · refine ⟨(if c = '\r' then '\n' else c) :: t, ?_, ?_⟩
      · rw [cons_append, unifyNewlines_cons, he, cons_append]
        intro returned fed
        rcases pre with _ | ⟨d, pre⟩
        · exact joins ⟨returned, rfl⟩
        · exact separate pre returned (by simpa using fed)
      · rcases before with before | before
        · exact Or.inl (by rw [before])
        · exact Or.inr (by rw [before, cons_append])

/-! ## Lines -/

theorem flatten_readLinesFrom (ln t : List Char) :
    (readLinesFrom ln t).flatten = ln.reverse ++ t := by
  induction t generalizing ln with
  | nil =>
    rw [readLinesFrom]
    split_ifs with empty
    · simp [List.isEmpty_iff.mp empty]
    · simp
  | cons c t ih =>
    rw [readLinesFrom]
    split_ifs
    · simp [ih]
    · simp [ih]

theorem flatten_readLines (t : List Char) : (readLines t).flatten = t := flatten_readLinesFrom [] t

theorem readLinesFrom_append (ln pre t : List Char) :
    readLinesFrom ln (pre ++ '\n' :: t) = readLinesFrom ln (pre ++ ['\n']) ++ readLines t := by
  induction pre generalizing ln with
  | nil => simp [readLinesFrom, readLines]
  | cons c pre ih =>
    rw [cons_append, cons_append, readLinesFrom, readLinesFrom]
    split_ifs
    · rw [ih, cons_append]
    · exact ih (c :: ln)

theorem readLines_append (pre t : List Char) :
    readLines (pre ++ '\n' :: t) = readLines (pre ++ ['\n']) ++ readLines t :=
  readLinesFrom_append [] pre t

theorem readLinesFrom_of_plain (hp : '\n' ∉ t) (ln : List Char) :
    readLinesFrom ln (t ++ ['\n']) = [ln.reverse ++ t ++ ['\n']] := by
  induction t generalizing ln with
  | nil => simp [readLinesFrom]
  | cons c t ih =>
    rw [mem_cons, not_or] at hp
    rw [cons_append, readLinesFrom, if_neg (Ne.symm hp.1), ih hp.2]
    simp

theorem readLines_ne_nil (hne : t ≠ []) : readLines t ≠ [] := by
  intro empty
  apply hne
  rw [← flatten_readLines t, empty, flatten_nil]

/-! ## Lines of a text that ends a line -/

def fileLinesOf (t : List Char) : List (List Char) :=
  readLines (unifyNewlines t)

theorem fileLinesOf_append (pre t : List Char) :
    fileLinesOf (pre ++ '\n' :: t) = fileLinesOf (pre ++ ['\n']) ++ fileLinesOf t := by
  obtain ⟨unified, he, _⟩ := exists_unifyNewlines_ended pre
  rw [fileLinesOf, unifyNewlines_append, fileLinesOf, he, append_assoc,
    singleton_append, readLines_append]
  rfl

theorem fileLinesOf_ended_ne_nil (pre : List Char) : fileLinesOf (pre ++ ['\n']) ≠ [] := by
  obtain ⟨unified, he, _⟩ := exists_unifyNewlines_ended pre
  rw [fileLinesOf, he]
  exact readLines_ne_nil (by simp)

theorem fileLinesOf_eq_singleton_iff (pre : List Char) :
    fileLinesOf (pre ++ ['\n']) = [pre ++ ['\n']] ↔ '\n' ∉ pre ∧ '\r' ∉ pre := by
  constructor
  · intro hs
    have unified : unifyNewlines (pre ++ ['\n']) = pre ++ ['\n'] := by
      rw [← flatten_readLines (unifyNewlines _), ← fileLinesOf, hs, flatten_singleton]
    have unreturned : '\r' ∉ pre := by
      intro hi
      apply notMem_unifyNewlines (pre ++ ['\n'])
      rw [unified]
      exact mem_append_left _ hi
    refine ⟨?_, unreturned⟩
    intro fed
    obtain ⟨a, b, rfl⟩ := append_of_mem fed
    rw [append_assoc, cons_append, fileLinesOf_append] at hs
    have one := congrArg List.length hs
    have before := length_pos_iff.mpr (fileLinesOf_ended_ne_nil a)
    have behind := length_pos_iff.mpr (fileLinesOf_ended_ne_nil b)
    rw [length_append, length_singleton] at one
    omega
  · rintro ⟨unfed, unreturned⟩
    rw [fileLinesOf, unifyNewlines_of_plain (by simpa using unreturned)]
    exact readLinesFrom_of_plain unfed []

end SourceAudit.Text

namespace SourceAudit.Monitor

open Outside
open SourceAudit.Text (fileLinesOf fileLinesOf_append fileLinesOf_ended_ne_nil
  fileLinesOf_eq_singleton_iff)

/-! ## Delivery entry by entry -/

def entriesOf (msgs : List (Moment × String)) : List String :=
  msgs.map fun (m, msg) => entryAt m msg

def Delivery.deliverEach (delivery : Delivery) : List String → Audit (List String)
  | [] => return []
  | e :: es => do
    let arrived ← delivery.deliver [e]
    return arrived ++ (← delivery.deliverEach es)

theorem perform_deliverEach_queue (es : List String) (s : Session) :
    (Delivery.queue.deliverEach es).perform s = (.ok es, s) := by
  induction es with
  | nil => rfl
  | cons e es ih =>
    have h1 : (Delivery.queue.deliver [e]).perform s = (.ok [e], s) := rfl
    rw [Delivery.deliverEach, Audit.perform_bind_ok h1, Audit.perform_bind_ok ih]
    rfl

section

variable {s : Session} {p : String}

variable {t : String}

theorem exists_deliver_file (holds : s.Holds p (Text.Utf8.encode t))
    (opens : s.Opens p) (e : String) :
    ∃ arrived after, ((Delivery.file p).deliver [e]).perform s = (.ok arrived, after) ∧
        after.Holds p (Text.Utf8.encode (t ++ e)) ∧ after.Opens p := by
  have joined : String.join [e] = e := by simp [String.join]
  have tried := Audit.perform_attempt (Audit.appendText p e) s
  rw [Audit.perform_appendText holds opens] at tried
  rw [Text.Utf8.encode_append]
  refine ⟨Delivery.pieces [e], _, ?_, holds.put _, opens.withFiles _⟩
  rw [Delivery.deliver, joined, Audit.perform_bind_ok tried]
  rfl

theorem exists_deliverEach_file (es : List String)
    (holds : s.Holds p (Text.Utf8.encode t)) (opens : s.Opens p) :
    ∃ arrived s', ((Delivery.file p).deliverEach es).perform s = (.ok arrived, s') ∧
        s'.Holds p (Text.Utf8.encode (t ++ String.join es)) ∧ s'.Opens p := by
  induction es generalizing s t with
  | nil =>
    refine ⟨[], s, rfl, ?_, opens⟩
    simpa using holds
  | cons e es ih =>
    obtain ⟨a, mid, delivered, held, open_⟩ := exists_deliver_file holds opens e
    obtain ⟨others, s', rest, heldAll, openAll⟩ := ih held open_
    refine ⟨a ++ others, s', ?_, ?_, openAll⟩
    · rw [Delivery.deliverEach, Audit.perform_bind_ok delivered, Audit.perform_bind_ok rest]
      rfl
    · rw [String.join_cons, ← String.append_assoc]
      exact heldAll

theorem perform_readLog (holds : s.Holds p (Text.Utf8.encode t)) (opens : s.Opens p) :
    (readLog p).perform s = (.ok ((Str.readLines (Audit.unify t)).map .text), s) := by
  rw [readLog, Audit.perform_attempt_bind (Audit.perform_readText holds opens)]
  rfl

end

/-! ## Lines of entries -/

theorem readLines_unify (t : String) :
    Str.readLines (Audit.unify t) = (fileLinesOf t.toList).map String.ofList := by
  rw [Str.readLines, Audit.unify, String.toList_ofList, fileLinesOf]

theorem exists_entry_ended (m : Moment) (msg : String) :
    ∃ pre, (entryAt m msg).toList = pre ++ ['\n'] := by
  refine ⟨'[' :: (m.milliseconds.toList ++ ']' :: ' ' :: msg.toList), ?_⟩
  rw [toList_entryAt]
  simp

theorem readLines_join_entries (msgs : List (Moment × String)) :
    Str.readLines (Audit.unify (String.join (entriesOf msgs))) =
      (entriesOf msgs).flatMap fun e => Str.readLines (Audit.unify e) := by
  induction msgs with
  | nil => rfl
  | cons msg msgs ih =>
    obtain ⟨pre, he⟩ := exists_entry_ended msg.1 msg.2
    rw [entriesOf, map_cons, flatMap_cons, ← entriesOf, ← ih, readLines_unify,
      readLines_unify, readLines_unify, String.join_cons, String.toList_append]
    dsimp only
    rw [he, append_assoc, singleton_append, fileLinesOf_append, map_append]

theorem readLines_entry_ne_nil (m : Moment) (msg : String) :
    Str.readLines (Audit.unify (entryAt m msg)) ≠ [] := by
  obtain ⟨pre, he⟩ := exists_entry_ended m msg
  rw [readLines_unify, he]
  simpa using fileLinesOf_ended_ne_nil pre

def Unbroken (msg : String) : Prop :=
  '\n' ∉ msg.toList ∧ '\r' ∉ msg.toList

theorem readLines_entry_iff {m : Moment} (clocked : m.isClocked = true) (msg : String) :
    Str.readLines (Audit.unify (entryAt m msg)) = [entryAt m msg] ↔ Unbroken msg := by
  have shape : (entryAt m msg).toList =
      ('[' :: (m.milliseconds.toList ++ ']' :: ' ' :: msg.toList)) ++ ['\n'] := by
    rw [toList_entryAt]
    simp
  have ofLists : ∀ ls : List (List Char), ls.map String.ofList = [entryAt m msg] ↔
      ls = [(entryAt m msg).toList] := by
    intro ls
    rw [← List.map_inj_right (f := String.ofList) fun _ _ hs => String.ofList_injective hs]
    simp
  have unfed := Moment.notMem_milliseconds clocked (show isStampChar '\n' = false by decide)
  have unreturned := Moment.notMem_milliseconds clocked (show isStampChar '\r' = false by decide)
  rw [readLines_unify, ofLists, shape, fileLinesOf_eq_singleton_iff, Unbroken]
  simp [unfed, unreturned]

theorem length_le_flatMap {α : Type} {cut : α → List α} {xs : List α}
    (hne : ∀ x ∈ xs, cut x ≠ []) : xs.length ≤ (xs.flatMap cut).length := by
  induction xs with
  | nil => simp
  | cons x xs ih =>
    rw [forall_mem_cons] at hne
    have h1 := length_pos_iff.mpr hne.1
    have others := ih hne.2
    rw [flatMap_cons, length_append, length_cons]
    omega

theorem flatMap_eq_self_iff {α : Type} {cut : α → List α} {xs : List α}
    (hne : ∀ x ∈ xs, cut x ≠ []) : xs.flatMap cut = xs ↔ ∀ x ∈ xs, cut x = [x] := by
  induction xs with
  | nil => simp
  | cons x xs ih =>
    rw [forall_mem_cons] at hne
    rw [flatMap_cons, forall_mem_cons]
    refine Iff.trans ?_ (and_congr_right' (ih hne.2))
    constructor
    · intro hs
      have h1 := length_pos_iff.mpr hne.1
      have others := length_le_flatMap hne.2
      have total := congrArg List.length hs
      rw [length_append, length_cons] at total
      have one : (cut x).length = [x].length := by
        rw [length_singleton]
        omega
      exact append_inj hs one
    · rintro ⟨single, others⟩
      rw [single, others]
      rfl

/--
A log file that was empty gives the lines of the entries in their order, and the same log as the
queue exactly when all messages are unbroken.
-/
theorem readLog_eq_queued_iff_unbroken {session : Session} {path : String}
    (empty : session.Holds path []) (opens : session.Opens path) (messages : List (Moment × String))
    (clocked : ∀ message ∈ messages, message.1.isClocked = true) :
    ∃ queued written after lines,
      (Delivery.queue.deliverEach (entriesOf messages)).perform session = (.ok queued, session) ∧
        ((Delivery.file path).deliverEach (entriesOf messages)).perform session =
          (.ok written, after) ∧
        (readLog path).perform after = (.ok (lines.map .text), after) ∧
        lines = queued.flatMap (fun entry => Str.readLines (Audit.unify entry)) ∧
        (lines = queued ↔ ∀ message ∈ messages, Unbroken message.2) := by
  have nothing : Text.Utf8.encode "" = [] := by simp [Text.Utf8.encode_eq]
  rw [← nothing] at empty
  obtain ⟨written, after, delivered, held, open_⟩ :=
    exists_deliverEach_file (entriesOf messages) empty opens
  rw [String.empty_append] at held
  refine ⟨entriesOf messages, written, after, _, perform_deliverEach_queue _ session, delivered,
    perform_readLog held open_, readLines_join_entries messages, ?_⟩
  rw [readLines_join_entries, flatMap_eq_self_iff]
  · simp only [entriesOf, List.forall_mem_map]
    apply forall₂_congr
    intro message logged
    exact readLines_entry_iff (clocked message logged) message.2
  · simp only [entriesOf, List.forall_mem_map]
    intro message _
    exact readLines_entry_ne_nil message.1 message.2

/-- A command of one line is one entry in the file; a command of two lines is divided. -/
theorem readLog_divides_broken_message :
    (∃ written after lines,
      ((Delivery.file "run.log").deliverEach (entriesOf [(.current, "ls")])).perform
          (.holding "run.log" []) = (.ok written, after) ∧
        (readLog "run.log").perform after = (.ok (lines.map .text), after) ∧
        lines = entriesOf [(.current, "ls")]) ∧
    ∃ written after lines,
      ((Delivery.file "run.log").deliverEach (entriesOf [(.current, "ls\nid")])).perform
          (.holding "run.log" []) = (.ok written, after) ∧
        (readLog "run.log").perform after = (.ok (lines.map .text), after) ∧
        lines = ["[2024-03-05 06:07:08.090] ls\n", "id\n"] ∧
        lines ≠ entriesOf [(.current, "ls\nid")] := by
  have empty : (Session.holding "run.log" []).Holds "run.log" [] := rfl
  have opens : (Session.holding "run.log" []).Opens "run.log" := rfl
  constructor
  · obtain ⟨queued, written, after, lines, put, delivered, read, _, same⟩ :=
      readLog_eq_queued_iff_unbroken empty opens [(.current, "ls")] (by decide)
    rw [perform_deliverEach_queue] at put
    cases put
    refine ⟨written, after, lines, delivered, read, same.mpr ?_⟩
    rw [List.forall_mem_singleton, Unbroken]
    decide
  · obtain ⟨queued, written, after, lines, put, delivered, read, cut, same⟩ :=
      readLog_eq_queued_iff_unbroken empty opens [(.current, "ls\nid")] (by decide)
    rw [perform_deliverEach_queue] at put
    cases put
    refine ⟨written, after, lines, delivered, read, ?_, fun equal => ?_⟩
    · rw [cut]
      decide
    · have unbroken := same.mp equal
      rw [List.forall_mem_singleton, Unbroken] at unbroken
      revert unbroken
      decide

end SourceAudit.Monitor
