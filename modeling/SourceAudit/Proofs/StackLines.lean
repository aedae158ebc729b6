import SourceAudit.Monitor.Fuzz
import SourceAudit.Monitor.Memory
import SourceAudit.Proofs.FileLog
import SourceAudit.Proofs.PatternContent

/-!
# Line numbers of stack frames

Every frame of a stack ends in a line number, in a log as in the errors of a run.  The patterns that
look for the numbers ask for a backslash and letters `d` in the place of digits, so nothing they find
can be read as a number.
-/

namespace SourceAudit.Pattern

/-! ## Groups that begin with a backslash -/

/-- The node ends in the group, and the group begins with a backslash. -/
def Node.endsEscaped (i : Nat) : Node → Bool
  | .seq a b => a.avoids [] && b.endsEscaped i
  | .group f (.seq (.char c .exact) body) => f == i && c == '\\' && body.avoids []
  | _ => false

theorem Node.run_of_endsEscaped {i : Nat} {nd : Node} (ends : nd.endsEscaped i = true)
    {next : Continuation} {pl r : Place} (hd : nd.run next pl = some r) :
    ∃ (opening after : Place) (tl : List Char), ReadsWithout [] pl opening ∧
      opening.rest = '\\' :: tl ∧ opening.position < after.position ∧
        next (after.record i opening.position after.position) = some r := by
  revert ends hd
  fun_induction Node.endsEscaped i nd generalizing pl with
  | case1 a b ih =>
    intro ends hd
    obtain ⟨hp, ends⟩ := Bool.and_eq_true_iff.mp ends
    obtain ⟨mid, before, later⟩ := Node.safe_run hp _ _ _ hd
    obtain ⟨opening, after, tl, reads, behind⟩ := ih ends later
    exact ⟨opening, after, tl, before.trans reads, behind⟩
  | case2 f c body =>
    intro ends hd
    simp only [Bool.and_eq_true, beq_iff_eq] at ends
    obtain ⟨⟨rfl, rfl⟩, hp⟩ := ends
    rw [Node.run, Node.run, Node.run, stepWhere] at hd
    split at hd
    · next c mid advanced =>
      split_ifs at hd with hs
      obtain rfl : '\\' = c := by simpa [Folding.same, Folding.small] using hs
      obtain ⟨after, reads, he⟩ := Node.safe_run hp _ _ _ hd
      obtain ⟨t, _, position, _⟩ := reads
      have shape : pl.rest = '\\' :: mid.rest ∧ mid.position = pl.position + 1 := by
        rw [Place.advance] at advanced
        split at advanced
        · cases advanced
        · next ahead =>
          cases advanced
          exact ⟨ahead, rfl⟩
      exact ⟨pl, after, mid.rest, .stay rfl rfl, shape.1, by omega, he⟩
    · cases hd
  | case3 =>
    intro ends
    cases ends

theorem group_eq_of_endsEscaped {pat : Pattern} {i : Nat} (numbered : i ≠ 0)
    (ends : pat.node.endsEscaped i = true) {t : List Char} {f : Match} (hl : f ∈ pat.findAll t) :
    ∃ tl, f.group i = String.ofList ('\\' :: tl) := by
  obtain ⟨pl, nonEmpty, hi, matched⟩ := exists_matchAt_of_findFrom (Place.isIn_start t) hl
  obtain ⟨r, ran, rfl⟩ := exists_run_of_matchAt matched
  obtain ⟨opening, after, tl, reads, begins, wide, accepted⟩ := Node.run_of_endsEscaped ends ran
  split_ifs at accepted
  cases accepted
  have ht : t.drop opening.position = '\\' :: tl := by
    have hi : opening.IsIn t := Place.IsIn.after hi reads
    rw [← begins, ← hi]
  obtain ⟨width, hc⟩ : ∃ width, after.position - opening.position = width + 1 :=
    ⟨after.position - opening.position - 1, by omega⟩
  exact ⟨tl.take width, by
    simp [Match.group, Match.group?, Match.span?, Place.record, numbered, ht, hc]⟩

theorem readInteger_escaped (tl : List Char) :
    Value.readInteger (String.ofList ('\\' :: tl)) = none := by
  rw [Value.readInteger, String.toList_ofList, Text.trim_cons_of_solid (by decide)]
  rfl

theorem readInteger_group {pat : Pattern} {i : Nat} (numbered : i ≠ 0)
    (ends : pat.node.endsEscaped i = true) (t : List Char) :
    ((pat.findAll t).filterMap fun f => Value.readInteger (f.group i)) = [] := by
  refine List.filterMap_eq_nil_iff.mpr fun f hl => ?_
  obtain ⟨tl, escaped⟩ := group_eq_of_endsEscaped numbered ends hl
  rw [escaped, readInteger_escaped]

end SourceAudit.Pattern

namespace SourceAudit.Monitor

open Outside
open SourceAudit.Pattern (Pattern)

/-! ## Logs -/

theorem frameLines_eq_nil (ln : String) : frameLines ln = [] := by
  rw [frameLines]
  split
  · exact Pattern.readInteger_group (by decide) (by decide +kernel) ln.toList
  · rfl

/-- A frame of a stack, in a file with an absolute path. -/
structure Frame where
  path : String
  line : Nat
  absolute : Str.startsWith "/" path = true
  uncoloned : ':' ∉ path.toList

def Frame.text (frame : Frame) : String :=
  frame.path ++ ":" ++ toString frame.line

/-- The frames as a log has them. -/
def stackOf (frames : List Frame) : String :=
  Str.join " -> " (frames.map (·.text))

theorem occurs_append {w head : String} (told : Str.occurs w head = true) (tail : String) :
    Str.occurs w (head ++ tail) = true := by
  rw [Str.occurs, String.toList_append]
  exact Text.occurs_append told _

theorem exists_memoryFindings {c : String}
    (told : Str.occurs codeMark c = true ∨ Str.occurs memoryMark c = true) :
    ∃ fnd, memoryFindings [.text c] = [fnd] ∧ fnd.lines = [] := by
  have marked : (Str.occurs codeMark c || Str.occurs memoryMark c) = true :=
    Bool.or_eq_true_iff.mpr told
  rw [memoryFindings, Value.holdsWord, Value.holdsWord]
  dsimp only
  rw [if_pos marked]
  exact ⟨_, rfl, frameLines_eq_nil c⟩

/-! ## Errors of a run -/

theorem eq_nil_of_tracebackLines {errors : Value} {ls : List Int}
    (hr : tracebackLines errors = .ok ls) : ls = [] := by
  unfold tracebackLines at hr
  split at hr
  · split at hr
    · next c _ =>
      rw [← Except.ok.inj hr]
      exact Pattern.readInteger_group (by decide) (by decide +kernel) c.toList
    · cases hr
  · exact (Except.ok.inj hr).symm

/-- A record of a run that has no line numbers in it. -/
def Unlined (record : Value) : Prop :=
  record.lookup? "line_numbers" = none ∨ record.lookup? "line_numbers" = some (.list [])

theorem yields_fuzzOnce (p lim mode : Value) (sandboxed : Bool) (input : String) :
    Audit.Yields (fuzzOnce p lim mode sandboxed input) Unlined := by
  cases sandboxed
  -- the two ways to run a program differ only in what is known of its network use
  all_goals
    refine .after fun run => .after fun crashed => .bind (.ofOutcome _) fun ls hr =>
      .after fun activities s record after hd => ?_
    obtain ⟨errors, _, traced⟩ := Outcome.bind_eq_ok.mp hr
    rw [eq_nil_of_tracebackLines traced, Audit.perform_ofOutcome] at hd
    have made := congrArg Prod.fst hd
    simp only [Outcome.bind_eq_ok] at made
    obtain ⟨_, _, _, _, _, _, _, _, _, _, _, _, made⟩ := made
    cases made
    exact .inr (by simp [Value.lookup?, Value.field?, Value.ofInts])

theorem unlined_failedRun (input : String) (err : Fault) : Unlined (failedRun input err) :=
  .inl (by simp [failedRun, Value.lookup?, Value.field?])

theorem yields_fuzz (p : Value) (n : Int) (lim mode : Value) (sandboxed : Bool) :
    Audit.Yields (fuzz p n lim mode sandboxed) fun records =>
      ∀ record ∈ records, Unlined record := by
  have one (input : String) : Audit.Yields (Audit.orElse (fuzzOnce p lim mode sandboxed input)
      fun err => return failedRun input err) Unlined := by
    refine .bind (.attempt (yields_fuzzOnce p lim mode sandboxed input)) fun out fine => ?_
    cases out with
    | ok record => exact .pure (fine record rfl)
    | error err => exact .pure (unlined_failedRun input err)
  exact .after (.mapM one)

/-! ## What is lost -/

/-- However many frames a stack has, neither the record of an alert nor the record of a file operation
holds a line number, and no record of a fuzzed run ever does. -/
theorem stack_lines_are_lost {frames : List Frame} (used : frames ≠ []) (session : Session) :
    frames.map Frame.line ≠ [] ∧
      (∀ head, Str.occurs codeMark head = true ∨ Str.occurs memoryMark head = true →
        ∃ finding, (analyzeMemory (.list [.text (head ++ (stackMark ++ stackOf frames))])).perform
            session = (.ok [finding], session) ∧ finding.lines = []) ∧
        (∀ operation path mode, ∀ moment : Moment, operation ∈ ["read", "write", "delete"] →
          moment.isClocked = true →
            ([path, mode, stackOf frames].any fun part => Str.occurs "FILE" part) = false →
              ∃ activity, (analyzeFiles (.list [.text (entryAt moment
                  (fileText operation path mode (stackOf frames)))])).perform session =
                (.ok [activity], session) ∧ activity.lines = []) ∧
          ∀ path count limit mode sandboxed records after,
            (fuzz path count limit mode sandboxed).perform session = (.ok records, after) →
              ∀ record ∈ records, Unlined record := by
  refine ⟨by simpa using used, fun head told => ?_, fun operation path mode moment known clocked
    unworded => ?_, fun path count limit mode sandboxed records after done =>
      yields_fuzz path count limit mode sandboxed session records after done⟩
  · obtain ⟨finding, found, lost⟩ := exists_memoryFindings
      (told.imp (occurs_append · (stackMark ++ stackOf frames)) (occurs_append · _))
    exact ⟨finding, by rw [← found]; rfl, lost⟩
  · obtain ⟨first, others, titled⟩ := exists_titled known
    rw [perform_analyzeFiles_entry titled, fileActivity?_entry clocked titled, unworded,
      if_neg Bool.false_ne_true]
    exact ⟨_, rfl, frameLines_eq_nil _⟩

def twoFrames : List Frame :=
  [⟨"/a.py", 3, by decide, by decide⟩, ⟨"/b.py", 5, by decide, by decide⟩]

theorem stack_lines_are_lost_of_two : stackOf twoFrames = "/a.py:3 -> /b.py:5" ∧
    twoFrames.map Frame.line = [3, 5] ∧
      ∃ finding, (analyzeMemory (.list [.text ("[ALERT] MEMORY: x" ++ (stackMark ++
          stackOf twoFrames))])).perform (.holding "" []) = (.ok [finding], .holding "" []) ∧
        finding.lines = [] :=
  ⟨by decide +kernel, rfl, (@stack_lines_are_lost twoFrames (by simp [twoFrames]) _).2.1
    "[ALERT] MEMORY: x" (.inr (by decide +kernel))⟩

end SourceAudit.Monitor
