import SourceAudit.Proofs.Computation
import SourceAudit.Proofs.PathParts
import Mathlib.Data.List.Basic

/-!
# The nearest marked directory

The search climbs from a directory to the one above it until one holds a marker or there is none
above. The climb passes through the directories whose parts begin the parts of the first, the longest
first, so what it finds is the deepest one.
-/

open List

namespace SourceAudit.Path

/-- The path itself and the directories above it. -/
inductive Above (p : String) : String → Prop where
  | self : Above p p
  | up {dir : String} (above : Above p dir) : Above p (directory dir)

variable {p dir start : String} {names : List String}

/-! ## Climbing -/

theorem Above.trans {top : String} (h1 : Above p dir) (h2 : Above dir top) : Above p top := by
  induction h2 with
  | self => exact h1
  | up _ ih => exact ih.up

theorem ancestors_of_top (top : directory p = p) : ancestors p = [p] := by
  rw [ancestors, if_pos top]

theorem ancestors_of_climbs (climbs : directory p ≠ p) :
    ancestors p = p :: ancestors (directory p) := by
  rw [ancestors, if_neg climbs]

theorem above_of_mem_ancestors (hm : dir ∈ ancestors p) : Above p dir := by
  fun_induction ancestors p with
  | case1 p top =>
    rw [mem_singleton.mp hm]
    exact .self
  | case2 p further ih =>
    rcases mem_cons.mp hm with rfl | hm
    · exact .self
    · exact Above.self.up.trans (ih hm)

/-- From every directory that the climb meets on it is the climb from that directory. -/
theorem ancestors_of_append {before after : List String}
    (met : ancestors p = before ++ dir :: after) : dir :: after = ancestors dir := by
  fun_induction ancestors p generalizing before with
  | case1 p top =>
    cases before with
    | nil =>
      obtain ⟨rfl, rfl⟩ := cons.inj met
      exact (ancestors_of_top top).symm
    | cons first before => simp at met
  | case2 p further ih =>
    cases before with
    | nil =>
      obtain ⟨rfl, rfl⟩ := cons.inj met
      exact (ancestors_of_climbs further).symm
    | cons first before => exact ih (cons.inj met).2

theorem mem_ancestors_self (p : String) : p ∈ ancestors p := by
  rw [ancestors]
  split <;> exact mem_cons_self

theorem mem_ancestors_iff : dir ∈ ancestors p ↔ Above p dir := by
  refine ⟨above_of_mem_ancestors, fun above => ?_⟩
  induction above with
  | self => exact mem_ancestors_self p
  | @up dir _ ih =>
    obtain ⟨before, after, met⟩ := append_of_mem ih
    rw [met, ancestors_of_append met, mem_append]
    right
    rw [ancestors]
    split
    · next top => exact mem_singleton.mpr top
    · exact mem_cons_of_mem dir (mem_ancestors_self _)

/-- A directory is shorter than what it holds, so the climb comes to one that is its own. -/
theorem exists_top (p : String) : ∃ top, Above p top ∧ directory top = top := by
  fun_induction ancestors p with
  | case1 p top => exact ⟨p, .self, top⟩
  | case2 p further ih =>
    obtain ⟨top, above, own⟩ := ih
    exact ⟨top, Above.self.up.trans above, own⟩

/-! ## Climbing part by part -/

/-- The name stands behind the last slash, and the slashes before it go, except at the root. -/
theorem toList_directory (pre : List Char) {nm : List Char} (shape : p.toList = pre ++ '/' :: nm)
    (unslashed : '/' ∉ nm) : (directory p).toList =
      if pre.all (· == '/') then pre ++ ['/'] else Text.trimRightWith (· == '/') pre := by
  have named : ∀ c ∈ nm.reverse, (c != '/') = true := by
    intro c hm
    rw [bne_iff_ne]
    rintro rfl
    exact unslashed (mem_reverse.mp hm)
  have head : (p.toList.reverse.dropWhile (· != '/')).reverse = pre ++ ['/'] := by
    rw [shape, reverse_append, reverse_cons, append_assoc, dropWhile_append_of_pos named]
    simp
  rw [directory, split, String.toList_ofList, head, all_append]
  by_cases rooted : pre.all (· == '/') = true
  · simp [rooted]
  · simp [rooted, Text.trimRightWith]

theorem exists_last_intercalate (hn : ∀ x ∈ names, '/' ∉ x.toList ∧ x ≠ "") (hne : names ≠ []) :
    ∃ before c, ("/".intercalate names).toList = before ++ [c] ∧ c ≠ '/' := by
  obtain ⟨front, nm, rfl⟩ := (eq_nil_or_concat' names).resolve_left hne
  obtain ⟨unslashed, filled⟩ := hn nm (mem_append_right front mem_cons_self)
  rw [ne_eq, ← String.toList_eq_nil_iff] at filled
  have last : nm.toList.getLast filled ≠ '/' := fun slash => unslashed (slash ▸ getLast_mem filled)
  by_cases alone : front = []
  · refine ⟨nm.toList.dropLast, _, ?_, last⟩
    rw [alone, nil_append, String.intercalate_singleton, dropLast_append_getLast]
  · refine ⟨("/".intercalate front ++ "/").toList ++ nm.toList.dropLast, _, ?_, last⟩
    rw [String.intercalate_append_of_ne_nil alone (cons_ne_nil nm []), String.intercalate_singleton,
      String.toList_append, append_assoc, dropLast_append_getLast]

/-- Above a directory stands the one without the last name, and the root stands above itself. -/
theorem directory_slashed (slashed : start = "//" ∨ start = "/")
    (hn : ∀ x ∈ names, '/' ∉ x.toList ∧ x ≠ "") :
    directory (start ++ "/".intercalate names) = start ++ "/".intercalate names.dropLast := by
  rcases eq_nil_or_concat' names with rfl | ⟨front, nm, rfl⟩
  · rcases slashed with rfl | rfl <;> decide
  · have unslashed := (hn nm (mem_append_right front mem_cons_self)).1
    rw [dropLast_concat, ← String.toList_inj]
    by_cases alone : front = []
    · rw [alone, nil_append, String.intercalate_singleton, String.intercalate_nil,
        String.append_empty]
      rcases slashed with rfl | rfl
      · exact toList_directory ['/'] String.toList_append unslashed
      · exact toList_directory [] String.toList_append unslashed
    · obtain ⟨before, c, shape, last⟩ :=
        exists_last_intercalate (fun x hm => hn x (mem_append_left _ hm)) alone
      have whole : (start ++ "/".intercalate (front ++ [nm])).toList =
          (start.toList ++ (before ++ [c])) ++ '/' :: nm.toList := by
        rw [String.intercalate_append_of_ne_nil alone (cons_ne_nil nm []), ← shape]
        simp
      rw [toList_directory _ whole unslashed, String.toList_append, shape]
      simp [last, Text.trimRightWith]

/-- The directories above a path are those whose names begin its names. -/
theorem above_slashed_iff (slashed : start = "//" ∨ start = "/")
    (hn : ∀ x ∈ names, '/' ∉ x.toList ∧ x ≠ "") (dir : String) :
    Above (start ++ "/".intercalate names) dir ↔
      ∃ shorter, shorter <+: names ∧ dir = start ++ "/".intercalate shorter := by
  constructor
  · intro above
    induction above with
    | self => exact ⟨names, prefix_refl names, rfl⟩
    | up _ ih =>
      obtain ⟨shorter, begins, rfl⟩ := ih
      have less : shorter.dropLast <+: shorter := dropLast_prefix shorter
      refine ⟨shorter.dropLast, less.trans begins, ?_⟩
      exact directory_slashed slashed fun x hm => hn x (begins.subset hm)
  · rintro ⟨shorter, ⟨tl, rfl⟩, rfl⟩
    -- the names behind the shorter path are left out one by one, the last first
    induction tl using List.reverseRecOn with
    | nil =>
      rw [append_nil]
      exact .self
    | append_singleton tl x ih =>
      rw [← append_assoc] at hn ⊢
      have step := directory_slashed slashed hn
      rw [dropLast_concat] at step
      have above := ih fun y hm => hn y (mem_append_left _ hm)
      exact (step ▸ Above.self.up).trans above

theorem exists_absolute_eq {here : String} (rooted : isAbsolute here = true) (p : String) :
    ∃ slashes, (slashes = "//" ∨ slashes = "/") ∧
      absolute here p = slashes ++ "/".intercalate (parts (absolute here p)) := by
  have filled : here ≠ "" := by
    rintro rfl
    cases rooted
  have full : isAbsolute (if isAbsolute p then p else join here p) = true := by
    rw [join]
    split_ifs with already slashed
    · exact already
    · rw [isAbsolute_append filled, rooted]
    · rw [String.append_assoc, isAbsolute_append filled, rooted]
  refine ⟨_, slashesOf_absolute full, ?_⟩
  rw [absolute, parts_normalize, normalize_absolute full]

end SourceAudit.Path

namespace SourceAudit.Outside

open SourceAudit.Path (Above)

/-- Something is stored at the path. -/
def Session.Has (s : Session) (p : String) : Prop :=
  ∃ e, (Audit.lookup p).perform s = (.ok (some e), s)

/-- One of the markers is stored in the directory. -/
def Session.Marked (s : Session) (markers : List String) (dir : String) : Prop :=
  ∃ marker ∈ markers, s.Has (Path.join dir marker)

namespace Audit

variable {α : Type} {s : Session}

theorem perform_anyM {test : α → Audit Bool} {passes : α → Bool}
    (run : ∀ x, (test x).perform s = (.ok (passes x), s)) (xs : List α) :
    (xs.anyM test).perform s = (.ok (xs.any passes), s) := by
  induction xs with
  | nil => rfl
  | cons x tl ih =>
    refine (perform_bind_ok (run x)).trans ?_
    rw [any_cons]
    cases passes x with
    | true => rfl
    | false => exact ih

theorem perform_findM? {test : α → Audit Bool} {passes : α → Bool}
    (run : ∀ x, (test x).perform s = (.ok (passes x), s)) (xs : List α) :
    (xs.findM? test).perform s = (.ok (xs.find? passes), s) := by
  induction xs with
  | nil => rfl
  | cons x tl ih =>
    refine (perform_bind_ok (run x)).trans ?_
    rw [find?_cons]
    cases passes x with
    | true => rfl
    | false => exact ih

open Classical in
theorem perform_exists?_eq (s : Session) (p : String) :
    (exists? p).perform s = (.ok (decide (s.Has p)), s) := by
  have looked : ∃ e, (lookup p).perform s = (.ok e, s) := by
    rw [lookup, perform_get_bind]
    split
    · exact ⟨none, rfl⟩
    · split <;> exact ⟨_, rfl⟩
  obtain ⟨e, looked⟩ := looked
  have has : s.Has p ↔ e.isSome = true := by
    rw [Session.Has, looked, Option.isSome_iff_exists]
    simp
  rw [perform_exists? looked, Bool.eq_iff_iff.mpr (has.symm.trans decide_eq_true_iff.symm)]

open Classical in
theorem perform_nearestMarked (s : Session) (start : String) (markers : List String) :
    (nearestMarked start markers).perform s =
      (.ok (((Path.ancestors (Path.absolute s.here start)).find? fun dir =>
        decide (s.Marked markers dir)).getD (Path.absolute s.here start)), s) := by
  have marks (dir : String) : (markers.anyM fun marker => exists? (Path.join dir marker)).perform s =
      (.ok (decide (s.Marked markers dir)), s) := by
    have any : (markers.any fun marker => decide (s.Has (Path.join dir marker))) =
        decide (s.Marked markers dir) := by
      rw [Bool.eq_iff_iff, any_eq_true, decide_eq_true_iff]
      simp only [decide_eq_true_iff, Session.Marked]
    rw [perform_anyM fun marker => perform_exists?_eq s (Path.join dir marker), any]
  exact (perform_bind_ok rfl).trans ((perform_bind_ok (perform_findM? marks _)).trans rfl)

end Audit

/--
The climb from the full path of the start comes to a directory that is above itself.  The search
changes nothing and yields the deepest directory of the climb that holds a marker; if there is none,
it yields the full path of the start.  Where the working directory is a full path, the climb meets
exactly the directories whose parts begin the parts of the start.
-/
theorem nearestMarked_deepest (session : Session) (start : String) (markers : List String) :
    let own := Path.absolute session.here start
    (∃ top, Above own top ∧ Path.directory top = top) ∧
      (∃ root, (Audit.nearestMarked start markers).perform session = (.ok root, session) ∧
        (Above own root ∧ session.Marked markers root ∧
            (∀ dir, Above own dir → session.Marked markers dir → Above root dir) ∨
          root = own ∧ ∀ dir, Above own dir → ¬session.Marked markers dir)) ∧
        (Path.isAbsolute session.here = true → ∃ slashes, (slashes = "//" ∨ slashes = "/") ∧
          ∀ dir, Above own dir ↔
            ∃ shorter, shorter <+: Path.parts own ∧ dir = slashes ++ "/".intercalate shorter) := by
  classical
  intro own
  refine ⟨Path.exists_top own, ⟨_, Audit.perform_nearestMarked session start markers, ?_⟩, ?_⟩
  · rcases search : (Path.ancestors own).find? fun dir => decide (session.Marked markers dir) with
      _ | root
    · refine .inr ⟨rfl, fun dir above marked => ?_⟩
      have passed := find?_eq_none.mp search dir (Path.mem_ancestors_iff.mpr above)
      exact passed (decide_eq_true marked)
    · obtain ⟨marked, before, after, met, unmarked⟩ := find?_eq_some_iff_append.mp search
      have above : Above own root := Path.mem_ancestors_iff.mp (met ▸ mem_append_right _ mem_cons_self)
      refine .inl ⟨above, of_decide_eq_true marked, fun dir climbed has => ?_⟩
      rw [← Path.mem_ancestors_iff, met, mem_append] at climbed
      rcases climbed with below | behind
      · have passed := unmarked dir below
        simp [has] at passed
      · rw [Path.ancestors_of_append met] at behind
        exact Path.mem_ancestors_iff.mp behind
  · intro rooted
    obtain ⟨slashes, slashed, shape⟩ := Path.exists_absolute_eq rooted start
    refine ⟨slashes, slashed, fun dir => ?_⟩
    have names := Path.above_slashed_iff slashed (fun _ => Path.mem_parts (p := own)) dir
    rwa [← shape] at names

end SourceAudit.Outside
