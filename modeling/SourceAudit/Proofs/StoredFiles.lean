import SourceAudit.Proofs.Effects
import SourceAudit.Proofs.PathNames
import SourceAudit.Proofs.Utf8RoundTrip
import Mathlib.Tactic.SplitIfs

/-!
# Stored files

What writing does to the files of a session. `Holds` says that a path names a file with the given
content; a text that is written or appended is held afterwards, and a held text is read back with
its line ends unified.
-/

open List

namespace SourceAudit.Store

variable {store : Store} {p other : List String} {e : Entry}

theorem at?_put (inner : p ≠ []) : (store.put p e).at? p = some e := by
  simp [Store.at?, Store.put, inner]

theorem at?_put_of_ne (differs : other ≠ p) : (store.put p e).at? other = store.at? other := by
  rw [Store.at?, Store.at?, Store.put]
  split_ifs
  · rfl
  · rw [find?_cons_of_neg (by simpa using differs.symm), find?_filter]
    congr 2
    funext old
    by_cases hs : old.1 = other
    · simp [hs, differs]
    · simp [hs]

def makeStep (p : List String) (store : Store) (n : Nat) : Store :=
  match store.at? (p.take (n + 1)) with
  | some _ => store
  | none => store.put (p.take (n + 1)) .directory

theorem makeAll_eq (store : Store) (p : List String) :
    store.makeAll p = (List.range p.length).foldl (makeStep p) store :=
  rfl

theorem at?_makeAll {c : List UInt8} (ht : store.at? other = some (.file c))
    (p : List String) : (store.makeAll p).at? other = some (.file c) := by
  rw [makeAll_eq]
  generalize List.range p.length = counts
  induction counts generalizing store with
  | nil => exact ht
  | cons n counts ih =>
    rw [foldl_cons]
    apply ih
    rw [makeStep]
    split
    · exact ht
    · next absent =>
      have differs : other ≠ p.take (n + 1) := by
        rintro rfl
        rw [absent] at ht
        cases ht
      rw [at?_put_of_ne differs]
      exact ht

theorem at?_foldl_makeStep (p : List String) {counts : List Nat}
    (apart : ∀ n ∈ counts, other ≠ p.take (n + 1)) :
    (counts.foldl (makeStep p) store).at? other = store.at? other := by
  induction counts generalizing store with
  | nil => rfl
  | cons n counts ih =>
    obtain ⟨differs, others⟩ := forall_mem_cons.mp apart
    rw [foldl_cons, ih others, makeStep]
    split
    · rfl
    · exact at?_put_of_ne differs

theorem at?_makeAll_of_longer (longer : p.length < other.length) :
    (store.makeAll p).at? other = store.at? other := by
  rw [makeAll_eq]
  apply at?_foldl_makeStep
  rintro n _ rfl
  rw [length_take] at longer
  omega

theorem at?_makeAll_self (hmiss : store.at? p = none) :
    (store.makeAll p).at? p = some .directory := by
  have inner : p ≠ [] := by
    rintro rfl
    cases hmiss
  obtain ⟨length, hc⟩ := Nat.exists_eq_succ_of_ne_zero (mt length_eq_zero_iff.mp inner)
  have whole : p.take (length + 1) = p := take_of_length_le (Nat.le_of_eq hc)
  have above : ∀ n ∈ List.range length, p ≠ p.take (n + 1) := by
    intro n within hs
    have shorter := congrArg List.length hs
    rw [length_take, hc] at shorter
    have below := mem_range.mp within
    omega
  rw [makeAll_eq, hc, range_succ, foldl_append, foldl_cons, foldl_nil,
    makeStep, whole, at?_foldl_makeStep p above, hmiss]
  exact at?_put inner

end SourceAudit.Store

namespace SourceAudit.Outside

open SourceAudit.Text

def Session.Holds (s : Session) (p : String) (c : List UInt8) : Prop :=
  (Audit.lookup p).perform s = (.ok (some (.file c)), s)

def Session.Opens (s : Session) (p : String) : Prop :=
  (Audit.checkOpen p).perform s = (.ok (), s)

structure Session.Admits (session : Session) (directory : String) : Prop where
  filled : directory ≠ ""
  unzeroed : Audit.holdsZero directory = false
  room : session.files.at? (Audit.key session directory) = some .directory ∨
    session.files.at? (Audit.key session directory) = none ∧
      Audit.belowFile session (Audit.key session directory) = false

structure Session.Made (session : Session) (files : Store) (directory : String) : Prop where
  there : files.at? (Audit.key session directory) = some .directory
  deeper : ∀ other : List String, (Audit.key session directory).length < other.length →
    files.at? other = session.files.at? other

namespace Session

variable {s : Session} {p : String} {c : List UInt8}

theorem holds_iff :
    s.Holds p c ↔
      p.isEmpty = false ∧ Audit.holdsZero p = false ∧ p.toList.getLast? ≠ some '/' ∧
        s.files.at? (Audit.key s p) = some (.file c) := by
  rw [Holds, Audit.lookup, Audit.perform_get_bind, Audit.holdsZero]
  split
  · next unusable =>
    rw [Bool.or_eq_true] at unusable
    constructor
    · intro hf
      cases hf
    · rintro ⟨hn, writable, _⟩
      rcases unusable with empty | zero
      · rw [hn] at empty
        cases empty
      · rw [writable] at zero
        cases zero
  · next usable =>
    rw [Bool.or_eq_true, not_or, Bool.not_eq_true, Bool.not_eq_true] at usable
    split
    · next held ht =>
      by_cases slashed : p.toList.getLast? = some '/'
      · simp [slashed]
      · rw [if_neg (by simpa using slashed), Audit.perform_pure, ht]
        simp only [usable, slashed, Prod.mk.injEq, Except.ok.injEq, and_true, true_and, ne_eq,
          not_false_eq_true]
    · next absent =>
      rw [Audit.perform_pure, Prod.mk.injEq, Except.ok.injEq]
      constructor
      · rintro ⟨ht, _⟩
        exact absurd ht (absent c)
      · rintro ⟨_, _, _, ht⟩
        exact absurd ht (absent c)

theorem opens_iff : s.Opens p ↔ (s.script.openFaults.find? fun e => e.1 == p) = none := by
  rw [Opens, Audit.checkOpen, Audit.perform_get_bind]
  split
  · next hf => simp [hf]
  · next hmiss => exact ⟨fun _ => hmiss, fun _ => rfl⟩

theorem Opens.withFiles (opens : s.Opens p) (files : Store) : { s with files }.Opens p := by
  have unprepared := opens_iff.mp opens
  exact opens_iff.mpr unprepared

theorem Holds.ne_nil (holds : s.Holds p c) : Audit.key s p ≠ [] := by
  intro rooted
  have ht := (holds_iff.mp holds).2.2.2
  rw [rooted] at ht
  cases ht

theorem Holds.put (holds : s.Holds p c) (other : List UInt8) :
    { s with
      files := s.files.put (Audit.key s p) (.file other) }.Holds p other := by
  obtain ⟨hn, writable, unslashed, _⟩ := holds_iff.mp holds
  exact holds_iff.mpr ⟨hn, writable, unslashed, Store.at?_put holds.ne_nil⟩

structure Keeps (session after : Session) : Prop where
  here : after.here = session.here
  files : ∀ path content, session.files.at? path = some (.file content) →
    after.files.at? path = some (.file content)

theorem Keeps.refl (s : Session) : s.Keeps s := { here := rfl, files := fun _ _ ht => ht }

theorem Keeps.trans {a b third : Session} (one : a.Keeps b)
    (two : b.Keeps third) : a.Keeps third where
  here := two.here.trans one.here
  files p c ht := two.files p c (one.files p c ht)

theorem Holds.keep {s' : Session} (holds : s.Holds p c) (keeps : s.Keeps s') : s'.Holds p c := by
  obtain ⟨hn, writable, unslashed, ht⟩ := holds_iff.mp holds
  have hs : Audit.key s' p = Audit.key s p := by
    rw [Audit.key, Audit.key, keeps.here]
  refine holds_iff.mpr ⟨hn, writable, unslashed, ?_⟩
  rw [hs]
  exact keeps.files _ _ ht

end Session

namespace Audit

variable {s : Session} {p : String} {c : List UInt8}

theorem perform_checkWritable_of_holds (holds : s.Holds p c) :
    (checkWritable p).perform s = (.ok (), s) := by
  obtain ⟨hn, writable, _, ht⟩ := Session.holds_iff.mp holds
  rw [checkWritable, perform_get_bind]
  dsimp only
  rw [hn, writable, ht]
  rfl

variable {s' : Session}

theorem usable_of_checkWritable (hchk : (checkWritable p).perform s = (.ok (), s')) :
    p.isEmpty = false ∧ holdsZero p = false := by
  rw [checkWritable, perform_get_bind] at hchk
  dsimp only at hchk
  by_cases empty : p.isEmpty = true
  · rw [if_pos empty] at hchk
    cases hchk
  · rw [if_neg empty] at hchk
    by_cases zero : holdsZero p = true
    · rw [if_pos zero] at hchk
      cases hchk
    · exact ⟨Bool.eq_false_iff.mpr empty, Bool.eq_false_iff.mpr zero⟩

theorem perform_checkWritable (hfl : p.isEmpty = false) (unzeroed : holdsZero p = false)
    (parent : s.files.at? ((key s p).take ((key s p).length - 1)) = some .directory)
    (free : s.files.at? (key s p) ≠ some .directory) :
    (checkWritable p).perform s = (.ok (), s) := by
  rw [checkWritable, perform_get_bind]
  dsimp only
  rw [hfl, unzeroed, parent]
  cases ht : s.files.at? (key s p) with
  | none => rfl
  | some e =>
    cases e with
    | directory => exact absurd ht free
    | file c => rfl

theorem free_of_checkWritable (hchk : (checkWritable p).perform s = (.ok (), s')) :
    s.files.at? (key s p) ≠ some .directory := by
  intro taken
  obtain ⟨hfl, unzeroed⟩ := usable_of_checkWritable hchk
  rw [checkWritable, perform_get_bind] at hchk
  dsimp only at hchk
  rw [hfl, unzeroed, taken] at hchk
  cases hchk

theorem keeps_withDirectories (s : Session) (p : List String) :
    s.Keeps { s with files := s.files.makeAll p } where
  here := rfl
  files _ _ ht := Store.at?_makeAll ht p

theorem keeps_makeDirectories (p : String) (s : Session) :
    s.Keeps ((makeDirectories p).perform s).2 := by
  rw [makeDirectories]
  split
  · exact .refl s
  · split
    · exact .refl s
    · rw [perform_get_bind]
      dsimp only
      split
      · exact .refl s
      · exact .refl s
      · split
        · exact .refl s
        · exact keeps_withDirectories s (key s p)

theorem perform_makeDirectories_present (admits : s.Admits p)
    (ht : s.files.at? (key s p) = some .directory) :
    (makeDirectories p).perform s = (.ok (), s) := by
  have hfl : p.isEmpty = false := Path.isEmpty_eq_false admits.filled
  rw [makeDirectories, hfl, admits.unzeroed, if_neg Bool.false_ne_true,
    if_neg Bool.false_ne_true, perform_get_bind]
  dsimp only
  rw [ht]
  rfl

theorem perform_makeDirectories_missing (admits : s.Admits p)
    (hmiss : s.files.at? (key s p) = none) :
    (makeDirectories p).perform s = (.ok (), { s with files := s.files.makeAll (key s p) }) := by
  have hfl : p.isEmpty = false := Path.isEmpty_eq_false admits.filled
  have clear : belowFile s (key s p) = false := by
    rcases admits.room with ht | ⟨_, clear⟩
    · rw [hmiss] at ht
      cases ht
    · exact clear
  rw [makeDirectories, hfl, admits.unzeroed, if_neg Bool.false_ne_true,
    if_neg Bool.false_ne_true, perform_get_bind]
  dsimp only
  rw [hmiss, clear]
  rfl

theorem perform_makeDirectories (admits : s.Admits p) :
    ∃ files, (makeDirectories p).perform s = (.ok (), { s with files }) ∧ s.Made files p := by
  rcases admits.room with ht | ⟨hmiss, _⟩
  · exact ⟨_, perform_makeDirectories_present admits ht, ht, fun _ _ => rfl⟩
  · exact ⟨_, perform_makeDirectories_missing admits hmiss, Store.at?_makeAll_self hmiss,
      fun _ => Store.at?_makeAll_of_longer⟩

theorem perform_makeDirectories_of_not (unfit : ¬ s.Admits p) :
    ∃ err, (makeDirectories p).perform s = (.error err, s) := by
  rw [makeDirectories]
  split
  · exact ⟨_, rfl⟩
  · next hfl =>
    split
    · exact ⟨_, rfl⟩
    · next unzeroed =>
      have given : p ≠ "" := by
        rintro rfl
        exact hfl rfl
      have admitted := unfit ∘ Session.Admits.mk given (Bool.eq_false_iff.mpr unzeroed)
      rw [perform_get_bind]
      dsimp only
      split
      · exact ⟨_, rfl⟩
      · next ht => exact absurd (Or.inl ht) admitted
      · next hmiss =>
        split
        · exact ⟨_, rfl⟩
        · next clear => exact absurd (Or.inr ⟨hmiss, Bool.eq_false_iff.mpr clear⟩) admitted

theorem perform_writeText (p c : String) (s : Session) :
    (∃ err, (writeText p c).perform s = (.error err, s)) ∨
      p.isEmpty = false ∧ holdsZero p = false ∧
        ∃ ages, (writeText p c).perform s = (.ok (), { s with
            files := s.files.put (key s p) (.file (Utf8.encode c)), ages }) := by
  rw [writeText, writeBytes]
  rcases opened : (checkOpen p).perform s with ⟨out, mid⟩
  obtain rfl := Looks.eq (.checkOpen p) opened
  cases out with
  | error err => exact Or.inl ⟨err, perform_bind_error opened⟩
  | ok _ =>
    rw [perform_bind_ok opened]
    rcases hchk : (checkWritable p).perform mid with ⟨out, s'⟩
    obtain rfl := Looks.eq (.checkWritable p) hchk
    cases out with
    | error err => exact Or.inl ⟨err, perform_bind_error hchk⟩
    | ok _ =>
      obtain ⟨hn, writable⟩ := usable_of_checkWritable hchk
      rw [perform_bind_ok hchk]
      exact Or.inr ⟨hn, writable, _, rfl⟩

variable {t : String}

theorem succeeds_writeText_iff :
    (∃ s', (writeText p t).perform s = (.ok (), s')) ↔
      s.Opens p ∧ (checkWritable p).perform s = (.ok (), s) := by
  rw [writeText, writeBytes]
  constructor
  · rintro ⟨s', hw⟩
    obtain ⟨_, mid, opened, checking⟩ := perform_bind_eq_ok.mp hw
    obtain rfl := Looks.eq (.checkOpen p) opened
    obtain ⟨_, last, hchk, _⟩ := perform_bind_eq_ok.mp checking
    obtain rfl := Looks.eq (.checkWritable p) hchk
    exact ⟨opened, hchk⟩
  · rintro ⟨opens, hchk⟩
    rw [perform_bind_ok opens, perform_bind_ok hchk]
    exact ⟨_, rfl⟩

theorem holds_of_writeText {nm : String} (hn : Path.IsName nm) (ends : Path.EndsIn p nm)
    (hw : (writeText p t).perform s = (.ok (), s')) : s'.Holds p (Utf8.encode t) := by
  rcases perform_writeText p t s with ⟨err, failed⟩ | ⟨hfl, writable, ages, hd⟩
  · rw [failed] at hw
    cases hw
  · rw [hd] at hw
    cases hw
    obtain ⟨kept, last⟩ := Path.exists_parts_absolute hn ends s.here
    have inner : key s p ≠ [] := by
      rw [key, last]
      simp
    exact Session.holds_iff.mpr ⟨hfl, writable, ends.getLast?_ne hn, Store.at?_put inner⟩

theorem holds_after_writeText {nm other otherName : String} {out : Outcome Unit}
    (hn : Path.IsName nm) (ends : Path.EndsIn p nm) (otherNamed : Path.IsName otherName)
    (otherEnds : Path.EndsIn other otherName) (differs : otherName ≠ nm) (holds : s.Holds other c)
    (hw : (writeText p t).perform s = (out, s')) : s'.Holds other c := by
  rcases perform_writeText p t s with ⟨err, failed⟩ | ⟨_, _, ages, hd⟩
  · rw [failed] at hw
    cases hw
    exact holds
  · rw [hd] at hw
    cases hw
    obtain ⟨kept, last⟩ := Path.exists_parts_absolute hn ends s.here
    obtain ⟨otherKept, otherLast⟩ := Path.exists_parts_absolute otherNamed otherEnds s.here
    have apart : key s other ≠ key s p := by
      rw [key, key, last, otherLast]
      intro hs
      exact differs (singleton_inj.mp (append_inj' hs rfl).2)
    obtain ⟨hfl, writable, unslashed, ht⟩ := Session.holds_iff.mp holds
    exact Session.holds_iff.mpr ⟨hfl, writable, unslashed, (Store.at?_put_of_ne apart).trans ht⟩

theorem perform_appendText (holds : s.Holds p c) (opens : s.Opens p) (t : String) :
    (appendText p t).perform s = (.ok (), { s with
        files := s.files.put (key s p) (.file (c ++ Utf8.encode t)) }) := by
  obtain ⟨_, _, _, ht⟩ := Session.holds_iff.mp holds
  rw [appendText, perform_bind_ok opens, perform_bind_ok (perform_checkWritable_of_holds holds)]
  change (Except.ok (), _) = _
  dsimp only
  rw [ht]

theorem perform_readBytes (holds : s.Holds p c) (opens : s.Opens p) :
    (readBytes p).perform s = (.ok c, s) := by
  rw [readBytes, perform_bind_ok opens, loadBytes, perform_bind_ok holds]
  rfl

theorem perform_readText (holds : s.Holds p (Utf8.encode t)) (opens : s.Opens p) :
    (readText p).perform s = (.ok (unify t), s) := by
  rw [readText, perform_bind_ok (perform_readBytes holds opens), Utf8.decode_encode]
  rfl

end Audit

end SourceAudit.Outside
