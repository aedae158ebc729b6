import SourceAudit.Proofs.StoredFiles

/-!
# Files without their contents

Whether a directory can be made or a file can be written depends on where there are directories and
files, but not on what the files hold.
-/

namespace SourceAudit.Store

def shapeAt (store : Store) (p : List String) : Option Bool :=
  (store.at? p).map (· == .directory)

variable {first second : Store}

theorem at?_eq_none_iff_of_shape (hs : first.shapeAt = second.shapeAt) (p : List String) :
    first.at? p = none ↔ second.at? p = none := by
  have hh := congrFun hs p
  rw [shapeAt, shapeAt] at hh
  rw [← Option.map_eq_none_iff, hh, Option.map_eq_none_iff]

theorem at?_eq_directory_iff_of_shape (hs : first.shapeAt = second.shapeAt) (p : List String) :
    first.at? p = some .directory ↔ second.at? p = some .directory := by
  have decided (store : Store) : store.at? p = some .directory ↔ store.shapeAt p = some true := by
    rw [shapeAt]
    rcases store.at? p with _ | (_ | c) <;> simp
  rw [decided, decided, hs]

theorem shapeAt_put (hs : first.shapeAt = second.shapeAt) (p : List String) {e other : Entry}
    (alike : (e == .directory) = (other == .directory)) :
    (first.put p e).shapeAt = (second.put p other).shapeAt := by
  funext pl
  by_cases ht : pl = p
  · subst ht
    by_cases inner : pl = []
    · rw [inner]
      rfl
    · rw [shapeAt, shapeAt, at?_put inner, at?_put inner, Option.map_some, Option.map_some, alike]
  · rw [shapeAt, shapeAt, at?_put_of_ne ht, at?_put_of_ne ht]
    exact congrFun hs pl

theorem shapeAt_makeStep (hs : first.shapeAt = second.shapeAt) (p : List String)
    (n : Nat) : (makeStep p first n).shapeAt = (makeStep p second n).shapeAt := by
  rw [makeStep, makeStep]
  have hmiss := at?_eq_none_iff_of_shape hs (p.take (n + 1))
  rcases ht : first.at? (p.take (n + 1)) with _ | e
  · rw [hmiss.mp ht]
    exact shapeAt_put hs _ rfl
  · rcases hf : second.at? (p.take (n + 1)) with _ | other
    · rw [hmiss.mpr hf] at ht
      cases ht
    · exact hs

theorem shapeAt_makeAll (hs : first.shapeAt = second.shapeAt) (p : List String) :
    (first.makeAll p).shapeAt = (second.makeAll p).shapeAt := by
  rw [makeAll_eq, makeAll_eq]
  generalize List.range p.length = counts
  induction counts generalizing first second with
  | nil => exact hs
  | cons n counts ih => exact ih (shapeAt_makeStep hs p n)

end SourceAudit.Store

namespace SourceAudit.Outside

theorem Audit.perform_checkWritable_iff {s : Session} {p : String} :
    (Audit.checkWritable p).perform s = (.ok (), s) ↔
      p.isEmpty = false ∧ Audit.holdsZero p = false ∧
        s.files.at? (Audit.key s p) ≠ some .directory ∧ (s.files.at? (Audit.key s p) = none →
            s.files.at? ((Audit.key s p).take ((Audit.key s p).length - 1)) = some .directory) := by
  constructor
  · intro hchk
    obtain ⟨hfl, unzeroed⟩ := usable_of_checkWritable hchk
    refine ⟨hfl, unzeroed, free_of_checkWritable hchk, fun hmiss => ?_⟩
    rw [checkWritable, perform_get_bind] at hchk
    dsimp only at hchk
    rw [hfl, unzeroed, hmiss, if_neg Bool.false_ne_true, if_neg Bool.false_ne_true] at hchk
    dsimp only at hchk
    split at hchk
    · next parent => exact parent
    · cases hchk
  · rintro ⟨hfl, unzeroed, free, parent⟩
    rcases ht : s.files.at? (Audit.key s p) with _ | (_ | c)
    · exact perform_checkWritable hfl unzeroed (parent ht) free
    · exact absurd ht free
    · rw [checkWritable, perform_get_bind]
      dsimp only
      rw [hfl, unzeroed, ht]
      rfl

/-- The sessions differ in the contents of files only. -/
structure SameTree (first second : Session) : Prop where
  besides : second = { first with files := second.files }
  shape : first.files.shapeAt = second.files.shapeAt

namespace SameTree

variable {first second : Session}

theorem refl (s : Session) : SameTree s s := { besides := rfl, shape := rfl }

theorem key_eq (hs : SameTree first second) (p : String) :
    Audit.key second p = Audit.key first p := by
  rw [hs.besides]
  rfl

theorem belowFile_eq (same : SameTree first second) (parts : List String) :
    Audit.belowFile second parts = Audit.belowFile first parts := by
  rw [Audit.belowFile, Audit.belowFile]
  congr 1
  funext count
  have shape := congrFun same.shape (parts.take count)
  rw [Store.shapeAt, Store.shapeAt] at shape
  rcases there : first.files.at? (parts.take count) with _ | (_ | content) <;>
    rcases found : second.files.at? (parts.take count) with _ | (_ | other) <;>
      rw [there, found] at shape <;> first | rfl | cases shape

theorem admits_iff (hs : SameTree first second) (p : String) :
    second.Admits p ↔ first.Admits p := by
  have room : second.files.at? (Audit.key second p) = some .directory ∨
        second.files.at? (Audit.key second p) = none ∧
          Audit.belowFile second (Audit.key second p) = false ↔
      first.files.at? (Audit.key first p) = some .directory ∨
        first.files.at? (Audit.key first p) = none ∧
          Audit.belowFile first (Audit.key first p) = false := by
    rw [hs.key_eq, hs.belowFile_eq, Store.at?_eq_directory_iff_of_shape hs.shape,
      Store.at?_eq_none_iff_of_shape hs.shape]
  constructor
  · rintro ⟨hfl, unzeroed, free⟩
    exact ⟨hfl, unzeroed, room.mp free⟩
  · rintro ⟨hfl, unzeroed, free⟩
    exact ⟨hfl, unzeroed, room.mpr free⟩

theorem opens_iff (hs : SameTree first second) (p : String) : second.Opens p ↔ first.Opens p := by
  rw [Session.opens_iff, Session.opens_iff, hs.besides]

theorem checkWritable_iff (hs : SameTree first second) (p : String) :
    (Audit.checkWritable p).perform second = (.ok (), second) ↔
      (Audit.checkWritable p).perform first = (.ok (), first) := by
  rw [Audit.perform_checkWritable_iff, Audit.perform_checkWritable_iff, hs.key_eq, ne_eq, ne_eq,
    Store.at?_eq_directory_iff_of_shape hs.shape, Store.at?_eq_none_iff_of_shape hs.shape,
    Store.at?_eq_directory_iff_of_shape hs.shape]

theorem withFiles (hs : SameTree first second) {files others : Store}
    (shape : files.shapeAt = others.shapeAt) :
    SameTree { first with files } { second with files := others } where
  besides := by rw [hs.besides]
  shape := shape

theorem withFilesAndAges (hs : SameTree first second) {files others : Store}
    (shape : files.shapeAt = others.shapeAt)
    (kept : List (List String × Value) → List (List String × Value)) :
    SameTree { first with files, ages := kept first.ages }
      { second with files := others, ages := kept second.ages } where
  besides := by rw [hs.besides]
  shape := shape

end SameTree

namespace Audit

variable {α β : Type} {s : Session} {p : String}

theorem perform_writeText_of_checked {t : String} (opens : s.Opens p)
    (hchk : (checkWritable p).perform s = (.ok (), s)) :
    (writeText p t).perform s = (.ok (), { s with
        files := s.files.put (key s p) (.file (Text.Utf8.encode t))
        ages := s.ages.filter fun e => e.1 != key s p }) := by
  rw [writeText, writeBytes, perform_bind_ok opens, perform_bind_ok hchk]
  rfl

def Matches (a b : Audit α) : Prop :=
  ∀ (s other s' : Session) (v : α), SameTree s other →
    a.perform s = (.ok v, s') →
      ∃ l, b.perform other = (.ok v, l) ∧ SameTree s' l

namespace Matches

theorem pure (v : α) : Matches (Pure.pure v) (Pure.pure v) := by
  intro s other s' r hs hd
  cases hd
  exact ⟨other, rfl, hs⟩

theorem bind {a b : Audit α} {next further : α → Audit β} (begins : Matches a b)
    (goes : ∀ v, Matches (next v) (further v)) : Matches (a >>= next) (b >>= further) := by
  intro s other s' r hs hd
  obtain ⟨v, mid, hb, he⟩ := perform_bind_eq_ok.mp hd
  obtain ⟨between, also, alike⟩ := begins _ _ _ _ hs hb
  obtain ⟨l, finished, last⟩ := goes v _ _ _ _ alike he
  exact ⟨l, (perform_bind_ok also).trans finished, last⟩

theorem ofOutcome (out : Outcome α) : Matches (Audit.ofOutcome out) (Audit.ofOutcome out) := by
  intro s other s' r hs hd
  rw [perform_ofOutcome] at hd
  cases hd
  exact ⟨other, perform_ofOutcome _ _, hs⟩

theorem makeDirectories (p : String) :
    Matches (Audit.makeDirectories p) (Audit.makeDirectories p) := by
  intro s other s' r hs hd
  by_cases admits : s.Admits p
  · rcases admits.room with ht | ⟨hmiss, clear⟩
    · rw [perform_makeDirectories_present admits ht] at hd
      obtain ⟨_, rfl⟩ := Prod.mk.inj hd
      have hf : other.files.at? (key other p) = some .directory := by
        rw [hs.key_eq]
        exact (Store.at?_eq_directory_iff_of_shape hs.shape _).mp ht
      exact ⟨other, perform_makeDirectories_present ((hs.admits_iff p).mpr admits) hf, hs⟩
    · rw [perform_makeDirectories_missing admits hmiss] at hd
      obtain ⟨_, rfl⟩ := Prod.mk.inj hd
      have free : other.files.at? (key other p) = none := by
        rw [hs.key_eq]
        exact (Store.at?_eq_none_iff_of_shape hs.shape _).mp hmiss
      refine ⟨_, perform_makeDirectories_missing ((hs.admits_iff p).mpr admits) free, ?_⟩
      rw [hs.key_eq]
      exact hs.withFiles (Store.shapeAt_makeAll hs.shape _)
  · obtain ⟨err, failed⟩ := perform_makeDirectories_of_not admits
    rw [failed] at hd
    cases hd

theorem writeText (p t another : String) :
    Matches (Audit.writeText p t) (Audit.writeText p another) := by
  intro s other s' r hs hd
  obtain ⟨opens, hchk⟩ := succeeds_writeText_iff.mp ⟨s', hd⟩
  rw [perform_writeText_of_checked opens hchk] at hd
  obtain ⟨_, rfl⟩ := Prod.mk.inj hd
  refine ⟨_, perform_writeText_of_checked ((hs.opens_iff p).mpr opens)
    ((hs.checkWritable_iff p).mpr hchk), ?_⟩
  have alike : (Entry.file (Text.Utf8.encode t) == .directory) =
      (Entry.file (Text.Utf8.encode another) == .directory) := rfl
  rw [hs.key_eq]
  exact hs.withFilesAndAges (Store.shapeAt_put hs.shape _ alike)
    fun ages => ages.filter fun e => e.1 != key s p

theorem tryWriteText {next further : Audit α} (goes : Matches next further) (p t another : String) :
    Matches (attempt (Audit.writeText p t) >>= fun _ => next)
      (attempt (Audit.writeText p another) >>= fun _ => further) := by
  intro s other s' v hs hd
  rw [perform_bind_ok (perform_attempt _ _)] at hd
  rw [perform_bind_ok (perform_attempt _ _)]
  rcases perform_writeText p t s with ⟨err, failed⟩ | ⟨_, _, ages, wrote⟩
  · have stuck : ¬ ∃ s', (Audit.writeText p t).perform s = (.ok (), s') := by
      rintro ⟨later, wrote⟩
      rw [failed] at wrote
      cases wrote
    rw [failed] at hd
    rcases perform_writeText p another other with ⟨problem, also⟩ | ⟨_, _, ages, wrote⟩
    · rw [also]
      exact goes _ _ _ _ hs hd
    · obtain ⟨opens, hchk⟩ := succeeds_writeText_iff.mp ⟨_, wrote⟩
      exact absurd (succeeds_writeText_iff.mpr
        ⟨(hs.opens_iff p).mp opens, (hs.checkWritable_iff p).mp hchk⟩) stuck
  · obtain ⟨l, hw, alike⟩ := writeText p t another _ _ _ _ hs wrote
    rw [wrote] at hd
    rw [hw]
    exact goes _ _ _ _ alike hd

end Matches

end Audit

end SourceAudit.Outside
