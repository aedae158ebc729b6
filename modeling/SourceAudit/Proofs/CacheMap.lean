import SourceAudit.Project.Cache
import SourceAudit.Proofs.LogDelivery
import SourceAudit.Proofs.ReadForms

/-!
# The cache as a map

What the cache answers after any number of saves into one directory. A save writes straight into the
file of its key, so the last save of a key decides alone: its document is answered as it is read
back, and if it could not be written to the end, nothing is answered, whatever was kept before.
-/

open List Option

namespace SourceAudit.Project.Cache

open Outside
open SourceAudit.Json (writable decoded)

variable {s s' : Session} {dir k other : String}

/-! ## Files of keys -/

def entryFile (dir k : String) : String :=
  fileOf (.text dir) (.text k)

theorem isName_entry (hp : '/' ∉ k.toList) : Path.IsName (k ++ ".json") where
  unslashed := by
    rw [String.toList_append, mem_append, not_or]
    exact ⟨hp, by decide⟩
  nonempty := by
    intro hs
    exact absurd (String.append_eq_empty_iff.mp hs).2 (by decide)
  here := by
    intro hs
    have lengths := congrArg (fun t => t.toList.length) hs
    simp [String.toList_append] at lengths
  above := by
    intro hs
    have lengths := congrArg (fun t => t.toList.length) hs
    simp [String.toList_append] at lengths

theorem endsIn_entryFile (dir k : String) : Path.EndsIn (entryFile dir k) (k ++ ".json") :=
  Path.EndsIn.join (Or.inl rfl) dir

theorem key_entryFile (hfl : dir ≠ "") (hp : '/' ∉ k.toList) (s : Session) :
    Audit.key s (entryFile dir k) = Audit.key s dir ++ [k ++ ".json"] :=
  Path.parts_absolute_join (isName_entry hp) hfl s.here

theorem length_lt_entryFile (hfl : dir ≠ "") (hp : '/' ∉ k.toList) (s : Session) :
    (Audit.key s dir).length < (Audit.key s (entryFile dir k)).length := by
  rw [key_entryFile hfl hp, length_append]
  exact Nat.lt_succ_self _

theorem exists_toList_entryFile (dir k : String) :
    ∃ pre, (entryFile dir k).toList = pre ++ (k ++ ".json").toList :=
  (endsIn_entryFile dir k).exists_front

theorem key_entryFile_ne (hfl : dir ≠ "") (single : '/' ∉ other.toList)
    (hp : '/' ∉ k.toList) (differs : other ≠ k) :
    Audit.key s (entryFile dir other) ≠ Audit.key s (entryFile dir k) := by
  rw [key_entryFile hfl single, key_entryFile hfl hp]
  intro hs
  have names := singleton_inj.mp (append_cancel_left hs)
  rw [← String.toList_inj, String.toList_append, String.toList_append] at names
  exact differs (String.toList_inj.mp (append_cancel_right names))

theorem zeroed_of_key (zero : Audit.holdsZero k = true) (dir : String) :
    Audit.holdsZero (entryFile dir k) = true := by
  obtain ⟨pre, shape⟩ := exists_toList_entryFile dir k
  rw [Audit.holdsZero] at zero
  rw [Audit.holdsZero, shape, String.toList_append]
  simp only [contains_eq_mem, decide_eq_true_eq, mem_append] at zero ⊢
  exact Or.inr (Or.inl zero)

def entryOf (s : Session) (dir k : String) : Option Entry :=
  s.files.at? (Audit.key s (entryFile dir k))

structure Takes (session : Session) (directory key : String) : Prop where
  admits : session.Admits directory
  named : key ≠ ""
  unzeroed : Audit.holdsZero (entryFile directory key) = false
  opens : session.Opens (entryFile directory key)
  free : entryOf session directory key ≠ some .directory

theorem guarded_eq (dir k : String) :
    (!(Value.text dir).truthy || !(Value.text k).truthy) = (dir.isEmpty || k.isEmpty) := by
  simp [Value.truthy]

theorem Takes.guarded (takes : Takes s dir k) : (dir.isEmpty || k.isEmpty) = false := by
  rw [Path.isEmpty_eq_false takes.admits.filled, Path.isEmpty_eq_false takes.named]
  rfl

/-! ## Loading -/

def documentIn (c : List UInt8) : Value :=
  match Text.Utf8.decode c with
  | .ok t => (Json.read? (Audit.unify t)).getD .null
  | .error _ => .null

def readable? (s : Session) (dir k : String) : Option (List UInt8) :=
  match s.script.openFaults.find? fun e => e.1 == entryFile dir k,
    entryOf s dir k with
  | none, some (.file c) => some c
  | _, _ => none

def answer (s : Session) (dir k : String) : Value :=
  if dir.isEmpty || k.isEmpty || Audit.holdsZero (entryFile dir k) then .null
  else ((readable? s dir k).map documentIn).getD .null

theorem answer_of_unfit (unfit : k = "" ∨ Audit.holdsZero k = true) (s : Session)
    (dir : String) : answer s dir k = .null := by
  rw [answer]
  rcases unfit with rfl | zero
  · rw [show "".isEmpty = true from rfl, Bool.or_true, Bool.true_or]
    rfl
  · rw [zeroed_of_key zero, Bool.or_true]
    rfl

theorem perform_lookup_entryFile (s : Session) (dir k : String) :
    (Audit.lookup (entryFile dir k)).perform s =
      (.ok (if Audit.holdsZero (entryFile dir k) then none
        else entryOf s dir k), s) := by
  obtain ⟨pre, shape⟩ := exists_toList_entryFile dir k
  have hfl : (entryFile dir k).isEmpty = false := by
    apply Path.isEmpty_eq_false
    intro empty
    have lengths := congrArg (fun t => t.toList.length) empty
    simp [shape, String.toList_append] at lengths
  have last : (entryFile dir k).toList.getLast? = some 'n' := by
    rw [shape, String.toList_append]
    simp
  rw [Audit.lookup, Audit.perform_get_bind, hfl, Bool.false_or, Audit.holdsZero, entryOf]
  split
  · rfl
  · rw [last]
    split
    · next ht =>
      rw [ht]
      rfl
    · rfl

theorem perform_readBytes_entryFile (s : Session)
    (unzeroed : Audit.holdsZero (entryFile dir k) = false) :
    (∃ c, readable? s dir k = some c ∧ (Audit.readBytes (entryFile dir k)).perform s = (.ok c, s)) ∨
    readable? s dir k = none ∧
      ∃ err, (Audit.readBytes (entryFile dir k)).perform s = (.error err, s) := by
  have looked := perform_lookup_entryFile s dir k
  rw [unzeroed, if_neg Bool.false_ne_true] at looked
  rw [readable?, Audit.readBytes]
  cases prepared : s.script.openFaults.find? fun e => e.1 == entryFile dir k with
  | some err =>
    have closed : (Audit.checkOpen (entryFile dir k)).perform s =
        (.error (.outside err.2.1 err.2.2), s) := by
      rw [Audit.checkOpen, Audit.perform_get_bind, prepared]
      rfl
    exact Or.inr ⟨rfl, _, Audit.perform_bind_error closed⟩
  | none =>
    rw [Audit.perform_bind_ok (Session.opens_iff.mpr prepared), Audit.loadBytes,
      Audit.perform_bind_ok looked]
    cases entryOf s dir k with
    | none =>
      exact Or.inr ⟨rfl, _, rfl⟩
    | some e =>
      cases e with
      | directory => exact Or.inr ⟨rfl, _, rfl⟩
      | file c => exact Or.inl ⟨c, rfl, rfl⟩

def documentOf : Outcome String → Value
  | .ok t => (Json.read? t).getD .null
  | .error _ => .null

theorem perform_readText_entryFile (s : Session)
    (unzeroed : Audit.holdsZero (entryFile dir k) = false) :
    ∃ out, (Audit.readText (entryFile dir k)).perform s = (out, s) ∧
      documentOf out = ((readable? s dir k).map documentIn).getD .null := by
  rw [Audit.readText]
  rcases perform_readBytes_entryFile s unzeroed with
    ⟨c, ht, hr⟩ | ⟨hmiss, err, failed⟩
  · rw [ht, Audit.perform_bind_ok hr, map_some, getD_some, documentIn]
    cases Text.Utf8.decode c with
    | ok t => exact ⟨_, rfl, rfl⟩
    | error error => exact ⟨_, rfl, rfl⟩
  · rw [hmiss]
    exact ⟨_, Audit.perform_bind_error failed, rfl⟩

theorem perform_load (s : Session) (dir k : String) :
    (load (.text dir) (.text k) (.int 0)).perform s = (.ok (answer s dir k), s) := by
  rw [load, answer, guarded_eq]
  cases unnamed : (dir.isEmpty || k.isEmpty) with
  | true => rfl
  | false =>
    rw [if_neg Bool.false_ne_true, Bool.false_or]
    extract_lets p finish
    have looked : (Audit.lookup p).perform s =
        (.ok (if Audit.holdsZero p then none else entryOf s dir k), s) :=
      perform_lookup_entryFile s dir k
    change _ = (Except.ok (if Audit.holdsZero p then _ else _), _)
    rw [Audit.perform_bind_ok (Audit.perform_exists? looked)]
    cases zero : Audit.holdsZero p with
    | true => rfl
    | false =>
      rw [if_neg Bool.false_ne_true, if_neg Bool.false_ne_true]
      cases hf : entryOf s dir k with
      | none =>
        have unread : readable? s dir k = none := by
          rw [readable?, hf]
          cases s.script.openFaults.find? _ with
          | none => rfl
          | some err => rfl
        rw [unread]
        rfl
      | some e =>
        obtain ⟨out, hr, told⟩ := perform_readText_entryFile s zero
        have unlimited : (Audit.ofOutcome ((Value.int 0).greater (.int 0))).perform s =
            (.ok false, s) := rfl
        rw [if_neg (by simp), Audit.perform_bind_ok unlimited, if_neg Bool.false_ne_true,
          ← told]
        refine (Audit.perform_attempt_bind hr _).trans ?_
        cases out with
        | ok t => rfl
        | error err => rfl

/-! ## Saving -/

structure Saves (session after : Session) (directory key text : String) : Prop where
  script : after.script = session.script
  admits : after.Admits directory ↔ session.Admits directory
  others : ∀ other, '/' ∉ other.toList → other ≠ key →
    entryOf after directory other = entryOf session directory other
  stored : Takes session directory key →
    entryOf after directory key = some (.file (Text.Utf8.encode text))
  unstored : ¬ Takes session directory key →
    entryOf after directory key = entryOf session directory key

theorem Saves.refl (untaken : ¬ Takes s dir k) (t : String) : Saves s s dir k t where
  script := rfl
  admits := Iff.rfl
  others _ _ _ := rfl
  stored takes := absurd takes untaken
  unstored _ := rfl

theorem takes_iff_writes {files : Store} (t : String) (hp : '/' ∉ k.toList)
    (hn : k ≠ "") (admits : s.Admits dir) (made : s.Made files dir) :
    Takes s dir k ↔
      ∃ after, (Audit.writeText (entryFile dir k) t).perform
        { s with files } = (.ok (), after) := by
  have place := key_entryFile admits.filled hp s
  have hs : files.at? (Audit.key s (entryFile dir k)) = entryOf s dir k :=
    made.deeper _ (length_lt_entryFile admits.filled hp s)
  rw [Audit.succeeds_writeText_iff]
  constructor
  · intro takes
    refine ⟨takes.opens.withFiles files, Audit.perform_checkWritable ?_ takes.unzeroed ?_ ?_⟩
    · exact (endsIn_entryFile dir k).ne_empty (isName_entry hp)
    · change files.at? ((Audit.key s (entryFile dir k)).take
        ((Audit.key s (entryFile dir k)).length - 1)) = some .directory
      rw [place, length_append, length_singleton, Nat.add_sub_cancel, take_left]
      exact made.there
    · change files.at? (Audit.key s (entryFile dir k)) ≠ some .directory
      rw [hs]
      exact takes.free
  · rintro ⟨opens, hchk⟩
    have free := Audit.free_of_checkWritable hchk
    change files.at? (Audit.key s (entryFile dir k)) ≠ some .directory at free
    rw [hs] at free
    exact ⟨admits, hn, (Audit.usable_of_checkWritable hchk).2, opens.withFiles s.files, free⟩

theorem saves_writeText {files : Store} (hp : '/' ∉ k.toList) (hn : k ≠ "")
    (admits : s.Admits dir) (made : s.Made files dir) (t : String) :
    Saves s
      ((Audit.writeText (entryFile dir k) t).perform { s with files }).2
      dir k t := by
  have reaches := takes_iff_writes t hp hn admits made
  have hs (other : String) (single : '/' ∉ other.toList) :
      files.at? (Audit.key s (entryFile dir other)) =
        s.files.at? (Audit.key s (entryFile dir other)) :=
    made.deeper _ (length_lt_entryFile admits.filled single s)
  rcases Audit.perform_writeText (entryFile dir k) t { s with files } with
    ⟨err, failed⟩ | ⟨_, _, ages, hd⟩
  · rw [failed]
    exact
      { script := rfl
        admits := ⟨fun _ => admits, fun _ => ⟨admits.filled, admits.unzeroed, Or.inl made.there⟩⟩
        others := fun other single _ => hs other single
        stored := fun takes => by
          obtain ⟨s', hw⟩ := reaches.mp takes
          rw [failed] at hw
          cases hw
        unstored := fun _ => hs k hp }
  · rw [hd]
    have inner : Audit.key s (entryFile dir k) ≠ [] := by
      rw [key_entryFile admits.filled hp]
      simp
    have above : Audit.key s dir ≠ Audit.key s (entryFile dir k) := by
      intro equal
      exact Nat.ne_of_lt (length_lt_entryFile admits.filled hp s)
        (congrArg List.length equal)
    exact
      { script := rfl
        admits := ⟨fun _ => admits, fun _ => ⟨admits.filled, admits.unzeroed,
          Or.inl ((Store.at?_put_of_ne above).trans made.there)⟩⟩
        others := fun other single differs =>
          (Store.at?_put_of_ne (key_entryFile_ne admits.filled single hp differs)).trans
            (hs other single)
        stored := fun _ => Store.at?_put inner
        unstored := fun untaken => absurd (reaches.mpr ⟨_, hd⟩) untaken }

theorem saves_save (hp : '/' ∉ k.toList) (s : Session) (dir : String) (pay : Value) :
    Saves s ((save (.text dir) (.text k) pay).perform s).2 dir k
      (Json.write .indented 0 pay).text := by
  rw [save, guarded_eq]
  cases unnamed : (dir.isEmpty || k.isEmpty) with
  | true =>
    apply Saves.refl
    intro takes
    rw [takes.guarded] at unnamed
    cases unnamed
  | false =>
    have directly : (Value.text dir).plain = dir := rfl
    rw [if_neg Bool.false_ne_true, directly]
    by_cases admits : s.Admits dir
    · obtain ⟨files, he, made⟩ := Audit.perform_makeDirectories admits
      have hn : k ≠ "" := by
        rintro rfl
        simp at unnamed
      rw [Audit.perform_bind_ok he]
      exact saves_writeText hp hn admits made _
    · obtain ⟨err, failed⟩ := Audit.perform_makeDirectories_of_not admits
      rw [Audit.perform_bind_error failed]
      exact Saves.refl (fun takes => admits takes.admits) _

/-! ### What one save changes -/

namespace Saves

variable {t : String}

theorem opens_iff (saves : Saves s s' dir k t) (p : String) : s'.Opens p ↔ s.Opens p := by
  rw [Session.opens_iff, Session.opens_iff, saves.script]

theorem answer_eq (saves : Saves s s' dir k t) (hs : entryOf s' dir other = entryOf s dir other) :
    answer s' dir other = answer s dir other := by
  rw [answer, answer, readable?, readable?, hs, saves.script]

theorem answer_other (saves : Saves s s' dir k t)
    (single : '/' ∉ other.toList) (differs : other ≠ k) :
    answer s' dir other = answer s dir other :=
  saves.answer_eq (saves.others other single differs)

theorem answer_untaken (saves : Saves s s' dir k t) (untaken : ¬ Takes s dir k) :
    answer s' dir k = answer s dir k :=
  saves.answer_eq (saves.unstored untaken)

theorem takes_iff (saves : Saves s s' dir k t) (single : '/' ∉ other.toList) :
    Takes s' dir other ↔ Takes s dir other := by
  have free : entryOf s' dir other = some .directory ↔ entryOf s dir other = some .directory := by
    by_cases hs : other = k
    · subst hs
      by_cases takes : Takes s dir other
      · rw [saves.stored takes]
        exact ⟨nofun, fun taken => absurd taken takes.free⟩
      · rw [saves.unstored takes]
    · rw [saves.others other single hs]
  constructor
  · intro takes
    exact ⟨saves.admits.mp takes.admits, takes.named, takes.unzeroed,
      (saves.opens_iff _).mp takes.opens, fun taken => takes.free (free.mpr taken)⟩
  · intro takes
    exact ⟨saves.admits.mpr takes.admits, takes.named, takes.unzeroed,
      (saves.opens_iff _).mpr takes.opens, fun taken => takes.free (free.mp taken)⟩

end Saves

theorem answer_of_stored {t : String} (takes : Takes s dir k)
    (stored : entryOf s dir k = some (.file (Text.Utf8.encode t))) (unreturned : '\r' ∉ t.toList) :
    answer s dir k = (Json.read? t).getD .null := by
  have unified : Audit.unify t = t := by
    rw [Audit.unify, Text.unifyNewlines_of_plain unreturned, String.ofList_toList]
  rw [answer, takes.guarded, takes.unzeroed, readable?, Session.opens_iff.mp takes.opens, stored]
  change documentIn (Text.Utf8.encode t) = _
  rw [documentIn, Text.Utf8.decode_encode]
  change (Json.read? (Audit.unify t)).getD .null = _
  rw [unified]

def kept (pay : Value) : Value :=
  if writable pay then decoded pay else .null

theorem answer_save (hp : '/' ∉ k.toList) (takes : Takes s dir k) (pay : Value) :
    answer ((save (.text dir) (.text k) pay).perform s).2 dir k = kept pay := by
  have saves := saves_save hp s dir pay
  rw [answer_of_stored ((saves.takes_iff hp).mpr takes) (saves.stored takes)
    (Json.notMem_written .indented 0 pay), Json.read?_write, kept]
  split
  · rfl
  · rfl

/-! ## Saves one after another -/

def afterSaves (dir : String) (saves : List (String × Value)) (s : Session) : Session :=
  saves.foldl
    (fun s e => ((save (.text dir) (.text e.1) e.2).perform s).2)
    s

def lastSave (k : String) (saves : List (String × Value)) : Option Value :=
  (saves.reverse.find? fun e => e.1 == k).map Prod.snd

def lastDocument (k : String) (saves : List (String × Value)) : Option Value :=
  (saves.reverse.find? fun e => e.1 == k && writable e.2).map
    fun e => decoded e.2

theorem lastSave_cons (k : String) (e : String × Value) (tl : List (String × Value)) :
    lastSave k (e :: tl) = (lastSave k tl).or (if e.1 == k then some e.2 else none) := by
  rw [lastSave, reverse_cons, find?_append, map_or, find?_singleton, lastSave]
  split
  · rfl
  · rfl

variable {saves : List (String × Value)}

theorem answer_afterSaves (hp : '/' ∉ k.toList)
    (singles : ∀ e ∈ saves, '/' ∉ e.1.toList) (takes : Takes s dir k) :
    answer (afterSaves dir saves s) dir k =
      ((lastSave k saves).map kept).getD (answer s dir k) := by
  induction saves generalizing s with
  | nil => rfl
  | cons e tl ih =>
    obtain ⟨nm, pay⟩ := e
    obtain ⟨single, others⟩ := forall_mem_cons.mp singles
    have step := saves_save single s dir pay
    have later := ih others ((step.takes_iff hp).mpr takes)
    have h1 : answer ((save (.text dir) (.text nm) pay).perform s).2 dir k =
        ((if nm == k then some pay else none).map kept).getD
          (answer s dir k) := by
      by_cases own : k = nm
      · subst own
        rw [answer_save hp takes, if_pos (beq_self_eq_true k)]
        rfl
      · rw [step.answer_other hp own, if_neg (by simpa using Ne.symm own)]
        rfl
    rw [lastSave_cons, afterSaves, foldl_cons, ← afterSaves, later, h1]
    cases lastSave k tl with
    | none => rfl
    | some last => rfl

theorem answer_afterSaves_of_not (hp : '/' ∉ k.toList)
    (singles : ∀ e ∈ saves, '/' ∉ e.1.toList) (untaken : ¬ Takes s dir k) :
    answer (afterSaves dir saves s) dir k = answer s dir k := by
  induction saves generalizing s with
  | nil => rfl
  | cons e tl ih =>
    obtain ⟨nm, pay⟩ := e
    obtain ⟨single, others⟩ := forall_mem_cons.mp singles
    have step := saves_save single s dir pay
    have later := ih others (mt (step.takes_iff hp).mp untaken)
    refine later.trans ?_
    by_cases own : k = nm
    · subst own
      exact step.answer_untaken untaken
    · exact step.answer_other hp own

/-! ## The map of the last saves -/

theorem lastDocument_of_writable {pay : Value} (last : lastSave k saves = some pay)
    (can : writable pay = true) : lastDocument k saves = some (decoded pay) := by
  obtain ⟨e, hf, rfl⟩ := map_eq_some_iff.mp last
  obtain ⟨hn, before, behind, shape, earlier⟩ := find?_eq_some_iff_append.mp hf
  refine map_eq_some_iff.mpr ⟨e, ?_, rfl⟩
  refine find?_eq_some_iff_append.mpr ⟨by rw [hn, can]; rfl, before, behind, shape, ?_⟩
  intro other hm
  have another : (other.1 == k) = false := by simpa using earlier other hm
  rw [another]
  rfl

theorem lastDocument_of_none (last : lastSave k saves = none) : lastDocument k saves = none := by
  have hmiss := find?_eq_none.mp (map_eq_none_iff.mp last)
  refine map_eq_none_iff.mpr (find?_eq_none.mpr ?_)
  intro e hm hn
  exact hmiss e hm (Bool.and_eq_true _ _ ▸ hn : _ ∧ _).1

theorem kept_eq_lastDocument_iff (k : String) (saves : List (String × Value)) (before : Value) :
    ((lastSave k saves).map kept).getD before = (lastDocument k saves).getD before ↔
      (lastSave k saves).all writable = true ∨ (lastDocument k saves).getD before = .null := by
  cases last : lastSave k saves with
  | none =>
    rw [lastDocument_of_none last]
    exact ⟨fun _ => Or.inl rfl, fun _ => rfl⟩
  | some pay =>
    cases can : writable pay with
    | true =>
      rw [lastDocument_of_writable last can]
      simp [kept, can]
    | false =>
      simp [kept, can, eq_comm]

/--
What loading gives after any saves into one directory.  A key whose file can be written is answered
by its last save: with the payload as it is read back, or with nothing if that payload could not be
written to the end.  So the answer is the last payload that could be written, unless a later save of
the key failed and took it away.  A key whose file cannot be written is answered as before, and a
key that no file can be named after is never answered.
-/
theorem load_after_saves (session : Session) (directory key : String)
    (saves : List (String × Value)) (plain : '/' ∉ key.toList)
    (singles : ∀ entry ∈ saves, '/' ∉ entry.1.toList) :
    ∃ before found,
      (load (.text directory) (.text key) (.int 0)).perform session = (.ok before, session) ∧
      (load (.text directory) (.text key) (.int 0)).perform (afterSaves directory saves session) =
        (.ok found, afterSaves directory saves session) ∧
      (Takes session directory key → found = ((lastSave key saves).map kept).getD before ∧
          (found = (lastDocument key saves).getD before ↔ (lastSave key saves).all writable = true ∨
              (lastDocument key saves).getD before = .null)) ∧
      (¬ Takes session directory key → found = before) ∧
      (key = "" ∨ Audit.holdsZero key = true → before = .null ∧ found = .null) := by
  refine ⟨_, _, perform_load session directory key,
    perform_load (afterSaves directory saves session) directory key, ?_, ?_, ?_⟩
  · intro takes
    rw [answer_afterSaves plain singles takes]
    exact ⟨rfl, kept_eq_lastDocument_iff key saves _⟩
  · intro untaken
    exact answer_afterSaves_of_not plain singles untaken
  · intro unfit
    exact ⟨answer_of_unfit unfit session directory, answer_of_unfit unfit _ directory⟩

theorem takes_fresh : Takes (Session.start {}) "c" "k" where
  admits := ⟨by decide, by decide, Or.inr ⟨by decide +kernel, by decide +kernel⟩⟩
  named := by decide
  unzeroed := by decide
  opens := Session.opens_iff.mpr rfl
  free := by decide +kernel

def failingSaves : List (String × Value) :=
  [("k", .list [.int 1]), ("k", .record [("a", .bytes [0])])]

def zeroSaves : List (String × Value) :=
  [("a\x00b", .list [.int 1])]

theorem saves_lose_documents :
    lastDocument "k" failingSaves = some (.list [.int 1]) ∧
      ((load (.text "c") (.text "k") (.int 0)).perform
        (afterSaves "c" failingSaves (Session.start {}))).1 = .ok .null ∧
    lastDocument "a\x00b" zeroSaves = some (.list [.int 1]) ∧
      ((load (.text "c") (.text "a\x00b") (.int 0)).perform
        (afterSaves "c" zeroSaves (Session.start {}))).1 = .ok .null := by
  obtain ⟨_, _, _, loaded, taken, _, _⟩ :=
    load_after_saves (Session.start {}) "c" "k" failingSaves (by decide) (by decide)
  obtain ⟨_, _, _, missed, _, _, unfit⟩ :=
    load_after_saves (Session.start {}) "c" "a\x00b" zeroSaves (by decide) (by decide)
  refine ⟨rfl, ?_, rfl, ?_⟩
  · rw [loaded, (taken takes_fresh).1]
    rfl
  · rw [missed, (unfit (Or.inr (by decide))).2]

end SourceAudit.Project.Cache
