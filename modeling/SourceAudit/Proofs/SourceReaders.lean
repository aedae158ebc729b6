import SourceAudit.Proofs.LayoutStability
import SourceAudit.Proofs.Stages
import SourceAudit.Proofs.Utf8Canonical

/-!
# Two readers of one file

A source is read twice. The first reader takes every file: bytes that are no UTF-8 are one character
each.
-/

namespace SourceAudit.Outside.Session

variable {session : Session} {path : String} {c : List UInt8}

theorem Holds.printing (holds : session.Holds path c) (printed : List String) :
    { session with printed }.Holds path c :=
  holds.keep { here := rfl, files := fun _ _ ht => ht }

theorem Opens.printing (opens : session.Opens path) (printed : List String) :
    { session with printed }.Opens path := by
  have unprepared := opens_iff.mp opens
  exact opens_iff.mpr unprepared

theorem perform_checkOpen_of_not (closed : ¬ session.Opens path) :
    ∃ err, (Audit.checkOpen path).perform session = (.error err, session) := by
  rw [opens_iff] at closed
  rw [Audit.checkOpen, Audit.perform_get_bind]
  split
  · exact ⟨_, rfl⟩
  · next unprepared => exact absurd unprepared closed

end SourceAudit.Outside.Session

namespace SourceAudit.Source

open Outside Outside.Audit
open SourceAudit.Text (Utf8.decode Utf8.encode Utf8.DecodeError)

namespace Dialect

def language : Dialect → String
  | .go => "go"
  | .java => "java"

def readCode (d : Dialect) (p : String) : Audit String :=
  match d with
  | .go => return (← Go.readOutline p).code
  | .java => return (← Java.readOutline p).code

def refusal (dialect : Dialect) (path : String) (problem : Utf8.DecodeError) : Fault :=
  .os s!"Failed to read {dialect.title} file {path}: {problem.message}"

theorem readCode_eq (d : Dialect) (p : String) : d.readCode p = readStrict d.title p := by
  cases d with
  | go =>
    rw [readCode, Go.readOutline, bind_assoc]
    exact bind_pure _
  | java =>
    rw [readCode, Java.readOutline, bind_assoc]
    exact bind_pure _

end Dialect

variable {path text : String} {session after : Session} {bytes : List UInt8}

/-! ## The reader of all files -/

theorem perform_readSource (holds : session.Holds path bytes) (opens : session.Opens path) :
    (readSource path).perform session = (.ok (textOf bytes), session) := by
  have filed : (Audit.isFile path).perform session = (.ok true, session) := by
    rw [Audit.isFile, perform_bind_ok holds]
    rfl
  rw [readSource, perform_bind_ok (perform_exists? holds), if_neg (by simp), perform_bind_ok filed,
    if_neg (by decide), perform_attempt_bind (perform_readBytes holds opens)]
  rfl

theorem holds_of_readSource (hr : (readSource path).perform session = (.ok text, after)) :
    ∃ bytes, session.Holds path bytes ∧ session.Opens path ∧ text = textOf bytes := by
  rw [readSource] at hr
  obtain ⟨f, _, hr⟩ := Looks.bind_eq_ok (.exists? path) hr
  cases f with
  | false => cases hr
  | true =>
    rw [if_neg (by decide)] at hr
    obtain ⟨filed, mid, looked, hr⟩ := perform_bind_eq_ok.mp hr
    rw [Audit.isFile] at looked
    obtain ⟨e, ht, looked⟩ := Looks.bind_eq_ok (.lookup path) looked
    rcases e with _ | (_ | bytes)
    · cases looked
      cases hr
    · cases looked
      cases hr
    · cases looked
      rw [if_neg (by decide)] at hr
      obtain ⟨loaded, last, tried, hr⟩ := perform_bind_eq_ok.mp hr
      rw [perform_attempt, Prod.mk.injEq, Except.ok.injEq] at tried
      have holds : session.Holds path bytes := ht
      by_cases opens : session.Opens path
      · rw [perform_readBytes holds opens] at tried
        obtain ⟨rfl, rfl⟩ := tried
        cases hr
        exact ⟨bytes, holds, opens, rfl⟩
      · obtain ⟨err, failed⟩ := Session.perform_checkOpen_of_not opens
        rw [Audit.readBytes, perform_bind_error failed] at tried
        obtain ⟨rfl, rfl⟩ := tried
        dsimp only at hr
        split at hr <;> cases hr

/-! ## The strict reader -/

theorem perform_say (t : String) (s : Session) :
    (Audit.say t).perform s = (.ok (), { s with printed := s.printed ++ [t ++ "\n"] }) :=
  rfl

variable {problem : Utf8.DecodeError}

theorem perform_readStrict_of_malformed (d : Dialect) (holds : session.Holds path bytes)
    (opens : session.Opens path) (malformed : Utf8.decode bytes = .error problem) :
    (readStrict d.title path).perform session =
      (.error (d.refusal path problem), session) := by
  have failed : (Audit.readText path).perform session = (.error (.decoding problem), session) := by
    rw [Audit.readText, perform_bind_ok (perform_readBytes holds opens), malformed]
    rfl
  rw [readStrict, perform_attempt_bind failed]
  rfl

theorem perform_readCode_of_encoded (d : Dialect) {written : String}
    (holds : session.Holds path (Utf8.encode written)) (opens : session.Opens path) :
    (d.readCode path).perform session = (.ok (textOf (Utf8.encode written)), session) := by
  rw [d.readCode_eq, perform_readStrict holds opens, textOf, Text.Utf8.decode_encode]

/-! ## The analysis of a refused file -/

theorem perform_staticPass_of_malformed (d : Dialect) (opts : Analysis.StaticOptions)
    (holds : session.Holds path bytes) (opens : session.Opens path)
    (malformed : Utf8.decode bytes = .error problem) :
    ∃ later, (Analysis.staticPass opts path d.language false).perform session =
      (.error (d.refusal path problem), later) := by
  have refused (printed : List String) := perform_readStrict_of_malformed d
    (holds.printing printed) (opens.printing printed) malformed
  rw [Analysis.staticPass, if_neg Bool.false_ne_true,
    perform_bind_ok (perform_readSource holds opens)]
  cases d with
  | go =>
    change ∃ later, (Analysis.goPass opts path (textOf bytes)).perform session = (_, later)
    rw [Analysis.goPass, perform_bind_ok (perform_say _ _)]
    exact ⟨_, perform_bind_error (perform_bind_error (refused _))⟩
  | java =>
    change ∃ later, (Analysis.javaPass opts path (textOf bytes)).perform session = (_, later)
    rw [Analysis.javaPass, perform_bind_ok (perform_say _ _)]
    exact ⟨_, perform_bind_error (perform_bind_error (refused _))⟩

theorem perform_runStages_of_malformed (d : Dialect) (opts : Analysis.Options)
    (holds : session.Holds path bytes) (opens : session.Opens path)
    (malformed : Utf8.decode bytes = .error problem) :
    ∃ later, (Analysis.runStages (Analysis.stages opts false)
        { path, language := d.language }).perform session =
      (.ok { path, language := d.language
             error := some (d.refusal path problem).message }, later) := by
  have failed (printed : List String) := perform_staticPass_of_malformed d opts.static
    (holds.printing printed) (opens.printing printed) malformed
  have staged : ∃ later, (Analysis.staticStage opts false
      { path, language := d.language }).perform session =
        (.error (d.refusal path problem), later) := by
    rw [Analysis.staticStage, perform_bind_ok (perform_say _ _), perform_bind_ok (perform_say _ _)]
    obtain ⟨later, failed⟩ := failed _
    exact ⟨later, perform_bind_error failed⟩
  obtain ⟨later, staged⟩ := staged
  rw [Analysis.stages, Analysis.runStages, perform_attempt_bind staged]
  exact ⟨_, rfl⟩

/-! ## When both see the same text -/

/--
For every file that the reader of all files can read, the outline of a Go or Java file holds the same
text exactly when the bytes of the file encode some text.  Any other file is refused with the place
of the first malformed byte, and its analysis ends with results that hold the failure and no threats
or risk.
-/
theorem readCode_eq_source_iff_encoded (dialect : Dialect)
    (read : (readSource path).perform session = (.ok text, after)) :
    ∃ bytes, session.Holds path bytes ∧
      ((dialect.readCode path).perform session = (.ok text, session) ↔
        ∃ written, Utf8.encode written = bytes) ∧
      ((¬ ∃ written, Utf8.encode written = bytes) → ∃ problem, Utf8.decode bytes = .error problem ∧
          (dialect.readCode path).perform session =
            (.error (dialect.refusal path problem), session) ∧
          ∀ options, ∃ later, (Analysis.runStages (Analysis.stages options false)
              { path, language := dialect.language }).perform session =
            (.ok { path, language := dialect.language
                   error := some (dialect.refusal path problem).message }, later)) := by
  obtain ⟨bytes, holds, opens, rfl⟩ := holds_of_readSource read
  refine ⟨bytes, holds, ?_⟩
  cases decoded : Utf8.decode bytes with
  | ok written =>
    obtain rfl := Text.Utf8.decode_eq_ok_iff.mp decoded
    have encoded : ∃ other, Utf8.encode other = Utf8.encode written := ⟨written, rfl⟩
    exact ⟨iff_of_true (perform_readCode_of_encoded dialect holds opens) encoded,
      fun unencoded => absurd encoded unencoded⟩
  | error problem =>
    have refused : (dialect.readCode path).perform session =
        (.error (dialect.refusal path problem), session) := by
      rw [dialect.readCode_eq, perform_readStrict_of_malformed dialect holds opens decoded]
    have unencoded : ¬ ∃ written, Utf8.encode written = bytes := by
      rintro ⟨written, rfl⟩
      rw [Text.Utf8.decode_encode] at decoded
      cases decoded
    have unread : (dialect.readCode path).perform session ≠ (.ok (textOf bytes), session) := by
      rw [refused]
      exact fun same => nomatch congrArg Prod.fst same
    exact ⟨iff_of_false unread unencoded, fun _ => ⟨problem, rfl, refused, fun options =>
      perform_runStages_of_malformed dialect options holds opens decoded⟩⟩

def strayComment : List UInt8 := [0x2F, 0x2F, 0x20, 0xFF, 0x0A]

/-- The stray byte is read as a letter, and no outline is made because of it. -/
theorem strayComment_read_and_refused :
    (readSource "a.go").perform (.holding "a.go" strayComment) =
        (.ok "// ÿ\n", .holding "a.go" strayComment) ∧
      (Dialect.go.readCode "a.go").perform (.holding "a.go" strayComment) =
        (.error (.os ("Failed to read Go file a.go: 'utf-8' codec can't decode byte 0xff in " ++
          "position 3: invalid start byte")), .holding "a.go" strayComment) := by
  have holds : (Session.holding "a.go" strayComment).Holds "a.go" strayComment := rfl
  have opens : (Session.holding "a.go" strayComment).Opens "a.go" := rfl
  have read : (readSource "a.go").perform (.holding "a.go" strayComment) =
      (.ok "// ÿ\n", .holding "a.go" strayComment) := perform_readSource holds opens
  refine ⟨read, ?_⟩
  obtain ⟨bytes, same, -, refused⟩ := readCode_eq_source_iff_encoded .go read
  obtain rfl : bytes = strayComment := by
    have unique := same.symm.trans holds
    cases unique
    rfl
  have unencoded : ¬ ∃ written, Utf8.encode written = strayComment := by
    rintro ⟨written, encoded⟩
    cases Text.Utf8.decode_eq_ok_iff.mpr encoded
  obtain ⟨problem, malformed, failed, -⟩ := refused unencoded
  cases malformed
  exact failed

end SourceAudit.Source
