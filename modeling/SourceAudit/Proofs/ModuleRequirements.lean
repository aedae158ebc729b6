import SourceAudit.Dependencies.Manifest
import SourceAudit.Proofs.TextWords
import Mathlib

/-!
# Requirements of a module file

A module file requires its modules one by one or in blocks. Every line of a block that has words
counts as a requirement, and the keyword is removed wherever it stands.
-/

open List Option

namespace SourceAudit.Dependencies.ModuleFile

open SourceAudit.Text

/-! ## Module files -/

def keyword : List Char :=
  ['r', 'e', 'q', 'u', 'i', 'r', 'e']

def slashes : List Char :=
  ['/', '/']

abbrev Word :=
  { t : List Char // t ≠ [] ∧ Solid t ∧ '(' ∉ t ∧ occurs slashes t = false }

abbrev Indent :=
  { t : List Char // ∀ c ∈ t, isBlank c = true }

structure Requirement where
  path : Word
  gap : Nat
  version : Word
  space : Nat
  comment : Option (List Char)

namespace Requirement

variable (req : Requirement)

def tail : List Char :=
  replicate req.space ' ' ++ (req.comment.map (slashes ++ ·)).getD []

def text : List Char :=
  req.path ++ ' ' ::
    (replicate req.gap ' ' ++ (req.version ++ req.tail))

def declared : Dependency :=
  { name := .ofList req.path, version := .ofList req.version, source := "go.mod" }

/-- The keyword stands in neither word, and the comment does not touch the version. -/
def Plain : Prop :=
  occurs keyword req.path = false ∧ occurs keyword req.version = false ∧
    (req.space = 0 → req.comment = none)

end Requirement

inductive Entry where
  | blank (indent : Indent)
  | comment (indent : Indent) (t : List Char)
  | required (indent : Indent) (req : Requirement)

namespace Entry

def text : Entry → List Char
  | .blank indent => indent
  | .comment indent t => indent ++ (slashes ++ t)
  | .required indent req => indent ++ req.text

def declared? : Entry → Option Dependency
  | .required _ req => some req.declared
  | _ => none

def Plain : Entry → Prop
  | .blank _ => True
  | .comment _ _ => False
  | .required _ req => req.Plain

end Entry

inductive Statement where
  | directive (nms : Bool) (t : List Char)
  | blank (indent : Indent)
  | comment (indent : Indent) (t : List Char)
  | single (req : Requirement)
  | block (es : List Entry)

namespace Statement

def lines : Statement → List (List Char)
  | .directive nms t => [(if nms then "module".toList else "go".toList) ++ ' ' :: t]
  | .blank indent => [indent]
  | .comment indent t => [indent ++ (slashes ++ t)]
  | .single req => [keyword ++ ' ' :: req.text]
  | .block es => "require (".toList :: (es.map Entry.text ++ [[')']])

def entries : Statement → List Entry
  | .single req => [.required ⟨[], by simp⟩ req]
  | .block es => es
  | _ => []

end Statement

/-! ## Words of a line -/

def parts (ln : List Char) : List (List Char) :=
  words (remove keyword ln)

variable {c : Char} {ln t : List Char}

theorem notMem_keyword (blank : isBlank c = true) : c ∉ keyword := by
  have solid : Solid keyword := by decide
  intro hm
  rw [solid c hm] at blank
  cases blank

theorem parts_append_cons (blank : isBlank c = true) (pre tl : List Char) :
    parts (pre ++ c :: tl) = parts pre ++ parts tl := by
  rw [parts, remove_append_cons (notMem_keyword blank) (by decide), words_append_cons blank]
  rfl

theorem parts_cons_blank (c : Char) (tl : List Char) (blank : isBlank c = true) :
    parts (c :: tl) = parts tl :=
  parts_append_cons blank [] tl

theorem parts_trim (ln : List Char) : parts (trim ln) = parts ln := apply_trim parts_cons_blank
    (fun _ t blank => (parts_append_cons blank t []).trans (append_nil _)) ln

theorem remove_slashes (pre t : List Char) :
    remove keyword (pre ++ (slashes ++ t)) =
      remove keyword pre ++ (slashes ++ remove keyword t) := by
  have hfor : '/' ∉ keyword := by decide
  have again := remove_append_cons hfor (by decide) [] t
  rw [slashes, cons_append, remove_append_cons hfor (by decide)]
  exact congrArg (remove keyword pre ++ '/' :: ·) again

theorem blank_replicate (n : Nat) : ∀ c ∈ replicate n ' ', isBlank c = true := by
  simp [mem_replicate, isBlank]

/-- No word, or a first word with a comment in it. -/
def Marked (words : List (List Char)) : Prop :=
  ∀ w ∈ words.head?, occurs slashes w = true

theorem exists_parts_slashes (solid : Solid (remove keyword t)) (tl : List Char) :
    ∃ w others, parts (t ++ (slashes ++ tl)) = w :: others ∧ occurs slashes w = true := by
  have front : Solid (remove keyword t ++ slashes) := by
    intro c hm
    rcases mem_append.mp hm with hi | slash
    · exact solid c hi
    · have visible : Solid slashes := by decide
      exact visible c slash
  rw [parts, remove_slashes, ← append_assoc, words_append (by simp [slashes]) front]
  refine ⟨_, _, rfl, occurs_append ?_ _⟩
  rw [occurs, isSome_iff_ne_none]
  simpa using cut?_ne_none (remove keyword t) slashes []

theorem marked_comment (t : List Char) : Marked (parts (slashes ++ t)) := by
  obtain ⟨w, others, hr, marked⟩ := @exists_parts_slashes [] (by decide) t
  rw [nil_append] at hr
  simp [Marked, hr, marked]

theorem solid_remove (w : Word) : Solid (remove keyword w) :=
  fun c hm => w.2.2.1 c ((remove_sublist (by decide) _).mem hm)

theorem parts_word (w : Word) :
    parts w = if (remove keyword w).isEmpty then [] else [remove keyword w] := by
  rw [parts]
  split_ifs with empty
  · rw [List.isEmpty_iff.mp empty]
    rfl
  · exact words_solid (by simpa using empty) (solid_remove w)

theorem parts_touching (req : Requirement) (touching : req.space = 0)
    {comment : List Char} (commented : req.comment = some comment) :
    ∃ w others, parts (req.version ++ req.tail) = w :: others ∧ occurs slashes w = true := by
  rw [Requirement.tail, touching, commented]
  exact exists_parts_slashes (solid_remove req.version) comment

theorem parts_apart (req : Requirement) (apart : req.space = 0 → req.comment = none) :
    ∃ others, parts (req.version ++ req.tail) = parts req.version ++ others ∧ Marked others := by
  rw [Requirement.tail]
  cases space : req.space with
  | zero =>
    rw [apart space]
    exact ⟨[], by simp, by simp [Marked]⟩
  | succ n =>
    rw [replicate_succ, cons_append]
    refine ⟨_, parts_append_cons rfl _ _, ?_⟩
    rw [apply_indent parts_cons_blank (blank_replicate n)]
    cases req.comment with
    | none => exact fun w h1 => by cases h1
    | some t => exact marked_comment t

theorem moduleLine?_eq (ln : List Char) : moduleLine? ln = (parts ln).head?.map fun p =>
    { name := .ofList p
      version := .ofList ((parts ln).tail.head?.getD unknown.toList)
      source := "go.mod" } := by
  rw [moduleLine?, show words (replace "require".toList [] ln) = parts ln from rfl]
  cases parts ln with
  | nil => rfl
  | cons p tl => cases tl <;> simp [unknown]

theorem parts_text (req : Requirement) : parts req.text =
    parts req.path ++ parts (req.version ++ req.tail) := by
  rw [Requirement.text, parts_append_cons rfl, apply_indent parts_cons_blank (blank_replicate _)]

theorem moduleLine?_indent (indent : Indent) (t : List Char) :
    moduleLine? (indent ++ t) = moduleLine? t := by
  rw [moduleLine?_eq, apply_indent parts_cons_blank indent.2, ← moduleLine?_eq]

theorem moduleLine?_blank (indent : Indent) : moduleLine? indent = none := by
  rw [← append_nil indent.1, moduleLine?_indent]
  rfl

theorem moduleLine?_comment (t : List Char) : ∃ dep,
    moduleLine? (slashes ++ t) = some dep ∧ occurs slashes dep.name.toList = true := by
  obtain ⟨w, others, hr, marked⟩ := @exists_parts_slashes [] (by decide) t
  rw [nil_append] at hr
  exact ⟨_, by rw [moduleLine?_eq, hr]; rfl, by simpa using marked⟩

theorem remove_unknown : remove keyword unknown.toList = unknown.toList := by
  decide +kernel

theorem moduleLine?_eq_declared (req : Requirement) :
    moduleLine? req.text = some req.declared ↔ (parts req.text).head? = some req.path.1 ∧
        (parts req.text).tail.head?.getD unknown.toList = req.version.1 := by
  simp [moduleLine?_eq, Requirement.declared, map_eq_some_iff, String.ofList_inj]

theorem moduleLine?_text (req : Requirement) :
    moduleLine? req.text = some req.declared ↔ req.Plain := by
  obtain ⟨pathNonempty, _, _, pathPlain⟩ := req.path.2
  obtain ⟨versionNonempty, _, _, versionPlain⟩ := req.version.2
  rw [moduleLine?_eq_declared, Requirement.Plain, ← remove_eq_self_iff (by decide),
    ← remove_eq_self_iff (by decide), parts_text, parts_word]
  by_cases apart : req.space = 0 → req.comment = none
  · obtain ⟨others, hr, marked⟩ := parts_apart req apart
    -- a version that is not read has to be the default
    have default (h2 : others.head?.getD unknown.toList = req.version) :
        req.version.1 = unknown.toList := by
      cases h1 : others.head? with
      | none => rw [← h2, h1]; rfl
      | some w =>
        rw [h1] at h2
        rw [← h2, getD_some, marked w h1] at versionPlain
        cases versionPlain
    rw [hr, parts_word]
    have kept : unknown.toList ≠ [] := by decide +kernel
    split_ifs with pathGone versionGone versionGone <;> rw [List.isEmpty_iff] at pathGone versionGone
    · refine iff_of_false (fun both => ?_) fun hp => pathNonempty (hp.1.symm.trans pathGone)
      rw [marked _ both.1] at pathPlain
      cases pathPlain
    · refine iff_of_false (fun both => ?_) fun hp => pathNonempty (hp.1.symm.trans pathGone)
      have path : remove keyword req.version = req.path.1 := by simpa using both.1
      rw [default both.2, remove_unknown] at path
      rw [← path, remove_unknown] at pathGone
      exact kept pathGone
    · refine iff_of_false (fun both => ?_) fun hp =>
        versionNonempty (hp.2.1.symm.trans versionGone)
      rw [default both.2, remove_unknown] at versionGone
      exact kept versionGone
    · simpa using fun _ _ => apart
  · rw [Classical.not_imp, ← ne_eq, ne_none_iff_exists'] at apart
    obtain ⟨touching, comment, commented⟩ := apart
    obtain ⟨w, others, hr, marked⟩ := parts_touching req touching commented
    refine iff_of_false ?_ fun hp => by simp [hp.2.2 touching] at commented
    rw [hr]
    rintro ⟨h1, h2⟩
    split_ifs at h1 h2
    · obtain rfl : w = req.path := by simpa using h1
      rw [marked] at pathPlain
      cases pathPlain
    · obtain rfl : w = req.version := by simpa using h2
      rw [marked] at versionPlain
      cases versionPlain

/-! ## The lines of a file -/

theorem words_opening : words "require (".toList = [keyword, ['(']] := by
  decide +kernel

theorem moduleFileFrom_outside (ho : (words ln).head? ≠ some keyword) (tl : List (List Char)) :
    moduleFileFrom false (ln :: tl) = moduleFileFrom false tl := by
  rw [← words_trim] at ho
  have opens : trim ln ≠ "require (".toList := by
    intro hs
    rw [hs, words_opening] at ho
    exact ho rfl
  have starts : startsWith "require ".toList (trim ln) = false := by
    by_contra starts
    rw [Bool.not_eq_false] at starts
    obtain ⟨behind, hb⟩ := isSome_iff_exists.mp starts
    have shape := after?_eq_some hb
    rw [shape, show "require ".toList ++ behind = keyword ++ ' ' :: behind from rfl,
      words_append_cons rfl, words_solid (by decide) (by decide)] at ho
    exact ho rfl
  rw [moduleFileFrom, if_neg opens, if_neg (by simp), starts, if_neg (by simp)]

theorem moduleFileFrom_inside (opens : words ln ≠ [keyword, ['(']])
    (closes : words ln ≠ [[')']]) (tl : List (List Char)) :
    moduleFileFrom true (ln :: tl) = (moduleLine? ln).toList ++ moduleFileFrom true tl := by
  rw [← words_trim] at opens closes
  have stays : trim ln ≠ "require (".toList ∧ trim ln ≠ [')'] := by
    constructor <;> intro hs
    · rw [hs] at opens
      exact opens words_opening
    · rw [hs] at closes
      exact closes rfl
  have hr : moduleLine? (trim ln) = moduleLine? ln := by
    rw [moduleLine?_eq, moduleLine?_eq, parts_trim]
  rw [moduleFileFrom, if_neg stays.1, if_neg (by simp [stays.2]), if_pos (Or.inl rfl), hr]

theorem words_indent (indent : Indent) (t : List Char) : words (indent ++ t) = words t :=
  apply_indent (fun _ _ blank => words_cons_blank blank _) indent.2 t

theorem words_blank (indent : Indent) : words indent = [] := by
  rw [← append_nil indent.1, words_indent]
  rfl

theorem words_comment (indent : Indent) (t : List Char) :
    (words (indent ++ (slashes ++ t))).head? = some (slashes ++ t.takeWhile (!isBlank ·)) := by
  rw [words_indent, words_append (by decide) (by decide)]
  rfl

theorem words_text (req : Requirement) : words req.text =
    req.path.1 :: (req.version.1 ++ req.tail.takeWhile (!isBlank ·)) ::
      words (req.tail.dropWhile (!isBlank ·)) := by
  rw [Requirement.text, words_append_cons rfl, words_solid req.path.2.1 req.path.2.2.1,
    apply_indent (fun _ _ blank => words_cons_blank blank _) (blank_replicate _),
    words_append req.version.2.1 req.version.2.2.1]
  rfl

theorem moduleFileFrom_single (req : Requirement) (tl : List (List Char)) :
    moduleFileFrom false ((keyword ++ ' ' :: req.text) :: tl) =
      (moduleLine? req.text).toList ++ moduleFileFrom false tl := by
  obtain ⟨c, p, shape⟩ := exists_cons_of_ne_nil req.path.2.1
  have visible : isBlank c = false := req.path.2.2.1 c (shape ▸ mem_cons_self)
  obtain ⟨tail, whole⟩ : ∃ tail, req.text = c :: tail :=
    ⟨_, by rw [Requirement.text, shape, cons_append]⟩
  have trimmed : trim (keyword ++ ' ' :: req.text) =
      "require ".toList ++ c :: trimRightWith isBlank tail := by
    rw [whole]
    exact (trim_cons_of_solid rfl _).trans
      (congrArg ('r' :: ·) (trimRightWith_append_cons visible (keyword.tail ++ [' ']) tail))
  have opens : trim (keyword ++ ' ' :: req.text) ≠ "require (".toList := by
    intro hs
    rw [trimmed] at hs
    have h1 : c = '(' := (List.cons.inj (append_cancel_left hs)).1
    exact req.path.2.2.2.1 (by rw [shape, h1]; exact mem_cons_self)
  have starts : startsWith "require ".toList (trim (keyword ++ ' ' :: req.text)) = true := by
    rw [trimmed, startsWith, after?_append]
    rfl
  have hr : moduleLine? (trim (keyword ++ ' ' :: req.text)) = moduleLine? req.text := by
    have removed : parts keyword = [] := by decide +kernel
    rw [moduleLine?_eq, moduleLine?_eq, parts_trim, parts_append_cons rfl, removed]
    rfl
  rw [moduleFileFrom, if_neg opens, if_neg (by simp), starts, if_pos (Or.inr rfl), hr]

theorem moduleFileFrom_entry (e : Entry) (tl : List (List Char)) :
    moduleFileFrom true (e.text :: tl) = (moduleLine? e.text).toList ++ moduleFileFrom true tl := by
  cases e with
  | blank indent =>
    apply moduleFileFrom_inside <;> simp [Entry.text, words_blank]
  | comment indent t =>
    have h1 := words_comment indent t
    apply moduleFileFrom_inside <;> intro hs <;> rw [Entry.text] at hs <;> rw [hs] at h1 <;>
      simp [slashes, keyword] at h1
  | required indent req =>
    apply moduleFileFrom_inside <;> rw [Entry.text, words_indent, words_text]
    · intro hs
      have h2 := (List.cons.inj (List.cons.inj hs).2).1
      obtain ⟨c, ver, shape⟩ := exists_cons_of_ne_nil req.version.2.1
      rw [shape, cons_append] at h2
      have open_mem : '(' ∈ req.version.1 := by
        rw [shape, (List.cons.inj h2).1]
        exact mem_cons_self
      exact req.version.2.2.2.1 open_mem
    · simp

theorem moduleFileFrom_block (es : List Entry) (tl : List (List Char)) :
    moduleFileFrom true (es.map Entry.text ++ [')'] :: tl) =
      (es.flatMap fun e => (moduleLine? e.text).toList) ++ moduleFileFrom false tl := by
  induction es with
  | nil => rw [map_nil, nil_append, moduleFileFrom, if_neg (by decide), if_pos (by decide)]; rfl
  | cons e es ih =>
    rw [map_cons, cons_append, moduleFileFrom_entry, ih, flatMap_cons, append_assoc]

theorem moduleFileFrom_statement (stmt : Statement) (tl : List (List Char)) :
    moduleFileFrom false (stmt.lines ++ tl) =
      (stmt.entries.flatMap fun e => (moduleLine? e.text).toList) ++ moduleFileFrom false tl := by
  cases stmt with
  | directive nms t =>
    refine moduleFileFrom_outside ?_ tl
    cases nms <;> rw [words_append_cons rfl, words_solid (by decide) (by decide)] <;>
      simp [keyword]
  | blank indent =>
    exact moduleFileFrom_outside (by simp [words_blank]) tl
  | comment indent t =>
    refine moduleFileFrom_outside ?_ tl
    rw [words_comment]
    simp [slashes, keyword]
  | single req =>
    rw [Statement.lines, singleton_append, moduleFileFrom_single, Statement.entries,
      flatMap_singleton]
    rfl
  | block es =>
    have opened (tl : List (List Char)) :
        moduleFileFrom false ("require (".toList :: tl) = moduleFileFrom true tl := by
      rw [moduleFileFrom, if_pos (by decide +kernel)]
    rw [Statement.lines, cons_append, opened, append_assoc, singleton_append, moduleFileFrom_block]
    rfl

theorem moduleFile_lines (stmts : List Statement) :
    moduleFile (stmts.flatMap Statement.lines) =
      (stmts.flatMap Statement.entries).filterMap (moduleLine? ·.text) := by
  rw [filterMap_eq_flatMap_toList]
  induction stmts with
  | nil => rfl
  | cons stmt stmts ih =>
    rw [flatMap_cons, flatMap_cons, flatMap_append, ← ih]
    exact moduleFileFrom_statement stmt _

theorem eq_of_filterMap_eq {α β : Type} {f g : α → Option β} {xs : List α}
    (within : ∀ x ∈ xs, (f x).isSome = true → (g x).isSome = true)
    (hs : xs.filterMap f = xs.filterMap g) : ∀ x ∈ xs, f x = g x := by
  induction xs with
  | nil => exact fun x hm => by cases hm
  | cons x xs ih =>
    rw [forall_mem_cons] at within ⊢
    cases hr : f x with
    | some v =>
      obtain ⟨other, hk⟩ := isSome_iff_exists.mp (within.1 (by simp [hr]))
      rw [filterMap_cons_some hr, filterMap_cons_some hk] at hs
      obtain ⟨rfl, later⟩ := List.cons.inj hs
      exact ⟨hk.symm, ih within.2 later⟩
    | none =>
      rw [filterMap_cons_none hr] at hs
      cases hk : g x with
      | none =>
        rw [filterMap_cons_none hk] at hs
        exact ⟨rfl, ih within.2 hs⟩
      | some v =>
        rw [filterMap_cons_some hk] at hs
        have fewer : (xs.filterMap f).length ≤ (xs.filterMap g).length := by
          rw [length_filterMap_eq_countP, length_filterMap_eq_countP]
          exact countP_mono_left within.2
        rw [hs, length_cons] at fewer
        omega

theorem moduleFile_requirements (statements : List Statement) :
    moduleFile (statements.flatMap Statement.lines) =
        (statements.flatMap Statement.entries).filterMap (moduleLine? ·.text) ∧
      (moduleFile (statements.flatMap Statement.lines) =
          (statements.flatMap Statement.entries).filterMap Entry.declared? ↔
        ∀ statement ∈ statements, ∀ entry ∈ statement.entries, entry.Plain) := by
  refine ⟨moduleFile_lines statements, ?_⟩
  rw [moduleFile_lines, ← List.forall_mem_flatMap]
  constructor
  · intro same
    have uncommented {indent : Indent} {text : List Char} :
        Entry.comment indent text ∉ statements.flatMap Statement.entries := by
      intro member
      obtain ⟨dependency, read, marked⟩ := moduleLine?_comment text
      have found : dependency ∈ (statements.flatMap Statement.entries).filterMap
          (moduleLine? ·.text) :=
        List.mem_filterMap.mpr ⟨_, member, (moduleLine?_indent indent _).trans read⟩
      rw [same, List.mem_filterMap] at found
      obtain ⟨entry, _, declared⟩ := found
      cases entry with
      | blank indent => cases declared
      | comment indent text => cases declared
      | required indent requirement =>
        cases declared
        rw [Requirement.declared, String.toList_ofList, requirement.path.2.2.2.2] at marked
        cases marked
    have pointwise := eq_of_filterMap_eq (fun entry member read => ?_) same
    · intro entry member
      have known := pointwise entry member
      cases entry with
      | blank indent => trivial
      | comment indent text => exact uncommented member
      | required indent requirement =>
        exact (moduleLine?_text requirement).mp ((moduleLine?_indent indent _).symm.trans known)
    · cases entry with
      | blank indent => rw [Entry.text, moduleLine?_blank] at read; cases read
      | comment indent text => exact absurd member uncommented
      | required indent requirement => rfl
  · intro plain
    refine List.filterMap_congr fun entry member => ?_
    have plain := plain entry member
    cases entry with
    | blank indent => exact moduleLine?_blank indent
    | comment indent text => cases plain
    | required indent requirement =>
      exact (moduleLine?_indent indent _).trans ((moduleLine?_text requirement).mpr plain)

end SourceAudit.Dependencies.ModuleFile
