import SourceAudit.Proofs.CommentScanner
import SourceAudit.Proofs.Stages
import SourceAudit.Proofs.TextCutting

/-!
# Files that are skipped

A file is skipped when each of its lines looks idle, and a line looks idle by its beginning alone:
it is blank or starts with one of five marks.
-/

open List Option

namespace SourceAudit.Source

open SourceAudit.Text (cut?)

/-! ## Lines without code -/

def Blank (t : List Char) : Prop :=
  ∀ c ∈ t, Text.isBlank c = true

instance (t : List Char) : Decidable (Blank t) :=
  decidable_of_iff (t.all Text.isBlank = true) List.all_eq_true

def Fades (remark : List Char) : Prop :=
  Blank (dropLineComment (scanJoined false [] remark).1)

/-- A line without code; `inside` says whether it starts inside a block. -/
inductive CommentOnly : (inside : Bool) → List Char → Prop where
  | blank {ln : List Char} (blank : Blank ln) : CommentOnly false ln
  | remark {before remark : List Char} (blank : Blank before)
      (marked : lineComment <+: remark) (fades : Fades remark) :
      CommentOnly false (before ++ remark)
  | opened {before tl : List Char} (blank : Blank before) (block : CommentOnly true tl) :
      CommentOnly false (before ++ (blockStart ++ tl))
  | unclosed {ln : List Char} (hmiss : cut? blockEnd ln = none) : CommentOnly true ln
  | closed {ln inner tl : List Char} (hf : cut? blockEnd ln = some (inner, tl))
      (behind : CommentOnly false tl) : CommentOnly true ln

def startsFrom : (inside : Bool) → List (List Char) → List (Bool × List Char)
  | _, [] => []
  | inside, ln :: tl => (inside, ln) :: startsFrom (stripLine inside ln).2 tl

def lineStarts (ls : List (List Char)) : List (Bool × List Char) :=
  startsFrom false ls

variable {c : Char} {t : List Char}

theorem blank_cons : Blank (c :: t) ↔ Text.isBlank c = true ∧ Blank t := forall_mem_cons

theorem blank_append {pre back : List Char} : Blank (pre ++ back) ↔ Blank pre ∧ Blank back :=
  forall_mem_append

theorem ne_slash_of_blank (blank : Text.isBlank c = true) : c ≠ '/' := by
  rintro rfl
  cases blank

theorem Blank.slash_not_mem (blank : Blank t) : '/' ∉ t :=
  fun slash => ne_slash_of_blank (blank '/' slash) rfl

theorem cut?_slash_of_plain {b : Char} (hp : '/' ∉ t) : cut? ['/', b] t = none := by
  induction t with
  | nil => rfl
  | cons c t ih =>
    rw [cut?_pair_cons, if_neg, ih fun slash => hp (mem_cons_of_mem c slash)]
    · rfl
    · rintro ⟨rfl, _⟩
      exact hp mem_cons_self

theorem stripLine_append {before : List Char} (hp : '/' ∉ before) (t : List Char) :
    stripLine false (before ++ t) = (before ++ (stripLine false t).1, (stripLine false t).2) := by
  have head : before.reverse.head? ≠ some '/' := by
    intro slash
    exact hp (mem_reverse.mp (mem_of_mem_head? slash))
  have last : before.getLast? ≠ some '/' := by
    intro slash
    exact hp (mem_of_getLast? slash)
  have framed : scanJoined false ([] ++ before.reverse) t = _ := scanJoined_frame head
  rw [nil_append, reverse_reverse] at framed
  rw [stripLine, stripLine, dropBlocks_eq_scanJoined, dropBlocks_eq_scanJoined,
    scanJoined_of_bare (cut?_slash_of_plain hp), framed,
    dropLineComment_append (cut?_slash_of_plain hp) last]

theorem stripLine_opened (tl : List Char) :
    stripLine false (blockStart ++ tl) = stripLine true tl := by
  have opened : scanJoined false [] (blockStart ++ tl) = scanJoined true [] tl :=
    scanJoined_open [] tl
  rw [stripLine, stripLine, dropBlocks_eq_scanJoined, dropBlocks_eq_scanJoined, opened]

variable {ln : List Char}

theorem stripLine_unclosed (hmiss : cut? blockEnd ln = none) : stripLine true ln = ([], true) := by
  rw [stripLine, dropBlocks_eq_scanJoined, scanJoined_of_unclosed hmiss]
  rfl

theorem stripLine_closed {inner tl : List Char} (hf : cut? blockEnd ln = some (inner, tl)) :
    stripLine true ln = stripLine false tl := by
  rw [stripLine, stripLine, dropBlocks_eq_scanJoined, dropBlocks_eq_scanJoined,
    scanJoined_of_closed hf]

variable {inside : Bool}

theorem CommentOnly.blank_stripLine (only : CommentOnly inside ln) :
    Blank (stripLine inside ln).1 := by
  induction only with
  | @blank ln blank =>
    have whole := stripLine_append blank.slash_not_mem []
    rw [append_nil] at whole
    have empty : (stripLine false []).1 = [] := by
      rw [stripLine, dropBlocks_eq_scanJoined]
      rfl
    rw [whole, empty, append_nil]
    exact blank
  | remark blank _ fades =>
    rw [stripLine_append blank.slash_not_mem]
    rw [Fades, ← dropBlocks_eq_scanJoined] at fades
    exact blank_append.mpr ⟨blank, fades⟩
  | opened blank _ ih =>
    rw [stripLine_append blank.slash_not_mem, stripLine_opened]
    exact blank_append.mpr ⟨blank, ih⟩
  | unclosed hmiss =>
    rw [stripLine_unclosed hmiss]
    exact forall_mem_nil _
  | closed hf _ ih =>
    rw [stripLine_closed hf]
    exact ih

theorem CommentOnly.cons (blank : Text.isBlank c = true) (only : CommentOnly false ln) :
    CommentOnly false (c :: ln) := by
  cases only with
  | blank rest => exact .blank (blank_cons.mpr ⟨blank, rest⟩)
  | @remark before remark rest marked fades =>
    have longer : Blank (c :: before) := blank_cons.mpr ⟨blank, rest⟩
    exact CommentOnly.remark longer marked fades
  | @opened before t rest block =>
    have longer : Blank (c :: before) := blank_cons.mpr ⟨blank, rest⟩
    exact CommentOnly.opened longer block

theorem CommentOnly.skip (apart : c = '*' → ln.head? ≠ some '/') (only : CommentOnly true ln) :
    CommentOnly true (c :: ln) := by
  have step := cut?_pair_cons '*' '/' c ln
  rw [if_neg fun ends => apart ends.1 ends.2] at step
  cases only with
  | unclosed hmiss =>
    rw [blockEnd] at hmiss
    rw [hmiss] at step
    exact .unclosed step
  | closed hf behind =>
    rw [blockEnd] at hf
    rw [hf] at step
    exact .closed step behind

theorem commentOnly_of_scanLine {rg : Region} (started : rg ≠ .remark)
    (blank : Blank (scanLine rg t).1)
    (fades : ∀ remark, remark? rg t = some remark → Fades remark) :
    CommentOnly (rg == .block) t := by
  induction rg, t using scan_induction with
  | nil rg =>
    cases rg with
    | code => exact .blank blank
    | block => exact .unclosed rfl
    | remark => exact (started rfl).elim
  | opens t ih =>
    exact CommentOnly.opened (forall_mem_nil _) (ih nofun blank fades)
  | remark t =>
    exact CommentOnly.remark (forall_mem_nil _) ⟨t, rfl⟩ (fades _ (remark?_note t))
  | push c t hp ih =>
    rw [remark?_push hp] at fades
    rw [scanLine_push hp] at blank
    obtain ⟨h1, rest⟩ := blank_cons.mp blank
    exact CommentOnly.cons h1 (ih nofun rest fades)
  | closes t ih =>
    have hf : cut? blockEnd ('*' :: '/' :: t) = some ([], t) := rfl
    exact .closed hf (ih nofun blank fades)
  | skip c t apart ih =>
    rw [remark?_skip apart] at fades
    rw [scanLine_skip apart] at blank
    exact CommentOnly.skip apart (ih nofun blank fades)
  | rest c t => exact (started rfl).elim

theorem commentOnly_iff_blank_stripLine :
    CommentOnly inside ln ↔ Blank (stripLine inside ln).1 := by
  constructor
  · exact CommentOnly.blank_stripLine
  · intro blank
    rw [stripLine_eq, blank_append] at blank
    obtain ⟨code, comment⟩ := blank
    have started : Region.atStart inside ≠ .remark := by cases inside <;> nofun
    have hs : (Region.atStart inside == .block) = inside := by cases inside <;> rfl
    rw [← hs]
    refine commentOnly_of_scanLine started code fun remark met => ?_
    rw [leftover, met] at comment
    exact comment

theorem blank_stripFrom_iff {ls : List (List Char)} :
    (∀ code ∈ stripFrom inside ls, Blank code) ↔
      ∀ start ∈ startsFrom inside ls, CommentOnly start.1 start.2 := by
  induction ls generalizing inside with
  | nil => simp [stripFrom, startsFrom]
  | cons ln tl ih =>
    rw [stripFrom_cons, startsFrom, forall_mem_cons, forall_mem_cons, ih,
      commentOnly_iff_blank_stripLine]

theorem mem_of_mem_startsFrom {ls : List (List Char)} {start : Bool × List Char}
    (hm : start ∈ startsFrom inside ls) : start.2 ∈ ls := by
  induction ls generalizing inside with
  | nil => cases hm
  | cons ln tl ih =>
    rcases mem_cons.mp hm with hs | later
    · rw [hs]
      exact mem_cons_self
    · exact mem_cons_of_mem ln (ih later)

/-! ## Idle lines -/

theorem trim_isPrefix (ln : List Char) : Text.trim ln <+: ln.dropWhile Text.isBlank := by
  rw [← reverse_suffix, Text.trim, Text.trimWith, Text.trimRightWith, reverse_reverse]
  exact dropWhile_suffix _

theorem exists_of_startsWith_trim {w : List Char}
    (starts : Text.startsWith w (Text.trim ln) = true) :
    ∃ before tl, ln = before ++ (w ++ tl) ∧ Blank before := by
  obtain ⟨f, marked⟩ := isSome_iff_exists.mp starts
  obtain ⟨tail, trimmed⟩ := trim_isPrefix ln
  rw [Text.after?_eq_some marked, append_assoc] at trimmed
  refine ⟨ln.takeWhile Text.isBlank, f ++ tail, ?_, ?_⟩
  · rw [trimmed, takeWhile_append_dropWhile]
  · exact fun c hm => mem_takeWhile_imp hm

theorem blank_of_trim (empty : Text.trim ln = []) : Blank ln := by
  rw [Text.trim, Text.trimWith, Text.trimRightWith, reverse_eq_nil_iff,
    dropWhile_eq_nil_iff] at empty
  rw [← takeWhile_append_dropWhile (p := Text.isBlank) (l := ln)]
  refine blank_append.mpr ⟨fun c hm => mem_takeWhile_imp hm, fun c hm => ?_⟩
  exact empty c (mem_reverse.mpr hm)

theorem not_commentOnly_of_plain {before tl : List Char} (blank : Blank before) (hp : c ≠ '/')
    (visible : Text.isBlank c = false) : ¬ CommentOnly false (before ++ c :: tl) := by
  intro only
  have left := only.blank_stripLine
  have single : '/' ∉ [c] := by simpa using hp.symm
  rw [stripLine_append blank.slash_not_mem, ← singleton_append, stripLine_append single] at left
  have shown := left c (by simp)
  rw [visible] at shown
  cases shown

theorem occurs_of_append {a b : Char} {pre : List Char}
    (bare : Text.occurs [a, b] (pre ++ t) = false) : Text.occurs [a, b] t = false := by
  induction pre with
  | nil => exact bare
  | cons c pre ih =>
    apply ih
    rw [Text.occurs, cons_append, cut?_pair_cons] at bare
    split_ifs at bare with here
    · cases bare
    · rw [isSome_map] at bare
      exact bare

theorem isIdleLine_ofList (ln : List Char) :
    Analysis.isIdleLine (String.ofList ln) = ((Text.trim ln).isEmpty ||
        [['#'], lineComment, blockStart, ['*'], blockEnd].any fun mark =>
          Text.startsWith mark (Text.trim ln)) := by
  have empty : (String.ofList (Text.trim ln)).isEmpty = (Text.trim ln).isEmpty := by
    rw [Bool.eq_iff_iff, String.isEmpty_iff, List.isEmpty_iff, String.ofList_eq_empty_iff]
  simp [Analysis.isIdleLine, Str.trim, Str.startsWith, lineComment, blockStart, blockEnd, empty]

theorem commentOnly_iff_of_idle (idle : Analysis.isIdleLine (String.ofList ln) = true)
    (bare : Text.occurs blockStart ln = false) :
    CommentOnly false ln ↔
      Text.startsWith ['#'] (Text.trim ln) = false ∧
        Text.startsWith ['*'] (Text.trim ln) = false := by
  constructor
  · intro only
    have visible : ∀ c, c ≠ '/' → Text.isBlank c = false →
        Text.startsWith [c] (Text.trim ln) = false := by
      intro c hp shown
      refine Bool.eq_false_iff.mpr fun starts => ?_
      obtain ⟨before, tl, rfl, blank⟩ := exists_of_startsWith_trim starts
      exact not_commentOnly_of_plain blank hp shown only
    exact ⟨visible '#' (by decide) (by decide), visible '*' (by decide) (by decide)⟩
  · rintro ⟨noHash, noStar⟩
    rw [isIdleLine_ofList, Bool.or_eq_true, List.any_eq_true] at idle
    rcases idle with empty | ⟨mark, hm, starts⟩
    · exact .blank (blank_of_trim (List.isEmpty_iff.mp empty))
    · simp only [mem_cons, not_mem_nil, or_false] at hm
      rcases hm with rfl | rfl | rfl | rfl | rfl
      · rw [noHash] at starts
        cases starts
      · obtain ⟨before, tl, rfl, blank⟩ := exists_of_startsWith_trim starts
        have inert := inert_of_bare ⟨tl, rfl⟩ (occurs_of_append bare)
        refine .remark blank ⟨tl, rfl⟩ ?_
        rw [Fades, inert.1]
        exact forall_mem_nil _
      · obtain ⟨before, tl, rfl, _⟩ := exists_of_startsWith_trim starts
        cases occurs_of_append bare
      · rw [noStar] at starts
        cases starts
      · obtain ⟨tl, marked⟩ := isSome_iff_exists.mp starts
        rw [Text.after?_eq_some marked] at noStar
        cases noStar

end SourceAudit.Source

namespace SourceAudit.Analysis

open Outside
open SourceAudit.Source

/-! ## Skipped files -/

def fileLines (c : List UInt8) : List (List Char) :=
  Text.splitNewline (Audit.unify (Text.Utf8.decodeSkipping c)).toList

def Available (s : Session) (p : String) (c : List UInt8) : Prop :=
  (Audit.lookup p).perform s = (.ok (some (.file c)), s) ∧
    (c = [] ∨ (Audit.checkOpen p).perform s = (.ok (), s))

theorem all_readLinesFrom (P : List Char → Bool)
    (he : ∀ ln, P (ln ++ ['\n']) = P ln) (empty : P [] = true) (ln t : List Char) :
    (Text.readLinesFrom ln t).all P = (Text.splitNewlineFrom ln t).all P := by
  induction t generalizing ln with
  | nil =>
    rw [Text.readLinesFrom, Text.splitNewlineFrom]
    cases ln with
    | nil => simp [empty]
    | cons c ln => rfl
  | cons c t ih =>
    rw [Text.readLinesFrom, Text.splitNewlineFrom]
    split_ifs with newline
    · rw [all_cons, all_cons, ih, reverse_cons, newline, he]
    · exact ih (c :: ln)

theorem isIdleLine_nil : isIdleLine (String.ofList []) = true := by
  rw [isIdleLine_ofList]
  rfl

theorem isIdleLine_newline (ln : List Char) :
    isIdleLine (String.ofList (ln ++ ['\n'])) = isIdleLine (String.ofList ln) := by
  rw [isIdleLine_ofList, isIdleLine_ofList, Text.trim_concat_of_blank (by decide)]

theorem all_readLines (t : String) :
    (Str.readLines t).all isIdleLine = true ↔
      ∀ ln ∈ Text.splitNewline t.toList, isIdleLine (String.ofList ln) = true := by
  have hs := all_readLinesFrom (fun ln => isIdleLine (.ofList ln)) isIdleLine_newline
    isIdleLine_nil [] t.toList
  rw [Text.splitNewline, ← List.all_eq_true, ← hs, Str.readLines, List.all_map, Text.readLines,
    Function.comp_def]

theorem perform_lookup (p : String) (s : Session) :
    ∃ e, (Audit.lookup p).perform s = (.ok e, s) := by
  rw [Audit.lookup, Audit.perform_get_bind]
  split
  · exact ⟨none, rfl⟩
  · split <;> exact ⟨_, rfl⟩

theorem perform_readTextSkipping_eq_ok {p t : String} {s s' : Session} :
    (Audit.readTextSkipping p).perform s = (.ok t, s') ↔
      ∃ c, (Audit.lookup p).perform s = (.ok (some (.file c)), s) ∧
          (Audit.checkOpen p).perform s = (.ok (), s) ∧
            t = Audit.unify (Text.Utf8.decodeSkipping c) ∧ s' = s := by
  constructor
  · intro hd
    obtain ⟨bytes, mid, hr, he⟩ := Audit.perform_bind_eq_ok.mp hd
    obtain ⟨_, opened, hb, loaded⟩ := Audit.perform_bind_eq_ok.mp hr
    obtain ⟨e, hf, looked, taken⟩ := Audit.perform_bind_eq_ok.mp loaded
    have hs := Audit.Looks.eq (.checkOpen p) hb
    have still := Audit.Looks.eq (.lookup p) looked
    subst hs still
    split at taken
    · cases taken
      cases he
      exact ⟨_, looked, hb, rfl, rfl⟩
    · cases taken
    · obtain ⟨_, _, _, failed⟩ := Audit.perform_bind_eq_ok.mp taken
      cases failed
  · rintro ⟨c, hf, opened, rfl, rfl⟩
    have hr : (Audit.readBytes p).perform s' = (.ok c, s') := by
      rw [Audit.readBytes, Audit.perform_bind_ok opened, Audit.loadBytes, Audit.perform_bind_ok hf]
      rfl
    rw [Audit.readTextSkipping, Audit.perform_bind_ok hr]
    rfl

theorem perform_isIdle (p : String) (s : Session) :
    ∃ idle, (isIdle p).perform s = (.ok idle, s) ∧ (idle = true ↔ ∃ c, Available s p c ∧
          ∀ ln ∈ fileLines c, isIdleLine (String.ofList ln) = true) := by
  obtain ⟨e, hf⟩ := perform_lookup p s
  rw [isIdle, Audit.perform_bind_ok hf]
  split
  · refine ⟨false, rfl, nofun, ?_⟩
    rintro ⟨c, ⟨ht, _⟩, _⟩
    rw [hf] at ht
    cases ht
  · refine ⟨true, rfl, fun _ => ⟨[], ⟨hf, Or.inl rfl⟩, ?_⟩, fun _ => rfl⟩
    have lines : fileLines [] = [[]] := rfl
    rw [lines]
    simpa using isIdleLine_nil
  · next e hne =>
    rcases hr : (Audit.readTextSkipping p).perform s with ⟨out, s'⟩
    have hs := Audit.Looks.eq (.readTextSkipping p) hr
    subst hs
    rw [Audit.perform_attempt_bind hr]
    cases out with
    | ok t =>
      obtain ⟨c, ht, opened, rfl, _⟩ := perform_readTextSkipping_eq_ok.mp hr
      refine ⟨_, rfl, ?_⟩
      rw [all_readLines]
      constructor
      · intro idle
        exact ⟨c, ⟨ht, Or.inr opened⟩, idle⟩
      · rintro ⟨other, ⟨again, _⟩, idle⟩
        rw [ht] at again
        cases again
        exact idle
    | error err =>
      refine ⟨false, rfl, nofun, ?_⟩
      rintro ⟨c, ⟨ht, empty | opened⟩, _⟩
      · rw [hf, empty] at ht
        cases ht
        exact (hne rfl).elim
      · rw [perform_readTextSkipping_eq_ok.mpr ⟨c, ht, opened, rfl, rfl⟩] at hr
        cases hr

/-! ### The analysis of a file -/

theorem skipped_analyzeFile_iff
    {p : String} {cfg : Option Value} {s s' : Session} {res : FileResults}
    (hans : (analyzeFile p cfg).perform s = (.ok res, s')) :
    res.skipped = some "empty or comment-only file" ↔
      ∃ c, Available s p c ∧ ∀ ln ∈ fileLines c, isIdleLine (String.ofList ln) = true := by
  obtain ⟨loaded, mid, idle, looked, configured, hk, he⟩ := analyzeFile_cases hans
  have hs := (looks_configOr cfg).eq configured
  subst hs
  obtain ⟨flag, decided, decides⟩ := perform_isIdle p mid
  rw [hk] at decided
  cases decided
  rw [← decides]
  rcases he with ⟨rfl, rfl⟩ | ⟨rfl, kept, _⟩
  · exact ⟨fun _ => rfl, fun _ => rfl⟩
  · rw [kept]
    exact ⟨nofun, nofun⟩

/--
A file is skipped exactly when all of its lines are idle, and a skipped file is free of code exactly
when all of its lines are in the grammar of comments.  For a line without blocks this fails exactly
when the line starts with one of the marks that open no comment.
-/
theorem skipped_iff_idle_codeFree_iff_commentOnly
    {path : String} {config : Option Value} {session after : Session} {results : FileResults}
    (answered : (analyzeFile path config).perform session = (.ok results, after)) :
    (results.skipped = some "empty or comment-only file" ↔
      ∃ content, Available session path content ∧
        ∀ line ∈ fileLines content, isIdleLine (String.ofList line) = true) ∧
    ∀ content, Available session path content →
      results.skipped = some "empty or comment-only file" →
        ((∀ code ∈ stripLines (fileLines content), Blank code) ↔
          ∀ start ∈ lineStarts (fileLines content), CommentOnly start.1 start.2) ∧
        ∀ line, (false, line) ∈ lineStarts (fileLines content) →
          Text.occurs blockStart line = false → (CommentOnly false line ↔
              Text.startsWith ['#'] (Text.trim line) = false ∧
                Text.startsWith ['*'] (Text.trim line) = false) := by
  have exactly := skipped_analyzeFile_iff answered
  refine ⟨exactly, fun content available skipped => ⟨blank_stripFrom_iff, ?_⟩⟩
  intro line member bare
  obtain ⟨other, ⟨there, _⟩, idle⟩ := exactly.mp skipped
  rw [available.1] at there
  cases there
  exact commentOnly_iff_of_idle (idle line (mem_of_mem_startsFrom member)) bare

def codeBehindBlock : List UInt8 :=
  [0x2F, 0x2A, 0x2A, 0x2F, 0x78]

/-- The file is skipped, but its line leaves code and is not in the grammar. -/
theorem skipped_with_code_behind_block :
    ∃ after, (analyzeFile "a.go" (some (.record []))).perform (.holding "a.go" codeBehindBlock) =
          (.ok (idleResults "a.go"), after) ∧
        stripLines (fileLines codeBehindBlock) = [['x']] ∧
        ¬ ∀ start ∈ lineStarts (fileLines codeBehindBlock), CommentOnly start.1 start.2 := by
  have answered :
      (analyzeFile "a.go" (some (.record []))).perform (.holding "a.go" codeBehindBlock) =
        (.ok (idleResults "a.go"), _) := rfl
  have available : Available (.holding "a.go" codeBehindBlock) "a.go" codeBehindBlock :=
    ⟨rfl, Or.inr rfl⟩
  have lines : fileLines codeBehindBlock = [['/', '*', '*', '/', 'x']] := rfl
  have left : stripLines (fileLines codeBehindBlock) = [['x']] := by
    rw [lines]
    cbv
  refine ⟨_, answered, left, fun only => ?_⟩
  have codeFree :=
    ((skipped_iff_idle_codeFree_iff_commentOnly answered).2 codeBehindBlock available rfl).1.mpr only
  rw [left] at codeFree
  exact absurd (codeFree ['x'] List.mem_cons_self) (by decide)

end SourceAudit.Analysis
