import SourceAudit.Monitor.Hook
import SourceAudit.Proofs.LogEntries
import SourceAudit.Proofs.TextCutting
import Mathlib

/-!
# File operations in a log

A hook writes a file operation as one entry, with the path, the mode and the call stack spliced in
as they are.
-/

open List

namespace SourceAudit.Monitor

open Outside
open SourceAudit.Text (after? cut? occurs splitOn upTo trim trimRightWith isBlank)

/-! ## What is written -/

def levelText (p : String) : String :=
  if isSensitive p then "[ALERT]" else "[INFO]"

def stackText (stack : String) : String :=
  if stack.isEmpty then "" else stackMark ++ stack

def fileText (op p mode stack : String) : String :=
  levelText p ++ " FILE " ++ Str.upper op ++ ": " ++ p ++ " (mode: " ++ mode ++ ")" ++
    stackText stack

theorem isSensitiveValue_text (p : String) : isSensitiveValue (.text p) = .ok (isSensitive p) := by
  rw [isSensitiveValue, isSensitive]
  induction sensitiveNames with
  | nil => rfl
  | cons nm nms ih =>
    rw [List.anyM, any_cons, Value.holdsWord]
    cases Str.occurs nm p with
    | true => rfl
    | false => exact ih

theorem fileMessage_eq {p : String} (short : p.length ≤ 200) (op mode stack : String) :
    fileMessage (.text op) (.text p) (.text mode) (.text stack) =
      .ok (fileText op p mode stack) := by
  have whole : shorten (.text p) standardLimit = p := by
    have fits : Int.ofNat p.length ≤ standardLimit := by
      rw [standardLimit, Int.ofNat_eq_natCast]
      omega
    exact if_pos fits
  have level : (if isSensitive p = true then "[ALERT]" else "[INFO]") = levelText p := rfl
  have tail : (if (Value.text stack).truthy = true then stackMark ++ (Value.text stack).plain
      else "") = stackText stack := by
    cases empty : stack.isEmpty <;> simp [stackText, Value.truthy, Value.plain]
  rw [fileMessage, isSensitiveValue_text]
  dsimp only [Bind.bind, Except.bind]
  rw [tail, whole]
  rfl

structure Titled (operation : String) (first : Char) (others : List Char) : Prop where
  spelled : (Str.upper operation).toList = first :: others
  solid : isBlank first = false
  plain : ∀ c ∈ [':', 'F', '(', '['], c ∉ first :: others
  lowered : Str.lower (.ofList (trim (first :: others))) = operation

theorem exists_titled {op : String} (hk : op ∈ ["read", "write", "delete"]) :
    ∃ a others, Titled op a others := by
  simp only [mem_cons, not_mem_nil, or_false] at hk
  rcases hk with rfl | rfl | rfl
  · exact ⟨'R', ['E', 'A', 'D'], by decide +kernel, by decide, by simp, by decide +kernel⟩
  · exact ⟨'W', ['R', 'I', 'T', 'E'], by decide +kernel, by decide, by simp, by decide +kernel⟩
  · exact ⟨'D', ['E', 'L', 'E', 'T', 'E'], by decide +kernel, by decide, by simp, by decide +kernel⟩

/-! ## What is read -/

def fileWord : List Char := ['F', 'I', 'L', 'E']

def alertWord : List Char := ['[', 'A', 'L', 'E', 'R', 'T', ']']

def markWord : List Char := ['(', 'm', 'o', 'd', 'e', ':']

def modeIn (rep : List Char) : List Char :=
  match cut? markWord rep with
  | some (_, behind) => trim (upTo [')'] (upTo markWord behind))
  | none => []

theorem reportedPath_ofList (tl : List Char) :
    reportedPath (.ofList tl) = .ofList (trim (upTo markWord tl)) := by
  simp only [reportedPath, Str.cut?, String.toList_ofList]
  rw [show modeMark.toList = markWord from rfl, upTo]
  cases cut? markWord tl <;> simp [Str.trim]

theorem reportedMode_ofList (rep : List Char) :
    reportedMode (.ofList rep) = .ofList (modeIn rep) := by
  simp only [reportedMode, Str.splitOn, String.toList_ofList]
  rw [show modeMark.toList = markWord from rfl, modeIn, Text.splitOn_eq (by decide)]
  rcases cut? markWord rep with _ | ⟨_, behind⟩
  · rfl
  · obtain ⟨pieces, cutMark⟩ := Text.exists_splitOn (show markWord ≠ [] by decide) behind
    obtain ⟨parts, cutEnd⟩ := Text.exists_splitOn (show [')'] ≠ [] by decide) (upTo markWord behind)
    simp [cutMark, cutEnd, Str.trim]

theorem fileActivity?_of_cut {ln : String} {before rep op tl : List Char}
    (once : splitOn fileWord (trim ln.toList) = [before, rep])
    (coloned : cut? [':'] (trim rep) = some (op, tl)) :
    fileActivity? ln =
      some { operation := Str.lower (.ofList (trim op))
             path := .ofList (trim (upTo markWord tl))
             mode := .ofList (modeIn (trim rep))
             sensitive := occurs alertWord ln.toList
             lines := frameLines ln } := by
  have cutFile : Str.splitOn "FILE" (Str.trim ln) = [.ofList before, .ofList rep] := by
    simp only [Str.splitOn, Str.trim, String.toList_ofList]
    exact congrArg (List.map String.ofList) once
  have trimmed : Str.trim (.ofList rep) = .ofList (trim rep) := by
    rw [Str.trim, String.toList_ofList]
  have cutColon : Str.cut? ":" (.ofList (trim rep)) = some (.ofList op, .ofList tl) := by
    simp only [Str.cut?, String.toList_ofList]
    rw [show ":".toList = [':'] from rfl, coloned]
    rfl
  rw [fileActivity?, cutFile]
  dsimp only
  rw [trimmed, cutColon]
  dsimp only
  rw [reportedPath_ofList, reportedMode_ofList, Str.trim, String.toList_ofList, Str.occurs,
    show "[ALERT]".toList = alertWord from rfl]

theorem fileActivity?_eq_none {ln : String} {before between tl others : List Char}
    (h1 : cut? fileWord (trim ln.toList) = some (before, tl))
    (h2 : cut? fileWord tl = some (between, others)) : fileActivity? ln = none := by
  obtain ⟨pieces, more⟩ := Text.exists_splitOn (show fileWord ≠ [] by decide) others
  have cutFile : Str.splitOn "FILE" (Str.trim ln) =
      .ofList before :: .ofList between :: (upTo fileWord others :: pieces).map .ofList := by
    simp only [Str.splitOn, Str.trim, String.toList_ofList]
    rw [show "FILE".toList = fileWord from rfl, Text.splitOn_of_cut? (by decide) h1,
      Text.splitOn_of_cut? (by decide) h2, more]
    rfl
  rw [fileActivity?, cutFile]
  rfl

/-! ## Entries about files -/

section

variable {op p mode stack : String} {m : Moment} {a : Char} {others : List Char}

def heading (m : Moment) (p : String) : List Char :=
  ('[' :: (m.milliseconds.toList ++ [']'])) ++ ' ' :: (levelText p).toList

def stated (title p mode : List Char) : List Char :=
  title ++ ':' :: ' ' :: (p ++ ' ' :: (markWord ++ ' ' :: mode))

theorem toList_entry (titled : Titled op a others) :
    (entryAt m (fileText op p mode stack)).toList =
      heading m p ++ ' ' :: (fileWord ++ ' ' :: (stated (a :: others) p.toList mode.toList ++ ')' ::
          ((stackText stack).toList ++ ['\n']))) := by
  rw [toList_entryAt]
  simp [fileText, heading, stated, titled.spelled, fileWord, markWord]

theorem trim_entry (m : Moment) (p : String) (tl ending : List Char) :
    trim (heading m p ++ ' ' :: (fileWord ++ ' ' :: (tl ++ ')' :: ending))) =
      heading m p ++ ' ' :: (fileWord ++ ' ' :: (tl ++ ')' :: trimRightWith isBlank ending)) := by
  have bracketed : ∀ t, heading m p ++ t =
      '[' :: ((m.milliseconds.toList ++ ']' :: ' ' :: (levelText p).toList) ++ t) := by
    simp [heading]
  have joined : ∀ t : List Char, (m.milliseconds.toList ++ ']' :: ' ' :: (levelText p).toList) ++
          ' ' :: (fileWord ++ ' ' :: (tl ++ ')' :: t)) =
        ((m.milliseconds.toList ++ ']' :: ' ' :: (levelText p).toList) ++
          ' ' :: (fileWord ++ ' ' :: tl)) ++ ')' :: t := by
    simp
  rw [bracketed, bracketed, Text.trim_cons_of_solid (by decide), joined,
    Text.trimRightWith_append_cons (by decide), ← joined]

theorem trim_report (solid : isBlank a = false) (p mode ending : List Char) :
    trim (' ' :: (stated (a :: others) p mode ++ ')' :: ending)) =
      stated (a :: others) p mode ++ ')' :: trimRightWith isBlank ending := by
  rw [Text.trim_cons_of_blank (by decide), stated, cons_append, cons_append,
    Text.trim_cons_of_solid solid, Text.trimRightWith_append_cons (by decide)]
  rfl

variable {w : List Char}

/-- A word without the characters that separate the parts of an entry. -/
structure Foreign (word : List Char) : Prop where
  nonempty : word ≠ []
  apart : ∀ c ∈ [' ', ':', ')', '=', '\n'], c ∉ word
  mark : occurs word markWord = false
  stack : occurs word " | stack".toList = false

theorem foreign_fileWord : Foreign fileWord := ⟨by decide, by simp [fileWord], by decide, by decide⟩

theorem foreign_alertWord : Foreign alertWord :=
  ⟨by decide, by simp [alertWord], by decide, by decide⟩

namespace Foreign

variable (hfor : Foreign w)

include hfor

theorem occurs_append_cons {c : Char} (separates : c ∈ [' ', ':', ')', '=', '\n'])
    (pre t : List Char) : occurs w (pre ++ c :: t) = (occurs w pre || occurs w t) :=
  Text.occurs_append_cons (hfor.apart c separates) hfor.nonempty pre t

theorem occurs_heading {c : Char} (hm : c ∈ w) (unstamped : isStampChar c = false)
    (unbracketed : c ∉ ['[', ']']) (clocked : m.isClocked = true) (p : String) :
    occurs w (heading m p) = occurs w (levelText p).toList := by
  have hmiss : c ∉ '[' :: (m.milliseconds.toList ++ [']']) := by
    simp_all [Moment.notMem_milliseconds clocked unstamped]
  rw [heading, hfor.occurs_append_cons (by simp), Text.occurs_eq_false_of_notMem hm hmiss,
    Bool.false_or]

theorem occurs_report (title p mode : List Char) (stack : String) :
    occurs w (stated title p mode ++ ')' :: ((stackText stack).toList ++ ['\n'])) =
      (occurs w title || [p, mode, stack.toList].any (occurs w)) := by
  have stacked : occurs w (stackText stack).toList = occurs w stack.toList := by
    rw [stackText]
    split_ifs with empty
    · rw [String.isEmpty_iff.mp empty]
    · have shape : (stackMark ++ stack).toList = " | stack".toList ++ '=' :: stack.toList := by
        simp [stackMark]
      rw [shape, hfor.occurs_append_cons (by simp), hfor.stack, Bool.false_or]
  rw [hfor.occurs_append_cons (by simp), hfor.occurs_append_cons (by simp), stacked, stated,
    hfor.occurs_append_cons (by simp), Text.occurs_cons_of_notMem (hfor.apart ' ' (by simp))
    hfor.nonempty, hfor.occurs_append_cons (by simp), hfor.occurs_append_cons (by simp),
    hfor.mark, Text.occurs_nil hfor.nonempty]
  simp [Bool.or_assoc]

end Foreign

theorem occurs_file (titled : Titled op a others) (p mode stack : String) :
    occurs fileWord (' ' :: (stated (a :: others) p.toList mode.toList ++
        ')' :: trimRightWith isBlank ((stackText stack).toList ++ ['\n']))) =
      [p, mode, stack].any fun part => Str.occurs "FILE" part := by
  have title : occurs fileWord (a :: others) = false :=
    Text.occurs_eq_false_of_notMem (by decide) (titled.plain 'F' (by simp))
  rw [Text.occurs_cons_of_notMem (by decide) (by decide), foreign_fileWord.occurs_append_cons (by simp),
    Text.occurs_trimRightWith (by decide) (by decide),
    ← foreign_fileWord.occurs_append_cons (c := ')') (by simp), foreign_fileWord.occurs_report, title]
  rfl

theorem occurs_alert (clocked : m.isClocked = true) (titled : Titled op a others) :
    occurs alertWord (entryAt m (fileText op p mode stack)).toList =
      (isSensitive p || [p, mode, stack].any fun part => Str.occurs "[ALERT]" part) := by
  have level : occurs alertWord (levelText p).toList = isSensitive p := by
    rw [levelText]
    cases isSensitive p <;> decide
  have title : occurs alertWord (a :: others) = false :=
    Text.occurs_eq_false_of_notMem (by decide) (titled.plain '[' (by simp))
  have word : occurs alertWord fileWord = false := by decide
  rw [toList_entry titled, foreign_alertWord.occurs_append_cons (by simp),
    foreign_alertWord.occurs_heading (c := 'A') (by decide) (by decide) (by decide) clocked, level,
    foreign_alertWord.occurs_append_cons (by simp), foreign_alertWord.occurs_report, title]
  rfl

def afterColon (p mode stack : String) : List Char :=
  ' ' :: (p.toList ++ ' ' :: (markWord ++ ' ' :: (mode.toList ++ ')' ::
    trimRightWith isBlank (trimRightWith isBlank ((stackText stack).toList ++ ['\n'])))))

theorem fileActivity?_entry (clocked : m.isClocked = true) (titled : Titled op a others) :
    fileActivity? (entryAt m (fileText op p mode stack)) =
      if [p, mode, stack].any fun part => Str.occurs "FILE" part then none
      else some
        { operation := op, path := .ofList (trim (upTo markWord (afterColon p mode stack)))
          mode := .ofList (modeIn (a :: others ++ ':' :: afterColon p mode stack))
          sensitive := isSensitive p || [p, mode, stack].any fun part =>
            Str.occurs "[ALERT]" part
          lines := frameLines (entryAt m (fileText op p mode stack)) } := by
  have cutFirst : cut? fileWord (trim (entryAt m (fileText op p mode stack)).toList) =
        some (heading m p ++ [' '], ' ' :: (stated (a :: others) p.toList mode.toList ++
            ')' :: trimRightWith isBlank ((stackText stack).toList ++ ['\n']))) := by
    have level : occurs fileWord (levelText p).toList = false := by
      rw [levelText]
      cases isSensitive p <;> decide
    have before : occurs fileWord (heading m p) = false := by
      rw [foreign_fileWord.occurs_heading (c := 'F') (by decide) (by decide) (by decide) clocked, level]
    rw [toList_entry titled, trim_entry,
      Text.cut?_append_cons (by decide) (by decide) (Text.occurs_eq_false_iff.mp before)]
    rfl
  have hf := occurs_file titled p mode stack
  split_ifs with hi
  · rw [hi] at hf
    obtain ⟨⟨between, tl⟩, cutSecond⟩ := Option.isSome_iff_exists.mp hf
    exact fileActivity?_eq_none cutFirst cutSecond
  · rw [Bool.not_eq_true] at hi
    rw [hi, Text.occurs_eq_false_iff] at hf
    have once := Text.splitOn_of_cut? (by decide) cutFirst
    rw [Text.splitOn_of_missing (by decide) hf] at once
    have shape : stated (a :: others) p.toList mode.toList ++ ')' ::
        trimRightWith isBlank (trimRightWith isBlank ((stackText stack).toList ++ ['\n'])) =
          a :: others ++ ':' :: afterColon p mode stack := by
      simp [stated, afterColon]
    have coloned := Text.cut?_singleton (titled.plain ':' (by simp)) (afterColon p mode stack)
    rw [← shape, ← trim_report titled.solid] at coloned
    rw [fileActivity?_of_cut once coloned, trim_report titled.solid, shape, titled.lowered,
      occurs_alert clocked titled]

end

/-! ## Reading back -/

/-- A text that holds the word it is read up to is not read whole. -/
theorem trim_ne_of_holds {w before behind tail pre : List Char} (hne : w ≠ [])
    (begins : pre <+: upTo w (' ' :: (before ++ (w ++ behind) ++ tail))) :
    trim pre ≠ before ++ (w ++ behind) := by
  have short := Text.length_upTo_le (' ' :: before) w (behind ++ tail)
  rw [cons_append, ← append_assoc w, ← append_assoc before] at short
  have some := length_pos_iff.mpr hne
  have fewer := begins.length_le.trans short
  have hi := begins.trans (Text.upTo_isPrefix _ _)
  intro hr
  have length := congrArg List.length hr
  simp only [length_append] at length
  cases pre with
  | nil =>
    rw [show trim [] = [] from rfl, length_nil] at length
    omega
  | cons c pre =>
    obtain ⟨rfl, _⟩ := cons_prefix_cons.mp hi
    rw [Text.trim_cons_of_blank (by decide)] at length
    have shorter := Text.length_trim_le pre
    rw [length_cons, length_cons] at fewer
    omega

theorem reads_path_iff (p tl : List Char) :
    trim (upTo markWord (' ' :: (p ++ ' ' :: (markWord ++ tl)))) = p ↔
      trim p = p ∧ occurs markWord p = false := by
  cases marked : occurs markWord p with
  | false =>
    have hmiss : cut? markWord (' ' :: p) = none := by
      rw [← Text.occurs_eq_false_iff, Text.occurs_cons_of_notMem (by decide) (by decide), marked]
    rw [← cons_append, Text.upTo_append_cons (by decide) (by decide) hmiss, Text.upTo_append,
      Text.trim_concat_of_blank (by decide), Text.trim_cons_of_blank (by decide)]
    simp
  | true =>
    obtain ⟨before, behind, rfl⟩ := Text.exists_of_occurs marked
    exact iff_of_false (trim_ne_of_holds (by decide) prefix_rfl) (by simp)

theorem reads_mode_iff (mode tl : List Char) :
    trim (upTo [')'] (upTo markWord (' ' :: (mode ++ ')' :: tl)))) = mode ↔
      trim mode = mode ∧ occurs markWord mode = false ∧ ')' ∉ mode := by
  cases marked : occurs markWord mode with
  | true =>
    obtain ⟨before, behind, rfl⟩ := Text.exists_of_occurs marked
    exact iff_of_false (trim_ne_of_holds (by decide) (Text.upTo_isPrefix _ _)) (by simp)
  | false =>
    have hmiss : cut? markWord (' ' :: mode) = none := by
      rw [← Text.occurs_eq_false_iff, Text.occurs_cons_of_notMem (by decide) (by decide), marked]
    rw [← cons_append, Text.upTo_append_cons (by decide) (by decide) hmiss tl, cons_append]
    by_cases closed : ')' ∈ mode
    · obtain ⟨before, behind, rfl⟩ := append_of_mem closed
      exact iff_of_false (trim_ne_of_holds (show [')'] ≠ [] by decide) prefix_rfl) (by simp)
    · have absent : ')' ∉ ' ' :: mode := by simpa using closed
      rw [upTo, ← cons_append, Text.cut?_singleton absent]
      rw [Text.trim_cons_of_blank (by decide)]
      simp [closed]

/--
The texts of a file operation are free of what the reader looks for: no blanks at the ends of path
and mode, no mark of a mode in either, no closing parenthesis in the mode, the word of file
operations nowhere, and the mark of alerts only where the path is sensitive anyway.
-/
structure Legible (path mode stack : String) : Prop where
  pathTrimmed : Str.trim path = path
  pathUnmarked : Str.occurs modeMark path = false
  modeTrimmed : Str.trim mode = mode
  modeUnmarked : Str.occurs modeMark mode = false
  modeOpen : ')' ∉ mode.toList
  unworded : ([path, mode, stack].any fun part => Str.occurs "FILE" part) = false
  unalarmed : isSensitive path = true ∨
    ([path, mode, stack].any fun part => Str.occurs "[ALERT]" part) = false

theorem trim_toList_iff (t : String) : Str.trim t = t ↔ trim t.toList = t.toList := by
  rw [Str.trim, ← String.toList_inj, String.toList_ofList]

theorem modeIn_report {op : String} {a : Char} {others : List Char}
    (titled : Titled op a others) {p : String}
    (unmarked : Str.occurs modeMark p = false) (mode stack : String) :
    ∃ tl, modeIn (a :: others ++ ':' :: afterColon p mode stack) =
      trim (upTo [')'] (upTo markWord (' ' :: (mode.toList ++ ')' :: tl)))) := by
  have title : '(' ∉ a :: others ++ [':'] := by
    simpa using titled.plain '(' (by simp)
  have hmiss : cut? markWord ((a :: others ++ [':']) ++ ' ' :: p.toList) = none := by
    rw [← Text.occurs_eq_false_iff, Text.occurs_append_cons (by decide) (by decide),
      Text.occurs_eq_false_of_notMem (c := '(') (by decide) title]
    exact unmarked
  have shape : a :: others ++ ':' :: afterColon p mode stack =
      ((a :: others ++ [':']) ++ ' ' :: p.toList) ++ ' ' :: (markWord ++ ' ' ::
        (mode.toList ++ ')' ::
          trimRightWith isBlank (trimRightWith isBlank ((stackText stack).toList ++ ['\n'])))) := by
    simp [afterColon]
  refine ⟨trimRightWith isBlank (trimRightWith isBlank ((stackText stack).toList ++ ['\n'])), ?_⟩
  rw [modeIn, shape, Text.cut?_append_cons (by decide) (by decide) hmiss]
  rfl

theorem perform_analyzeFiles_entry {op p mode stack : String} {m : Moment}
    {a : Char} {others : List Char} (titled : Titled op a others) (s : Session) :
    (analyzeFiles (.list [.text (entryAt m (fileText op p mode stack))])).perform
        s =
      (.ok (fileActivity? (entryAt m (fileText op p mode stack))).toList, s) := by
  have worded : Str.occurs "FILE" (entryAt m (fileText op p mode stack)) = true := by
    rw [Str.occurs, show "FILE".toList = fileWord from rfl, toList_entry titled,
      Text.occurs_append_cons (by decide) (by decide), occurs, occurs, Text.cut?_append]
    simp
  have activities : fileActivities [.text (entryAt m (fileText op p mode stack))] =
      (fileActivity? (entryAt m (fileText op p mode stack))).toList := by
    simp [fileActivities, Value.holdsWord, worded]
  rw [← activities]
  rfl

/--
The entry about a file operation is read back as one record of the same operation, path and mode,
sensitive when the path is, exactly when the texts of the operation are legible.
-/
theorem analyzeFiles_entry_iff_legible {operation path mode stack : String} {moment : Moment}
    (known : operation ∈ ["read", "write", "delete"]) (short : path.length ≤ 200)
    (clocked : moment.isClocked = true) :
    ∃ message,
      fileMessage (.text operation) (.text path) (.text mode) (.text stack) = .ok message ∧
        ∀ session,
          (∃ lines, (analyzeFiles (.list [.text (entryAt moment message)])).perform session =
              (.ok [{ operation, path, mode, sensitive := isSensitive path, lines }], session)) ↔
            Legible path mode stack := by
  obtain ⟨first, others, titled⟩ := exists_titled known
  refine ⟨_, fileMessage_eq short operation mode stack, fun session => ?_⟩
  rw [perform_analyzeFiles_entry titled, fileActivity?_entry clocked titled]
  have pathRead : trim (upTo markWord (afterColon path mode stack)) = path.toList ↔ _ :=
    reads_path_iff path.toList _
  constructor
  · rintro ⟨lines, read⟩
    split_ifs at read with worded
    · cases read
    · simp only [Option.toList_some, Prod.mk.injEq, Except.ok.injEq, List.cons.injEq,
        FileActivity.mk.injEq, and_true, true_and] at read
      obtain ⟨path_eq, mode_eq, sensitive_eq, _⟩ := read
      rw [← String.toList_inj, String.toList_ofList] at path_eq mode_eq
      obtain ⟨pathTrimmed, pathUnmarked⟩ := pathRead.mp path_eq
      obtain ⟨rest, reported⟩ := modeIn_report titled pathUnmarked mode stack
      rw [reported] at mode_eq
      obtain ⟨modeTrimmed, modeUnmarked, modeOpen⟩ := (reads_mode_iff mode.toList rest).mp mode_eq
      exact
        { pathTrimmed := (trim_toList_iff path).mpr pathTrimmed
          pathUnmarked
          modeTrimmed := (trim_toList_iff mode).mpr modeTrimmed
          modeUnmarked
          modeOpen
          unworded := Bool.eq_false_iff.mpr worded
          unalarmed := by
            cases sensitive : isSensitive path with
            | true => exact Or.inl rfl
            | false =>
              rw [sensitive, Bool.false_or] at sensitive_eq
              exact Or.inr sensitive_eq }
  · intro legible
    obtain ⟨rest, reported⟩ := modeIn_report titled legible.pathUnmarked mode stack
    have path_eq := pathRead.mpr
      ⟨(trim_toList_iff path).mp legible.pathTrimmed, legible.pathUnmarked⟩
    have mode_eq := (reads_mode_iff mode.toList rest).mpr
      ⟨(trim_toList_iff mode).mp legible.modeTrimmed, legible.modeUnmarked, legible.modeOpen⟩
    have sensitive_eq : (isSensitive path || [path, mode, stack].any fun part =>
        Str.occurs "[ALERT]" part) = isSensitive path := by
      rcases legible.unalarmed with sensitive | quiet
      · rw [sensitive, Bool.true_or]
      · rw [quiet, Bool.or_false]
    refine ⟨frameLines (entryAt moment (fileText operation path mode stack)), ?_⟩
    rw [legible.unworded, if_neg Bool.false_ne_true, reported, mode_eq, sensitive_eq, path_eq,
      String.ofList_toList, String.ofList_toList]
    rfl

/-- Reading an ordinary sensitive file is read back; reading a file with the word in its name is not. -/
theorem analyzeFiles_loses_word_in_name :
    (∃ message,
      fileMessage (.text "read") (.text "/etc/passwd") (.text "r") (.text "/m.py:1") = .ok message ∧
        ∀ session, ∃ lines,
          (analyzeFiles (.list [.text (entryAt .current message)])).perform session =
            (.ok [⟨"read", "/etc/passwd", "r", true, lines⟩], session)) ∧
    ∃ message,
      fileMessage (.text "read") (.text "/etc/PROFILE") (.text "r") (.text "/m.py:1") = .ok message ∧
        ∀ session lines, (analyzeFiles (.list [.text (entryAt .current message)])).perform session ≠
            (.ok [⟨"read", "/etc/PROFILE", "r", false, lines⟩], session) := by
  constructor
  · obtain ⟨message, written, reads⟩ := @analyzeFiles_entry_iff_legible "read" "/etc/passwd" "r"
      "/m.py:1" .current (by decide) (by decide) (by decide)
    refine ⟨message, written, fun session => (reads session).mpr ?_⟩
    exact
      { pathTrimmed := by decide +kernel
        pathUnmarked := by decide +kernel
        modeTrimmed := by decide +kernel
        modeUnmarked := by decide +kernel
        modeOpen := by decide
        unworded := by decide +kernel
        unalarmed := Or.inl (by decide +kernel) }
  · obtain ⟨message, written, reads⟩ := @analyzeFiles_entry_iff_legible "read" "/etc/PROFILE" "r"
      "/m.py:1" .current (by decide) (by decide) (by decide)
    refine ⟨message, written, fun session lines read => ?_⟩
    have worded := ((reads session).mp ⟨lines, read⟩).unworded
    revert worded
    decide

end SourceAudit.Monitor
