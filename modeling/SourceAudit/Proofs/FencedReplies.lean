import SourceAudit.Agent.Reply
import SourceAudit.Proofs.ReadForms
import SourceAudit.Proofs.TextCutting

/-!
# Replies with one record

A reply that holds a record is read as that record when the record stands alone, in a code fence
that is marked as JSON, and among other text without braces that is no document together with it.
-/

open List Option

namespace SourceAudit.Json

/-! ## Where documents begin -/

def leads (c : Char) : Bool :=
  Text.isAsciiDigit c || ['\x7b', '[', '"', '-', 'n', 't', 'f', 'N', 'I'].contains c

theorem readValue_eq_none {c : Char} (ho : leads c = false) (fuel : Nat) (tl : List Char) :
    readValue fuel (c :: tl) = none := by
  rw [leads, Bool.or_eq_false_iff, ← Bool.not_eq_true (List.contains _ _), contains_iff_mem] at ho
  obtain ⟨digit, ho⟩ := ho
  simp only [mem_cons, not_mem_nil, or_false, not_or] at ho
  obtain ⟨brace, bracket, quote, minus, n, t, f, capitalN, capitalI⟩ := ho
  have whole : readWhole (c :: tl) = none := by
    rw [readWhole.eq_def]
    split
    · next hs => cases (List.cons.inj hs).1 ▸ digit
    · simp [digit]
  have number : readNumber (c :: tl) = none := by
    rw [readNumber.eq_def]
    split
    · next hs => exact absurd (List.cons.inj hs).1 minus
    · rw [readUnsigned, whole]
      rfl
  cases fuel with
  | zero => rfl
  | succ fuel =>
    rw [readValue_eq_readNumber (by simp [*]), number]

theorem read?_eq_none {c : Char} (solid : isSpace c = false) (ho : leads c = false)
    (tl : List Char) : read? (String.ofList (c :: tl)) = none := by
  rw [read?, String.toList_ofList, skipSpace_cons solid, readValue_eq_none ho]

theorem read?_written_append {fs : List (String × Value)} (can : writableFields fs = true)
    (lay : Layout) (tl : List Char) :
    read? (String.ofList (written lay 0 (.record fs) ++ tl)) =
      if (skipSpace tl).isEmpty then some (decoded (.record fs)) else none := by
  have whole : writableFields fs = false → tl = [] := fun cannot => by simp [can] at cannot
  have hr := gives_record (fun fld _ => answers lay fld.2) 0 whole
  have begins : Begins (written lay 0 (.record fs) ++ tl) := begins_written lay 0 whole
  rw [read?, String.toList_ofList, begins.skipSpace, hr _ (by omega), if_pos can]
  rfl

end SourceAudit.Json

namespace SourceAudit.Agent

/-! ## Texts of records -/

def inBraces (inner : List Char) : List Char :=
  '\x7b' :: (inner ++ ['\x7d'])

structure Serialises (text : String) (document : Value) : Prop where
  braced : ∃ inner, text.toList = inBraces inner
  read : Json.read? text = some document

variable {fs : List (String × Value)}

theorem exists_written_eq_inBraces (lay : Json.Layout) (can : Json.writableFields fs = true) :
    ∃ inner, Json.written lay 0 (.record fs) = inBraces inner := by
  cases fs with
  | nil => exact ⟨[], by simp [Json.written, Json.write, Json.Written.done, inBraces]⟩
  | cons fld tl =>
    obtain ⟨pre, shape⟩ := @Json.exists_started lay 1 _ can
    have whole := @Json.written_record lay 0 fld tl [] fun _ => rfl
    rw [append_nil, shape, ← append_assoc, ← append_assoc] at whole
    exact ⟨_, whole⟩

theorem serialises_write (lay : Json.Layout) (can : Json.writableFields fs = true) :
    Serialises (Json.write lay 0 (.record fs)).text (Json.decoded (.record fs)) where
  braced := exists_written_eq_inBraces lay can
  read := (Json.read?_write lay (.record fs)).trans (if_pos can)

/-! ## The braces in a text -/

variable {c : Char}

theorem cutLast?_singleton {back : List Char} (absent : c ∉ back) (pre : List Char) :
    Text.cutLast? [c] (pre ++ c :: back) = some (pre, back) := by
  have mirrored := Text.cut?_singleton (mem_reverse.not.mpr absent) pre.reverse
  rw [Text.cutLast?, reverse_singleton, reverse_append, reverse_cons,
    append_assoc, singleton_append, mirrored]
  simp

variable {inner pre back : List Char}

theorem braced?_append (before : '\x7b' ∉ pre) (behind : '\x7d' ∉ back) :
    braced? (String.ofList (pre ++ (inBraces inner ++ back))) =
      some (String.ofList (inBraces inner)) := by
  have shape : pre ++ (inBraces inner ++ back) = pre ++ '\x7b' :: (inner ++ '\x7d' :: back) := by
    simp [inBraces]
  rw [braced?, String.toList_ofList, shape, Text.cut?_singleton before]
  simp [cutLast?_singleton behind, inBraces]

variable {con : String}

theorem readReply_of_braced (before : '\x7b' ∉ pre) (behind : '\x7d' ∉ back)
    (hs : unfenced con = String.ofList (pre ++ (inBraces inner ++ back))) :
    readReply con = (Json.read? (unfenced con)).getD
      ((Json.read? (String.ofList (inBraces inner))).getD (.record [])) := by
  delta readReply
  dsimp only
  cases Json.read? (unfenced con) with
  | some f => rfl
  | none => rw [hs, braced?_append before behind]; rfl

/-! ## Code fences -/

def fenced (mark t : String) : String :=
  fence ++ mark ++ "\n" ++ t ++ "\n" ++ fence

def mark : List Char := ['j', 's', 'o', 'n']

theorem unfenced_of_fences {a : Char}
    (shape : con.toList = fence.toList ++ (a :: (inner ++ ['\n']) ++ fence.toList))
    (ho : a ≠ '\x60') :
    unfenced con =
      String.ofList (Text.trim (Text.replaceFirst mark [] (a :: (inner ++ ['\n'])))) := by
  have outer : con.toList = [] ++ ('\x60' :: ((['\x60', '\x60'] ++
      (a :: (inner ++ ['\n'])) ++ ['\x60', '\x60']) ++ ['\x60']) ++ []) := by
    rw [shape]
    simp [fence]
  have whole : Text.trim con.toList = con.toList := by
    rw [Text.trim]
    conv_lhs => rw [outer]
    rw [Text.trimWith_append (by decide) (by decide)]
    exact outer.symm
  have opened : Text.startsWith fence.toList con.toList = true := by
    rw [Text.startsWith, shape, Text.after?_append]
    rfl
  have stripped : Text.trimWith (· == '\x60') con.toList = a :: (inner ++ ['\n']) := by
    rw [shape, Text.trimWith_append (by simp [ho]) (by decide)]
    simp [fence, Text.trimLeftWith, Text.trimRightWith]
  rw [unfenced, whole, if_pos opened, stripped]
  rfl

theorem trim_around (before inner after : List Char) :
    Text.trim (before ++ (inBraces inner ++ after)) =
      Text.trimLeftWith Text.isBlank before ++
        (inBraces inner ++ Text.trimRightWith Text.isBlank after) :=
  Text.trimWith_append (by decide) (by decide) before inner after

theorem trim_of_lines (inner : List Char) :
    Text.trim ('\n' :: (inBraces inner ++ ['\n'])) = inBraces inner := by
  have lines := trim_around ['\n'] inner ['\n']
  have front : Text.trimLeftWith Text.isBlank ['\n'] = [] := by decide
  have back : Text.trimRightWith Text.isBlank ['\n'] = [] := by decide
  rwa [front, back, nil_append, append_nil] at lines

theorem unfenced_marked {t : String} (braced : t.toList = inBraces inner) :
    unfenced (fenced "json" t) = t := by
  have shape : (fenced "json" t).toList = fence.toList ++
      ('j' :: (['s', 'o', 'n', '\n'] ++ t.toList ++ ['\n']) ++ fence.toList) := by
    simp [fenced]
  have marked : 'j' :: (['s', 'o', 'n', '\n'] ++ t.toList ++ ['\n']) =
      mark ++ '\n' :: (t.toList ++ ['\n']) := by
    simp [mark]
  rw [unfenced_of_fences shape (by decide), marked, Text.replaceFirst, Text.cut?_append, braced]
  exact (congrArg String.ofList (trim_of_lines inner)).trans (by rw [← braced, String.ofList_toList])

theorem unfenced_plain {t : String} (braced : t.toList = inBraces inner) :
    unfenced (fenced "" t) = String.ofList (Text.replaceFirst mark [] t.toList) ∧
      Text.replaceFirst mark [] t.toList = inBraces (Text.replaceFirst mark [] inner) := by
  have shape : (fenced "" t).toList =
      fence.toList ++ ('\n' :: (t.toList ++ ['\n']) ++ fence.toList) := by
    simp [fenced]
  have within : Text.replaceFirst mark [] t.toList =
      inBraces (Text.replaceFirst mark [] inner) := by
    rw [braced]
    exact Text.replaceFirst_between (by decide) (by decide) (by decide) inner
  refine ⟨?_, within⟩
  rw [unfenced_of_fences shape (by decide),
    Text.replaceFirst_between (by decide) (by decide) (by decide), within, trim_of_lines]

theorem readReply_plain {t : String} (braced : t.toList = inBraces inner) :
    readReply (fenced "" t) =
      (Json.read? (String.ofList (Text.replaceFirst mark [] t.toList))).getD (.record []) := by
  obtain ⟨hs, within⟩ := unfenced_plain braced
  have shape : unfenced (fenced "" t) =
      String.ofList ([] ++ (inBraces (Text.replaceFirst mark [] inner) ++ [])) := by
    rw [hs, within, nil_append, append_nil]
  rw [readReply_of_braced not_mem_nil not_mem_nil shape, hs, within]
  cases Json.read? (String.ofList (inBraces (Text.replaceFirst mark [] inner))) <;> rfl

/-! ## Other text around a record -/

/-- Texts between which a record can be found. -/
structure Around (before after : String) : Prop where
  opening : '\x7b' ∉ before.toList
  closing : '\x7d' ∉ after.toList
  bare : Str.startsWith fence (Str.trim before) = false

theorem startsWith_around {before : List Char}
    (bare : Text.startsWith fence.toList (Text.trim before) = false) (tl : List Char) :
    Text.startsWith fence.toList
      (Text.trimLeftWith Text.isBlank before ++ '\x7b' :: tl) = false := by
  rw [Text.startsWith, isSome_eq_false_iff, isNone_iff_eq_none] at bare ⊢
  apply Text.after?_append_cons (by decide)
  by_contra hf
  obtain ⟨behind, hf⟩ := ne_none_iff_exists'.mp hf
  have kept : Text.trim before = fence.toList ++ Text.trimRightWith Text.isBlank behind := by
    rw [Text.trim, Text.trimWith, Text.after?_eq_some hf]
    exact Text.trimRightWith_append_cons (by decide) ['\x60', '\x60'] behind
  rw [kept, Text.after?_append] at bare
  cases bare

variable {t before after : String}

theorem trim_reply (before after : String) (braced : t.toList = inBraces inner) :
    Text.trim (before ++ t ++ after).toList =
      Text.trimLeftWith Text.isBlank before.toList ++
        (inBraces inner ++ Text.trimRightWith Text.isBlank after.toList) := by
  rw [String.toList_append, String.toList_append, braced, append_assoc, trim_around]

theorem readReply_around (braced : t.toList = inBraces inner) (around : Around before after) :
    readReply (before ++ t ++ after) = (Json.read? (Str.trim (before ++ t ++ after))).getD
        ((Json.read? t).getD (.record [])) := by
  have whole := trim_reply before after braced
  have trimmed : unfenced (before ++ t ++ after) = Str.trim (before ++ t ++ after) := by
    have bare := around.bare
    rw [Str.startsWith, Str.trim, String.toList_ofList] at bare
    rw [unfenced, Str.trim, if_neg]
    rw [whole, inBraces, cons_append]
    exact Bool.eq_false_iff.mp (startsWith_around bare _)
  have opening : '\x7b' ∉ Text.trimLeftWith Text.isBlank before.toList := fun hm =>
    around.opening ((dropWhile_suffix _).subset hm)
  have closing : '\x7d' ∉ Text.trimRightWith Text.isBlank after.toList := fun hm =>
    around.closing ((Text.trimRightWith_isPrefix _).subset hm)
  rw [readReply_of_braced opening closing (trimmed.trans (congrArg String.ofList whole)), trimmed,
    ← braced, String.ofList_toList]

theorem isSpace_of_solid (solid : Text.isBlank c = false) : Json.isSpace c = false := by
  by_contra space
  simp only [Json.isSpace, Bool.not_eq_false, Bool.or_eq_true, beq_iff_eq] at space
  rcases space with ((rfl | rfl) | rfl) | rfl <;> exact absurd solid (by decide)

def Prose (before : String) : Prop :=
  ∀ c ∈ (Str.trim before).toList.head?, Json.leads c = false

theorem read?_of_prose (prose : Prose before)
    (lead : Text.trimLeftWith Text.isBlank before.toList = c :: pre) (tl : List Char) :
    Json.read? (String.ofList (c :: pre ++ tl)) = none := by
  have solid : Text.isBlank c = false := by
    have head := head?_dropWhile_not Text.isBlank before.toList
    rw [← Text.trimLeftWith, lead] at head
    simpa using head
  refine Json.read?_eq_none (isSpace_of_solid solid) (prose c ?_) _
  rw [Str.trim, String.toList_ofList, Text.trim, Text.trimWith, lead]
  have kept := Text.trimRightWith_append_cons solid [] pre
  rw [nil_append] at kept
  rw [kept]
  rfl

theorem readReply_written (lay : Json.Layout) (can : Json.writableFields fs = true)
    (around : Around before after) (prose : Prose before) :
    readReply (before ++ (Json.write lay 0 (.record fs)).text ++ after) =
      Json.decoded (.record fs) := by
  obtain ⟨⟨inner, braced⟩, hr⟩ := serialises_write lay can
  rw [readReply_around braced around, hr, Str.trim, trim_reply before after braced]
  cases lead : Text.trimLeftWith Text.isBlank before.toList with
  | nil =>
    rw [nil_append, ← braced, ← Json.written, Json.read?_written_append can]
    split_ifs <;> rfl
  | cons c pre =>
    rw [read?_of_prose prose lead]
    rfl

/-! ## Records in replies -/

theorem readReply_of_unfenced {doc : Value} (hs : unfenced con = t)
    (hr : Json.read? t = some doc) : readReply con = doc := by
  delta readReply
  dsimp only
  rw [hs, hr]

/-- **A record is read from a reply that holds it.** Each text of the record gives the record, alone
and in a fence with the mark.  In a fence without a mark the first occurrence of the mark is lost from
the text.  Between other texts the record is read unless the whole reply is a document, and the written
forms are read unless the text in front of them begins like one. -/
theorem record_read_from_reply (fields : List (String × Value)) :
    (∀ text, Serialises text (.record fields) → readReply text = .record fields ∧
      readReply (fenced "json" text) = .record fields ∧ (readReply (fenced "" text) =
        (Json.read? (String.ofList (Text.replaceFirst mark [] text.toList))).getD (.record [])) ∧
      (Str.occurs "json" text = false → readReply (fenced "" text) = .record fields) ∧
      ∀ before after, Around before after → readReply (before ++ text ++ after) =
        (Json.read? (Str.trim (before ++ text ++ after))).getD (.record fields)) ∧
    ∀ layout given, Json.writableFields given = true →
      Json.decoded (.record given) = .record fields →
      Serialises (Json.write layout 0 (.record given)).text (.record fields) ∧
      ∀ before after, Around before after → Prose before →
        readReply (before ++ (Json.write layout 0 (.record given)).text ++ after) =
          .record fields := by
  constructor
  · intro text serialises
    obtain ⟨⟨inner, braced⟩, read⟩ := serialises
    have around (before after : String) (around : Around before after) :
        readReply (before ++ text ++ after) =
          (Json.read? (Str.trim (before ++ text ++ after))).getD (.record fields) := by
      rw [readReply_around braced around, read]
      rfl
    have alone : Str.trim text = text := by
      have trimmed := trim_reply "" "" braced
      rw [String.empty_append, String.append_empty] at trimmed
      rw [Str.trim, trimmed]
      simp [Text.trimLeftWith, Text.trimRightWith, ← braced]
    refine ⟨?_, readReply_of_unfenced (unfenced_marked braced) read, readReply_plain braced, ?_,
      around⟩
    · have reply := around "" "" ⟨by decide, by decide, rfl⟩
      rw [String.empty_append, String.append_empty, alone, read] at reply
      exact reply
    · intro absent
      have missing := Text.occurs_eq_false_iff.mp absent
      have kept : Text.replaceFirst mark [] text.toList = text.toList := by
        rw [Text.replaceFirst, show Text.cut? mark text.toList = none from missing]
      rw [readReply_plain braced, kept, String.ofList_toList, read]
      rfl
  · intro layout given can same
    rw [← same]
    exact ⟨serialises_write layout can, fun before after around prose =>
      readReply_written layout can around prose⟩

def fileFields (nm : String) : List (String × Value) := [("path", .text nm)]

def fileText : String := "\x7b\"path\": \"a.json\"\x7d"

/-- The record loses a part of its field in a fence without a mark, and comes in a list if it stands
in brackets. -/
theorem fileFields_misread :
    Serialises fileText (.record (fileFields "a.json")) ∧
      readReply (fenced "json" fileText) = .record (fileFields "a.json") ∧
      readReply (fenced "" fileText) = .record (fileFields "a.") ∧
      readReply ("Here it is: " ++ fileText ++ ".") = .record (fileFields "a.json") ∧
      readReply ("[" ++ fileText ++ "]") = .list [.record (fileFields "a.json")] := by
  obtain ⟨each, forms⟩ := record_read_from_reply (fileFields "a.json")
  obtain ⟨serialises, written⟩ := forms .line (fileFields "a.json") rfl rfl
  have form : (Json.write .line 0 (.record (fileFields "a.json"))).text = fileText := rfl
  rw [form] at serialises written
  obtain ⟨_, marked, plain, _, around⟩ := each fileText serialises
  refine ⟨serialises, marked, plain.trans ?_, written _ _ ⟨by decide, by decide, rfl⟩ (by rintro c ⟨⟩; rfl),
    (around "[" "]" ⟨by decide, by decide, rfl⟩).trans ?_⟩
  · have short : String.ofList (Text.replaceFirst mark [] fileText.toList) =
        (Json.write .line 0 (.record (fileFields "a."))).text := rfl
    rw [short, Json.read?_write]
    rfl
  · have listed : Str.trim ("[" ++ fileText ++ "]") =
        (Json.write .line 0 (.list [.record (fileFields "a.json")])).text := rfl
    rw [listed, Json.read?_write]
    rfl

end SourceAudit.Agent
