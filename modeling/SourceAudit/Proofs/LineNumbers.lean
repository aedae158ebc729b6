import SourceAudit.Proofs.LayoutStability
import SourceAudit.Rules.Matching
import SourceAudit.Source.Blocks

/-!
# Numbers of lines

Rules and taint number the lines between line feeds; blocks, and the page that shows a source,
number the lines between all boundaries.
-/

open List

namespace SourceAudit.Text

/-! ## Boundaries -/

def Unbroken (ln : List Char) : Prop :=
  ∀ c ∈ ln, isLineBoundary c = false

def isOtherBoundary (c : Char) : Bool :=
  isLineBoundary c && c != '\n'

theorem boundary_induction {motive : List Char → Prop} (last : ∀ line, Unbroken line → motive line)
    (ended : ∀ line boundary rest, Unbroken line → isLineBoundary boundary = true → motive rest →
      motive (line ++ boundary :: rest))
    (text : List Char) : motive text := by
  -- The line that is read so far stands in front of the text.
  suffices behind : ∀ line, Unbroken line → motive (line ++ text) from behind [] (forall_mem_nil _)
  induction text with
  | nil =>
    intro line unbroken
    rw [append_nil]
    exact last line unbroken
  | cons c text ih =>
    intro line unbroken
    cases bound : isLineBoundary c with
    | true => exact ended line c text unbroken bound (ih [] (forall_mem_nil _))
    | false =>
      rw [append_cons]
      refine ih (line ++ [c]) (forall_mem_append.mpr ⟨unbroken, ?_⟩)
      rw [forall_mem_singleton]
      exact bound

namespace Unbroken

variable {ln : List Char} {c : Char}

theorem ne_feed (hub : Unbroken ln) (hm : c ∈ ln) : c ≠ '\n' := by
  rintro rfl
  exact absurd (hub _ hm) (by decide)

theorem ne_return (hub : Unbroken ln) (hm : c ∈ ln) : c ≠ '\r' := by
  rintro rfl
  exact absurd (hub _ hm) (by decide)

theorem tail (hub : Unbroken (c :: ln)) : Unbroken ln := (forall_mem_cons.mp hub).2

theorem countP_other (hub : Unbroken ln) : ln.countP isOtherBoundary = 0 := by
  rw [countP_eq_zero]
  intro c hm
  rw [isOtherBoundary, hub c hm]
  exact Bool.false_ne_true

end Unbroken

/-! ## Lines between line feeds -/

variable {ln tl : List Char} {boundary : Char}

theorem splitNewlineFrom_eq (ln t : List Char) :
    splitNewlineFrom ln t = (splitNewline t).modifyHead (ln.reverse ++ ·) := by
  induction t generalizing ln with
  | nil => simp [splitNewline, splitNewlineFrom]
  | cons c t ih =>
    rw [splitNewline, splitNewlineFrom, splitNewlineFrom]
    split_ifs with feed
    · simp
    · rw [ih (c :: ln), ih [c], modifyHead_modifyHead]
      congr 1
      funext pre
      simp

theorem splitNewlineFrom_of_unbroken (hub : Unbroken ln) (pre tl : List Char) :
    splitNewlineFrom pre (ln ++ tl) = splitNewlineFrom (ln.reverse ++ pre) tl := by
  induction ln generalizing pre with
  | nil => rfl
  | cons c ln ih =>
    rw [cons_append, splitNewlineFrom, if_neg (hub.ne_feed mem_cons_self), ih hub.tail]
    simp

theorem splitNewline_of_unbroken (hub : Unbroken ln) : splitNewline ln = [ln] := by
  have whole := splitNewlineFrom_of_unbroken hub [] []
  simpa [splitNewlineFrom, splitNewline] using whole

theorem splitNewline_feed (hub : Unbroken ln) :
    splitNewline (ln ++ '\n' :: tl) = ln :: splitNewline tl := by
  rw [splitNewline_append, splitNewline_of_unbroken hub]
  rfl

theorem splitNewline_other (hub : Unbroken ln) (ho : boundary ≠ '\n') :
    splitNewline (ln ++ boundary :: tl) = (splitNewline tl).modifyHead (ln ++ boundary :: ·) := by
  rw [splitNewline, splitNewlineFrom_of_unbroken hub, splitNewlineFrom, if_neg ho,
    splitNewlineFrom_eq]
  congr 1
  simp

theorem splitNewline_ne_nil (t : List Char) : splitNewline t ≠ [] := by
  rw [splitNewline]
  fun_induction splitNewlineFrom [] t with
  | case1 => exact cons_ne_nil _ _
  | case2 => exact cons_ne_nil _ _
  | case3 _ _ _ _ ih => exact ih

variable {t : List Char}

theorem exists_line_of_mem {c : Char} (hm : c ∈ t) (ho : c ≠ '\n') :
    ∃ ln ∈ splitNewline t, c ∈ ln := by
  suffices within : ∀ pre, c ∈ pre ∨ c ∈ t → ∃ ln ∈ splitNewlineFrom pre t, c ∈ ln from
    within [] (.inr hm)
  clear hm
  intro pre
  fun_induction splitNewlineFrom pre t with
  | case1 => simp
  | case2 pre t ih =>
    rintro (early | late)
    · exact ⟨_, mem_cons_self, mem_reverse.mpr early⟩
    · obtain ⟨ln, ht, hi⟩ := ih (.inr (mem_of_ne_of_mem ho late))
      exact ⟨ln, mem_cons_of_mem _ ht, hi⟩
  | case3 pre d t _ ih =>
    intro hi
    exact ih (by simpa [or_assoc, or_left_comm] using hi)

/-! ## Lines between all boundaries -/

theorem dropBoundary_of_unbroken (hub : Unbroken ln) : dropBoundary ln = ln := by
  rw [dropBoundary]
  split
  · next tl reversed =>
      have hm : '\n' ∈ ln := by
        rw [← mem_reverse, reversed]
        exact mem_cons_self
      exact absurd rfl (hub.ne_feed hm)
  · next c tl _ reversed =>
      have hm : c ∈ ln := by
        rw [← mem_reverse, reversed]
        exact mem_cons_self
      rw [hub c hm]
      rfl
  · next reversed => exact (reverse_eq_nil_iff.mp reversed).symm

theorem dropBoundary_append (hub : Unbroken ln) (bound : isLineBoundary boundary = true) :
    dropBoundary (ln ++ [boundary]) = ln := by
  rw [dropBoundary, reverse_append, reverse_singleton, singleton_append]
  split
  · next tl reversed =>
      have hm : '\r' ∈ ln := by
        rw [← mem_reverse, (List.cons.inj reversed).2]
        exact mem_cons_self
      exact absurd rfl (hub.ne_return hm)
  · next c tl _ reversed =>
      obtain ⟨rfl, rfl⟩ := List.cons.inj reversed
      rw [bound, if_pos rfl, reverse_reverse]
  · next reversed => cases reversed

theorem splitLinesKeepFrom_of_unbroken (hub : Unbroken ln) (pre tl : List Char) :
    splitLinesKeepFrom pre false (ln ++ tl) = splitLinesKeepFrom (ln.reverse ++ pre) false tl := by
  induction ln generalizing pre with
  | nil => rfl
  | cons c ln ih =>
    have hp : isLineBoundary c = false := hub c mem_cons_self
    rw [cons_append, splitLinesKeepFrom, if_neg Bool.false_ne_true,
      if_neg (hub.ne_return mem_cons_self), hp, if_neg Bool.false_ne_true, ih hub.tail]
    simp

theorem splitLines_of_unbroken (hub : Unbroken ln) :
    splitLines ln = if ln.isEmpty then [] else [ln] := by
  have whole := splitLinesKeepFrom_of_unbroken hub [] []
  rw [append_nil, splitLinesKeepFrom] at whole
  rw [splitLines, splitLinesKeep, whole]
  cases ln with
  | nil => rfl
  | cons c ln => simp [dropBoundary_of_unbroken hub]

theorem splitLines_ended (hub : Unbroken ln) (bound : isLineBoundary boundary = true)
    (single : boundary ≠ '\r') : splitLines (ln ++ boundary :: tl) = ln :: splitLines tl := by
  rw [splitLines, splitLinesKeep, splitLinesKeepFrom_of_unbroken hub, splitLinesKeepFrom,
    if_neg Bool.false_ne_true, if_neg single, if_pos bound, map_cons]
  simp only [append_nil, reverse_cons, reverse_reverse]
  rw [dropBoundary_append hub bound]
  rfl

theorem unbroken_of_mem_splitLines (hp : '\r' ∉ t) (hm : ln ∈ splitLines t) : Unbroken ln := by
  induction t using boundary_induction with
  | last whole hub =>
    rw [splitLines_of_unbroken hub] at hm
    split_ifs at hm
    · cases hm
    · rw [mem_singleton.mp hm]
      exact hub
  | ended pre boundary tl hub bound ih =>
    simp only [mem_append, mem_cons, not_or] at hp
    rw [splitLines_ended hub bound (Ne.symm hp.2.1)] at hm
    rcases mem_cons.mp hm with rfl | later
    · exact hub
    · exact ih hp.2.2 later

/-! ## Both numberings -/

def othersBefore (ls : List (List Char)) (i : Nat) : Nat :=
  (ls.take i).flatten.countP isOtherBoundary

theorem othersBefore_cons (ln : List Char) (ls : List (List Char)) (i : Nat) :
    othersBefore (ln :: ls) (i + 1) = ln.countP isOtherBoundary + othersBefore ls i := by
  rw [othersBefore, take_succ_cons, flatten_cons, countP_append, othersBefore]

theorem takeWhile_ended (hub : Unbroken ln) (bound : isLineBoundary boundary = true)
    (tl : List Char) : (ln ++ boundary :: tl).takeWhile (!isLineBoundary ·) = ln := by
  rw [takeWhile_append_of_pos]
  · simp [bound]
  · intro c hm
    rw [hub c hm]
    rfl

theorem takeWhile_of_unbroken (hub : Unbroken ln) : ln.takeWhile (!isLineBoundary ·) = ln := by
  rw [takeWhile_eq_self_iff]
  intro c hm
  rw [hub c hm]
  rfl

theorem getElem?_splitLines (hp : '\r' ∉ t) {i : Nat} (ht : (splitNewline t)[i]? = some ln)
    (shown : ln ≠ [] ∨ i + 1 < (splitNewline t).length) :
    (splitLines t)[i + othersBefore (splitNewline t) i]? =
      some (ln.takeWhile (!isLineBoundary ·)) := by
  induction t using boundary_induction generalizing i with
  | last whole hub =>
    rw [splitNewline_of_unbroken hub] at ht shown
    obtain ⟨rfl, rfl⟩ : i = 0 ∧ ln = whole := by
      cases i with
      | zero => exact ⟨rfl, (Option.some.inj ht).symm⟩
      | succ i => cases ht
    have hne : ln ≠ [] := shown.resolve_right (Nat.lt_irrefl _)
    rw [splitLines_of_unbroken hub, if_neg (by simpa using hne),
      takeWhile_of_unbroken hub]
    rfl
  | ended pre boundary tl hub bound ih =>
    simp only [mem_append, mem_cons, not_or] at hp
    rw [splitLines_ended hub bound (Ne.symm hp.2.1)]
    by_cases feed : boundary = '\n'
    · rw [feed, splitNewline_feed hub] at ht shown ⊢
      cases i with
      | zero =>
        cases ht
        rw [takeWhile_of_unbroken hub]
        rfl
      | succ i =>
        have behind := ih hp.2.2 ht (shown.imp_right fun hi => Nat.lt_of_succ_lt_succ hi)
        rw [othersBefore_cons, hub.countP_other, Nat.zero_add, Nat.add_right_comm]
        exact behind
    · obtain ⟨a, others, cut⟩ := exists_cons_of_ne_nil (splitNewline_ne_nil tl)
      rw [splitNewline_other hub feed, cut, modifyHead_cons] at ht shown ⊢
      cases i with
      | zero =>
        cases ht
        rw [takeWhile_ended hub bound]
        rfl
      | succ i =>
        rw [cut] at ih
        have behind := ih hp.2.2 ht shown
        have ho : isOtherBoundary boundary = true := by
          rw [isOtherBoundary, bound, Bool.true_and, bne_iff_ne]
          exact feed
        rw [othersBefore_cons] at behind ⊢
        rw [countP_append, hub.countP_other, Nat.zero_add, countP_cons_of_pos ho]
        rw [show i + 1 + (a.countP isOtherBoundary + 1 + othersBefore others i) =
          i + 1 + (a.countP isOtherBoundary + othersBefore others i) + 1 by omega]
        exact behind

theorem splitNewline_eq_of_only_feeds (only : ∀ c ∈ t, isOtherBoundary c = false) :
    splitNewline t = splitLines t ++ if t.getLast?.all (· == '\n') then [[]] else [] := by
  induction t using boundary_induction with
  | last ln hub =>
    rw [splitNewline_of_unbroken hub, splitLines_of_unbroken hub]
    cases ending : ln.getLast? with
    | none =>
      rw [getLast?_eq_none_iff.mp ending]
      rfl
    | some c =>
      have hm : c ∈ ln := mem_of_getLast? ending
      have ho : (c == '\n') = false := beq_false_of_ne (hub.ne_feed hm)
      rw [if_neg (by simpa using ne_nil_of_mem hm), Option.all_some, ho]
      rfl
  | ended ln boundary tl hub bound ih =>
    obtain ⟨_, hh, behind⟩ := forall_mem_append.mp only |>.imp_right forall_mem_cons.mp
    obtain rfl : boundary = '\n' := by
      rw [isOtherBoundary, bound, Bool.true_and, bne_eq_false_iff_eq] at hh
      exact hh
    rw [splitNewline_feed hub, splitLines_ended hub bound (by decide), ih behind]
    rw [List.getLast?_append, getLast?_cons]
    cases tl.getLast? <;> rfl

end SourceAudit.Text

namespace SourceAudit.Rules

open SourceAudit.Source (lineAt?)

def everyLine : Rule :=
  { id := .text "line", name := .text "Line", pattern := .text "^", severity := .text "low"
    description := .text "" }

def lineStart : Pattern.Pattern :=
  { node := .anchor .textStart, groups := 1, names := [] }

theorem compiled?_everyLine : everyLine.compiled? = some lineStart := rfl

theorem exists_mem_findAll_lineStart (ln : List Char) : ∃ f, f ∈ lineStart.findAll ln := by
  cases ln with
  | nil => exact ⟨_, mem_cons_self⟩
  | cons c ln => exact ⟨_, mem_cons_self⟩

theorem lineAt?_of_mem_matchesOf {ls : List (List Char)} {rl : Rule} {f : RuleMatch}
    (hm : f ∈ matchesOf ls rl) : ∃ ln, lineAt? ls f.line = some ln := by
  rw [matchesOf] at hm
  split at hm
  · cases hm
  · obtain ⟨⟨ln, i⟩, ht, hi⟩ := mem_flatMap.mp hm
    obtain ⟨_, _, rfl⟩ := List.mem_map.mp hi
    exact ⟨ln, mem_zipIdx_iff_getElem?.mp ht⟩

theorem exists_mem_matchesOf_everyLine {ls : List (List Char)} {n : Nat} {ln : List Char}
    (ht : lineAt? ls n = some ln) : ∃ f ∈ matchesOf ls everyLine, f.line = n := by
  cases n with
  | zero => cases ht
  | succ i =>
    obtain ⟨pl, matched⟩ := exists_mem_findAll_lineStart ln
    exact ⟨_, mem_flatMap.mpr ⟨(ln, i), mem_zipIdx_iff_getElem?.mpr ht,
      List.mem_map.mpr ⟨pl, matched, rfl⟩⟩, rfl⟩

def Reported (src : String) (n : Nat) : Prop :=
  ∃ rs, ∃ f ∈ matchRules src rs, f.line = n

theorem reported_iff {src : String} {n : Nat} :
    Reported src n ↔
      src.isEmpty = false ∧ ∃ ln, lineAt? (Text.splitNewline src.toList) n = some ln := by
  constructor
  · rintro ⟨rs, f, hm, rfl⟩
    rw [matchRules] at hm
    split_ifs at hm with empty
    · cases hm
    · obtain ⟨rl, _, hi⟩ := mem_flatMap.mp (mem_mergeSort.mp hm)
      exact ⟨Bool.eq_false_of_not_eq_true empty, lineAt?_of_mem_matchesOf hi⟩
  · rintro ⟨hne, ln, ht⟩
    obtain ⟨f, hm, numbered⟩ := exists_mem_matchesOf_everyLine ht
    refine ⟨[everyLine], f, ?_, numbered⟩
    rw [matchRules, hne]
    refine mem_mergeSort.mpr (mem_flatMap.mpr ⟨everyLine, ?_, hm⟩)
    exact mem_singleton_self _

end SourceAudit.Rules

namespace SourceAudit.Source

/-! ## Numbers of flows -/

theorem length_stripFrom (inside : Bool) (ls : List (List Char)) :
    (stripFrom inside ls).length = ls.length := by
  induction ls generalizing inside with
  | nil => rfl
  | cons ln ls ih =>
    rw [stripFrom, length_cons, ih, length_cons]

variable {ls : List (List Char)}

theorem exists_line_of_stripFrom {inside : Bool} {i : Nat} {code : List Char}
    (ht : (stripFrom inside ls)[i]? = some code) (hne : code ≠ []) :
    ∃ ln, ls[i]? = some ln ∧ ln ≠ [] := by
  induction ls generalizing inside i with
  | nil => cases ht
  | cons ln ls ih =>
    rw [stripFrom] at ht
    cases i with
    | zero =>
      refine ⟨ln, rfl, ?_⟩
      rintro rfl
      rw [dropBlocks_nil] at ht
      exact hne (Option.some.inj ht).symm
    | succ i => exact ih ht

theorem exists_line_of_codeLines {src : List Char} {n : Nat} {code : List Char}
    (ht : lineAt? (codeLines src) n = some code) (hne : code ≠ []) :
    ∃ ln, lineAt? (Text.splitNewline src) n = some ln ∧ ln ≠ [] := by
  cases n with
  | zero => cases ht
  | succ i =>
    rw [lineAt?, codeLines, getElem?_map, Option.map_eq_some_iff] at ht
    obtain ⟨stripped, ht, rfl⟩ := ht
    refine exists_line_of_stripFrom ht ?_
    rintro rfl
    exact hne rfl

namespace Dialect

variable {src : String} {n : Nat}

def Traced (d : Dialect) (src : String) (n : Nat) : Prop :=
  ∃ fl ∈ d.taintRules.flows src.toList,
    n = fl.origin.line ∨ n = fl.sink.line

theorem hasSource_nil (d : Dialect) : d.taintRules.hasSource [] = false := by
  cases d with
  | go => decide +kernel
  | java => decide +kernel

theorem licensed_of_mem (d : Dialect) {fl : LineFlow} (hm : fl ∈ d.taintRules.flows src.toList) :
    Licensed d.taintRules (codeLines src.toList) fl := by
  obtain ⟨n, code, hh, hm⟩ := d.taintRules_quiet.mem_flows_iff.mp hm
  exact ((tracks_environmentAfter _ _ n).licensed hh hm).2

theorem Traced.exists_line {d : Dialect} (traced : d.Traced src n) :
    ∃ ln, lineAt? (Text.splitNewline src.toList) n = some ln ∧ ln ≠ [] := by
  obtain ⟨fl, hm, rfl | rfl⟩ := traced
  · have licensed := d.licensed_of_mem hm
    refine exists_line_of_codeLines licensed.origin ?_
    intro empty
    have mentions := licensed.source
    rw [empty, d.hasSource_nil] at mentions
    cases mentions
  · have licensed := d.licensed_of_mem hm
    refine exists_line_of_codeLines licensed.sink ?_
    intro empty
    obtain ⟨_, _, _, calls, _⟩ := licensed.rule
    rw [empty] at calls
    exact sink?_ne_none licensed.rule.mem calls d.taintRules_quiet.sink

end Dialect

/-! ## Numbers of blocks -/

theorem mem_withRests {start n : Nat} {ln : List Char} {tl : List (List Char)}
    (hm : (n, ln, tl) ∈ withRests start ls) :
    start ≤ n ∧ n + (ln :: tl).length = start + ls.length := by
  induction ls generalizing start with
  | nil => cases hm
  | cons a ls ih =>
    rw [withRests, mem_cons] at hm
    rcases hm with hh | behind
    · cases hh
      exact ⟨Nat.le_refl _, rfl⟩
    · obtain ⟨later, total⟩ := ih behind
      simp only [length_cons] at total ⊢
      omega

theorem balancedLine?_bounds {balance : Int} {n last : Nat}
    (ends : balancedLine? balance n ls = some last) : n ≤ last ∧ last < n + ls.length := by
  induction ls generalizing balance n with
  | nil => cases ends
  | cons ln ls ih =>
    rw [balancedLine?] at ends
    rw [length_cons]
    split_ifs at ends with closed
    · cases ends
      omega
    · have later := ih ends
      omega

theorem bounds_of_mem_blocksOf {openings : List Opening} {skips : List Char → Bool} {block : Block}
    (hm : block ∈ blocksOf openings skips ls) :
    ∀ n ∈ block.first :: block.last :: block.body, n ≤ ls.length := by
  obtain ⟨⟨a, ln, tl⟩, ht, made⟩ := mem_filterMap.mp hm
  obtain ⟨_, total⟩ := mem_withRests ht
  rw [length_cons] at total
  dsimp only at made
  split_ifs at made with skipped
  obtain ⟨opened, _, rfl⟩ := Option.map_eq_some_iff.mp made
  rw [forall_mem_cons, forall_mem_cons]
  refine ⟨by dsimp only; omega, ?_, ?_⟩
  · dsimp only
    cases balanced : balancedLine? 0 a (ln :: tl) with
    | none => exact Nat.le_refl _
    | some last =>
      have bounds := balancedLine?_bounds balanced
      rw [length_cons] at bounds
      rw [Option.getD_some]
      omega
  · intro n hi
    obtain ⟨⟨other, c, behind⟩, kept, rfl⟩ := List.mem_map.mp hi
    obtain ⟨_, total⟩ := mem_withRests (mem_filter.mp kept).1
    rw [length_cons] at total
    omega

namespace Dialect

variable {src : String} {n : Nat}

def blocks : Dialect → String → List Block
  | .go => Go.blocks
  | .java => Java.blocks

def Framed (d : Dialect) (src : String) (n : Nat) : Prop :=
  ∃ block ∈ d.blocks src, n ∈ block.first :: block.last :: block.body

theorem Framed.le_length {d : Dialect} (framed : d.Framed src n) :
    n ≤ (Text.splitLines src.toList).length := by
  obtain ⟨block, hm, hrep⟩ := framed
  rw [← length_stripFrom false]
  cases d with
  | go =>
    exact bounds_of_mem_blocksOf hm n hrep
  | java =>
    rw [blocks] at hm
    exact bounds_of_mem_blocksOf hm n hrep

end Dialect

/-! ## Agreement -/

def Alike (src : String) (n : Nat) : Prop :=
  lineAt? (Text.splitNewline src.toList) n = lineAt? (Text.splitLines src.toList) n

section OnlyFeeds

variable {src : String} {n : Nat} (only : ∀ c ∈ src.toList, Text.isOtherBoundary c = false)

include only

theorem alike_of_le_length (hi : n ≤ (Text.splitLines src.toList).length) : Alike src n := by
  rw [Alike, Text.splitNewline_eq_of_only_feeds only]
  cases n with
  | zero => rfl
  | succ i => exact getElem?_append_left hi

theorem alike_of_line {ln : List Char}
    (ht : lineAt? (Text.splitNewline src.toList) n = some ln) (hne : ln ≠ []) : Alike src n := by
  refine alike_of_le_length only (Nat.le_of_not_lt fun beyond => ?_)
  cases n with
  | zero => cases ht
  | succ i =>
    rw [lineAt?, Text.splitNewline_eq_of_only_feeds only,
      getElem?_append_right (Nat.le_of_lt_succ beyond)] at ht
    have hm := mem_of_getElem? ht
    split_ifs at hm
    · exact hne (mem_singleton.mp hm)
    · cases hm

theorem splitNewline_eq_of_not_ended (hne : src.isEmpty = false)
    (unended : src.toList.getLast? ≠ some '\n') :
    Text.splitNewline src.toList = Text.splitLines src.toList := by
  rw [Text.splitNewline_eq_of_only_feeds only, if_neg, append_nil]
  cases ending : src.toList.getLast? with
  | none =>
    have empty : src = "" := String.toList_eq_nil_iff.mp (getLast?_eq_none_iff.mp ending)
    rw [empty] at hne
    cases hne
  | some c =>
    rw [Option.all_some, beq_iff_eq]
    rintro rfl
    exact unended ending

end OnlyFeeds

theorem only_feeds_of_alike {src : String} (hp : '\r' ∉ src.toList)
    (alike : ∀ n, Rules.Reported src n → Alike src n) :
    ∀ c ∈ src.toList, Text.isOtherBoundary c = false := by
  intro c hm
  rw [← Bool.not_eq_true]
  intro ho
  rw [Text.isOtherBoundary, Bool.and_eq_true, bne_iff_ne] at ho
  obtain ⟨ln, ht, hi⟩ := Text.exists_line_of_mem hm ho.2
  obtain ⟨i, hf⟩ := mem_iff_getElem?.mp ht
  have hne : src.isEmpty = false := by
    rw [← Bool.not_eq_true, String.isEmpty_iff]
    rintro rfl
    cases hm
  have hs := alike (i + 1) (Rules.reported_iff.mpr ⟨hne, ln, hf⟩)
  rw [Alike, lineAt?, hf] at hs
  have hub := Text.unbroken_of_mem_splitLines hp (mem_of_getElem? hs.symm)
  rw [hub c hi] at ho
  exact Bool.false_ne_true ho.1

theorem not_ended_of_alike {src : String} (only : ∀ c ∈ src.toList, Text.isOtherBoundary c = false)
    (alike : ∀ n, Rules.Reported src n → Alike src n) : src.toList.getLast? ≠ some '\n' := by
  intro he
  have hne : src.isEmpty = false := by
    rw [← Bool.not_eq_true, String.isEmpty_iff]
    rintro rfl
    cases he
  have lines := Text.splitNewline_eq_of_only_feeds only
  rw [he, Option.all_some] at lines
  have ht : lineAt? (Text.splitNewline src.toList)
      ((Text.splitLines src.toList).length + 1) = some [] := by
    rw [lineAt?, lines, getElem?_append_right (Nat.le_refl _), Nat.sub_self]
    rfl
  have hs := alike _ (Rules.reported_iff.mpr ⟨hne, [], ht⟩)
  rw [Alike, ht, lineAt?, getElem?_eq_none (Nat.le_refl _)] at hs
  cases hs

/--
In a source without carriage returns, every number that rules, taint or blocks can report names the
same line in both numberings exactly when line feeds are its only boundaries and it does not end with
one.  Where line feeds are the only boundaries, the numbers of taint and blocks do so whatever the end
is.  In any source a line begins in the second numbering as many lines further as other boundaries
stand before it.
-/
theorem reported_alike_iff_only_feeds (dialect : Dialect) {source : String}
    (plain : '\r' ∉ source.toList) :
    ((∀ number, Rules.Reported source number ∨ dialect.Traced source number ∨
          dialect.Framed source number → Alike source number) ↔
        (∀ c ∈ source.toList, Text.isOtherBoundary c = false) ∧
          source.toList.getLast? ≠ some '\n') ∧
      ((∀ c ∈ source.toList, Text.isOtherBoundary c = false) →
        ∀ number, dialect.Traced source number ∨ dialect.Framed source number →
          Alike source number) ∧
      ∀ index line, (Text.splitNewline source.toList)[index]? = some line →
        (line ≠ [] ∨ index + 1 < (Text.splitNewline source.toList).length) →
        (Text.splitLines source.toList)[index +
            Text.othersBefore (Text.splitNewline source.toList) index]? =
          some (line.takeWhile (!Text.isLineBoundary ·)) := by
  have settled (only : ∀ c ∈ source.toList, Text.isOtherBoundary c = false) (number : Nat)
      (reported : dialect.Traced source number ∨ dialect.Framed source number) :
      Alike source number := by
    rcases reported with traced | framed
    · obtain ⟨line, there, nonempty⟩ := traced.exists_line
      exact alike_of_line only there nonempty
    · exact alike_of_le_length only framed.le_length
  refine ⟨⟨?_, ?_⟩, settled, fun index line there shown =>
    Text.getElem?_splitLines plain there shown⟩
  · intro alike
    have ruled (number : Nat) (reported : Rules.Reported source number) : Alike source number :=
      alike number (Or.inl reported)
    have only := only_feeds_of_alike plain ruled
    exact ⟨only, not_ended_of_alike only ruled⟩
  · rintro ⟨only, unended⟩ number (reported | reported)
    · obtain ⟨nonempty, _⟩ := Rules.reported_iff.mp reported
      rw [Alike, splitNewline_eq_of_not_ended only nonempty unended]
    · exact settled only number reported

/-- A form feed before the end of a line moves the number of the block behind it. -/
theorem block_behind_form_feed :
    '\r' ∉ "x := 1\x0c\nif x \x7b\n\x7d\n".toList ∧
      ((Go.blocks "x := 1\x0c\nif x \x7b\n\x7d\n").map fun block => (block.first, block.last)) =
        [(3, 4)] ∧
      ¬ ∀ number, Rules.Reported "x := 1\x0c\nif x \x7b\n\x7d\n" number ∨
          Dialect.go.Traced "x := 1\x0c\nif x \x7b\n\x7d\n" number ∨
            Dialect.go.Framed "x := 1\x0c\nif x \x7b\n\x7d\n" number →
          Alike "x := 1\x0c\nif x \x7b\n\x7d\n" number := by
  have plain : '\r' ∉ "x := 1\x0c\nif x \x7b\n\x7d\n".toList := by decide
  refine ⟨plain, by decide +kernel, fun alike => ?_⟩
  obtain ⟨only, _⟩ := (reported_alike_iff_only_feeds .go plain).1.mp alike
  exact absurd (only '\x0c' (by decide)) (by decide)

end SourceAudit.Source
