import SourceAudit.Dependencies.Manifest
import SourceAudit.Proofs.PatternContent
import SourceAudit.Proofs.PatternRuns
import SourceAudit.Proofs.TextCutting
import Mathlib.Data.List.TakeWhile

/-!
# Requirements with a version

A line of a requirement list names a package, compares its version and may end in a comment. The
pattern of such lines knows neither blanks nor all the signs that a version may have.
-/

open List

namespace SourceAudit.Pattern

variable {pl after : Place} {body : Node}

theorem run_optional (body : Node) (next : Continuation) (pl : Place) :
    (Node.repetition body 0 (some 1) .greedy).run next pl =
      (body.run next pl).orElse fun _ => next pl := by
  have once (after : Place) : rounds (fun next pl => body.run next pl) 0 (some 1) .greedy next
      (pl.rest.length + 1) 1 (some pl.position) after = next after := by
    rw [rounds, if_neg (Nat.not_lt_zero _)]
    rfl
  rw [Node.run, rounds, if_neg (Nat.not_lt_zero _)]
  · simp only [Nat.zero_add, once]
    rfl
  · intro hs
    cases hs

theorem Node.Leads.optional (leads : body.Leads pl after) :
    (Node.repetition body 0 (some 1) .greedy).Leads pl after := by
  intro next r hd
  rw [run_optional, leads next r hd]
  rfl

theorem leads_optional_of_refused (refused : ∀ next, body.run next pl = none) :
    (Node.repetition body 0 (some 1) .greedy).Leads pl pl := by
  intro next r hd
  rw [run_optional, refused]
  exact hd

end SourceAudit.Pattern

namespace SourceAudit.Dependencies

open SourceAudit.Pattern

/-! ## The pattern of requirements -/

def nameItems : List SetItem :=
  [.category .word false false, .char '-', .char '_', .char '.']

def operatorItems : List SetItem :=
  [.char '>', .char '<', .char '=', .char '!']

def versionItems : List SetItem :=
  [.category .digit false false, .char '.', .category .word false false]

def comparisonNode : Node :=
  .seq (.group 2 (.oneOrMore false operatorItems)) (.group 3 (.oneOrMore false versionItems))

theorem requirementPattern_node : requirementPattern.node =
    .seq (.anchor .textStart) (.seq (.group 1 (.oneOrMore false nameItems))
      (.repetition comparisonNode 0 (some 1) .greedy)) := by
  decide +kernel

variable {name operator version tl : List Char}

theorem requirement?_of_leads {source : String} {t : List Char} {named after : Place}
    (names : (Node.group 1 (.oneOrMore false nameItems)).Leads (Place.start t) named)
    (compares : (Node.repetition comparisonNode 0 (some 1) .greedy).Leads named after) :
    requirement? source t =
      some { name := (Match.of t (Place.start t) after).group 1
             version := ((Match.of t (Place.start t) after).group? 3).getD unknown
             constraint := some (((Match.of t (Place.start t) after).group? 2).getD "==")
             source } := by
  have leads : requirementPattern.node.Leads (Place.start t) after := by
    intro next r hd
    rw [requirementPattern_node, Node.run, Node.run]
    exact names.seq compares next r hd
  rw [requirement?, matchStart?_of_leads leads, Option.map_some]

theorem requirement?_compared (source : String)
    (hn : name ≠ [] ∧ name.all (Node.passes false nameItems) = true)
    (compared : operator ≠ [] ∧ operator.all (Node.passes false operatorItems) = true)
    (versioned : version ≠ [] ∧ version.all (Node.passes false versionItems) = true)
    (nameEnds : Refused (Node.passes false nameItems) (operator ++ (version ++ tl)) = true)
    (operatorEnds : Refused (Node.passes false operatorItems) (version ++ tl) = true)
    (versionEnds : Refused (Node.passes false versionItems) tl = true) :
    requirement? source (name ++ (operator ++ (version ++ tl))) =
      some { name := .ofList name, version := .ofList version, constraint := some (.ofList operator)
             source } := by
  let start := Place.start (name ++ (operator ++ (version ++ tl)))
  let a := start.past (some 1) name (operator ++ (version ++ tl))
  let b := a.past (some 2) operator (version ++ tl)
  have names : (Node.group 1 (.oneOrMore false nameItems)).Leads start a :=
    (Node.leads_oneOrMore rfl hn.2 hn.1 nameEnds).group 1
  have operators : (Node.group 2 (.oneOrMore false operatorItems)).Leads a b :=
    (Node.leads_oneOrMore rfl compared.2 compared.1 operatorEnds).group 2
  have versions : (Node.group 3 (.oneOrMore false versionItems)).Leads b
      (b.past (some 3) version tl) :=
    (Node.leads_oneOrMore rfl versioned.2 versioned.1 versionEnds).group 3
  have within : start.Within _ := Place.within_start _
  have firstWithin : a.Within _ := within.past rfl
  have nameHeld : a.Holds _ 1 name := within.holds_past rfl
  have operatorHeld : b.Holds _ 2 operator := firstWithin.holds_past rfl
  have versionHeld : (b.past (some 3) version tl).Holds _ 3 version :=
    (firstWithin.past rfl).holds_past rfl
  rw [requirement?_of_leads names (operators.seq versions).optional,
    ((nameHeld.past (by decide) _ _).past (by decide) _ _).group (by decide),
    (operatorHeld.past (by decide) _ _).group? (by decide), versionHeld.group? (by decide)]
  rfl

theorem requirement?_uncompared (source : String)
    (hn : name ≠ [] ∧ name.all (Node.passes false nameItems) = true)
    (nameEnds : Refused (Node.passes false nameItems) tl = true)
    (refused : ∀ next pl, Place.rest pl = tl → comparisonNode.run next pl = none) :
    requirement? source (name ++ tl) =
      some { name := .ofList name, version := unknown, constraint := some "==", source } := by
  let start := Place.start (name ++ tl)
  have names : (Node.group 1 (.oneOrMore false nameItems)).Leads start
      (start.past (some 1) name tl) :=
    (Node.leads_oneOrMore rfl hn.2 hn.1 nameEnds).group 1
  rw [requirement?_of_leads names (leads_optional_of_refused fun next => refused next _ rfl),
    ((Place.within_start _).holds_past rfl).group (by decide)]
  rfl

theorem refused_append {test : Char → Bool} {t : List Char} (hne : t ≠ [])
    (tl : List Char) : Refused test (t ++ tl) = Refused test t := by
  cases t with
  | nil => exact absurd rfl hne
  | cons c t => rfl

theorem mem_operatorItems {c : Char} :
    Node.passes false operatorItems c = true ↔ c = '>' ∨ c = '<' ∨ c = '=' ∨ c = '!' := by
  simp [Node.passes, operatorItems, SetItem.holds, Folding.same, Folding.small, @eq_comm _ c]

/-- A blank after the operator, wherever the operator ends, is no version. -/
theorem run_comparisonNode_blank {pl : Place} (next : Continuation)
    (compared : operator.all (Node.passes false operatorItems) = true)
    (ahead : pl.rest = operator ++ ' ' :: tl) : comparisonNode.run next pl = none := by
  rw [Option.eq_none_iff_forall_ne_some]
  intro r hd
  rw [comparisonNode, Node.run] at hd
  obtain ⟨after, ⟨t, shape, _, free⟩, later⟩ :=
    @Node.safe_run [' '] (.group 2 (.oneOrMore false operatorItems)) (by decide) _ _ _ hd
  rw [ahead] at shape
  have refused : Refused (Node.passes false versionItems) after.rest = true := by
    rcases append_eq_append_iff.mp shape with ⟨more, rfl, behind⟩ | ⟨more, rfl, behind⟩
    · cases more with
      | nil => rw [← show ' ' :: tl = after.rest from behind]; rfl
      | cons c more =>
        obtain ⟨rfl, _⟩ := List.cons.inj behind
        simp at free
    · rw [behind]
      cases more with
      | nil => rfl
      | cons c more =>
        have signs := mem_operatorItems.mp (all_eq_true.mp compared c (by simp))
        rcases signs with rfl | rfl | rfl | rfl <;> rfl
  rw [Node.run, Node.run_oneOrMore_refused refused] at later
  cases later

/-! ## Lines with a requirement -/

def operators : List (List Char) :=
  ["==", ">=", "<=", "!=", ">", "<"].map String.toList

def isNameSign (c : Char) : Bool :=
  Text.isWord c || c == '-' || c == '.'

/-- The signs of a version that the pattern does not read. -/
def isForeign (c : Char) : Bool :=
  c == '+' || c == '-' || c == '*' || c == '!'

def startsVersion (c : Char) : Bool :=
  Text.isAsciiDigit c || c == 'v' || c == 'V'

structure Requirement where
  name : List Char
  operator : List Char
  version : List Char
  before : Nat
  behind : Nat
  blanks : Nat
  comment : Option (List Char)
  named : name ≠ [] ∧ name.all isNameSign = true
  compares : operator ∈ operators
  versioned : version.head?.any startsVersion = true
  signs : ∀ c ∈ version, Text.isWord c = true ∨ c = '.' ∨ isForeign c = true

namespace Requirement

variable (req : Requirement)

def tail : List Char :=
  replicate req.blanks ' ' ++ (req.comment.map ('#' :: ·)).getD []

def text : List Char :=
  req.name ++ (replicate req.before ' ' ++ (req.operator ++
    (replicate req.behind ' ' ++ (req.version ++ req.tail))))

def entry (op ver : List Char) : Dependency :=
  { name := .ofList req.name, version := .ofList ver
    constraint := some (.ofList op), source := "requirements.txt" }

def declared : Dependency :=
  req.entry req.operator req.version

def Tight : Prop :=
  req.before = 0 ∧ req.behind = 0

instance : Decidable req.Tight := inferInstanceAs (Decidable (_ ∧ _))

def read : Dependency :=
  if req.Tight then
    req.entry req.operator (req.version.takeWhile (!isForeign ·))
  else req.entry "==".toList unknown.toList

end Requirement

section

variable (req : Requirement)

theorem operators_pass : ∀ op ∈ operators, op ≠ [] ∧
    op.all (Node.passes false operatorItems) = true ∧
      Refused (Node.passes false nameItems) op = true := by
  decide +kernel

theorem passes_name : req.name ≠ [] ∧ req.name.all (Node.passes false nameItems) = true := by
  refine ⟨req.named.1, all_eq_true.mpr fun c hm => ?_⟩
  have sign := all_eq_true.mp req.named.2 c hm
  simp only [isNameSign, Bool.or_eq_true, beq_iff_eq] at sign
  rcases sign with (word | rfl) | rfl
  · simp [Node.passes, nameItems, SetItem.holds, Category.holds, word]
  · rfl
  · rfl

theorem sign_of_isForeign {c : Char} (hfor : isForeign c = true) :
    c = '+' ∨ c = '-' ∨ c = '*' ∨ c = '!' := by
  simpa [isForeign, or_assoc] using hfor

theorem passes_version {c : Char} (hm : c ∈ req.version) :
    Node.passes false versionItems c = !isForeign c := by
  rcases req.signs c hm with word | rfl | hfor
  · have ho : isForeign c = false := by
      by_contra hfor
      rw [Bool.not_eq_false] at hfor
      rcases sign_of_isForeign hfor with rfl | rfl | rfl | rfl <;> cases word
    simp [Node.passes, versionItems, SetItem.holds, Category.holds, word, ho]
  · rfl
  · rcases sign_of_isForeign hfor with rfl | rfl | rfl | rfl <;> rfl

theorem exists_version : ∃ c tl, req.version = c :: tl ∧ startsVersion c = true := by
  have starts := req.versioned
  cases shape : req.version with
  | nil => simp [shape] at starts
  | cons c tl => exact ⟨c, tl, rfl, by simpa [shape] using starts⟩

theorem requirement?_text {tail : List Char}
    (he : Refused (Node.passes false versionItems) tail = true) :
    requirement? "requirements.txt" (req.name ++ (replicate req.before ' ' ++
      (req.operator ++ (replicate req.behind ' ' ++ (req.version ++ tail))))) = some req.read := by
  obtain ⟨hne, compared, starts⟩ := operators_pass _ req.compares
  have hn := passes_name req
  rw [Requirement.read]
  split_ifs with tight
  · obtain ⟨c, tl, shape, h1⟩ := exists_version req
    have digit : isForeign c = false ∧ Node.passes false operatorItems c = false := by
      constructor <;> by_contra sign <;> rw [Bool.not_eq_false] at sign
      · rcases sign_of_isForeign sign with rfl | rfl | rfl | rfl <;> cases h1
      · rcases mem_operatorItems.mp sign with rfl | rfl | rfl | rfl <;> cases h1
    have hb : req.version.takeWhile (!isForeign ·) = c :: tl.takeWhile (!isForeign ·) := by
      rw [shape, takeWhile_cons_of_pos (by simp [digit.1])]
    have passes : (req.version.takeWhile (!isForeign ·)).all
        (Node.passes false versionItems) = true := by
      refine all_eq_true.mpr fun d hm => ?_
      rw [passes_version req ((takeWhile_sublist _).mem hm)]
      simpa using mem_takeWhile_imp hm
    have ends : Refused (Node.passes false versionItems)
        (req.version.dropWhile (!isForeign ·) ++ tail) = true := by
      cases dropped : req.version.dropWhile (!isForeign ·) with
      | nil => exact he
      | cons d others =>
        have hfor : isForeign d = true := by
          have stopped := head?_dropWhile_not (!isForeign ·) req.version
          simpa [dropped] using stopped
        have hm : d ∈ req.version := (dropWhile_sublist _).mem (dropped ▸ mem_cons_self)
        simp [Refused, passes_version req hm, hfor]
    have parts : req.version ++ tail = req.version.takeWhile (!isForeign ·) ++
        (req.version.dropWhile (!isForeign ·) ++ tail) := by
      rw [← append_assoc, takeWhile_append_dropWhile]
    rw [tight.1, tight.2, replicate_zero, nil_append, nil_append, parts]
    refine requirement?_compared _ hn ⟨hne, compared⟩ ⟨by simp [hb], passes⟩ ?_ ?_ ends
    · rw [refused_append hne]
      exact starts
    · rw [hb]
      simp [Refused, digit.2]
  · cases before : req.before with
    | succ n =>
      rw [replicate_succ, cons_append]
      exact requirement?_uncompared _ hn rfl fun next pl ahead =>
        @run_comparisonNode_blank [] _ _ next rfl ahead
    | zero =>
      cases behind : req.behind with
      | zero => exact absurd ⟨before, behind⟩ tight
      | succ n =>
        rw [replicate_zero, nil_append, replicate_succ, cons_append]
        refine requirement?_uncompared _ hn ?_ fun next pl ahead =>
          run_comparisonNode_blank next compared ahead
        rw [refused_append hne]
        exact starts

theorem trim_text : ∃ tail, Refused (Node.passes false versionItems) tail = true ∧
    Text.trim req.text = req.name ++ (replicate req.before ' ' ++
      (req.operator ++ (replicate req.behind ' ' ++ (req.version ++ tail)))) := by
  obtain ⟨c, nm, shape⟩ := exists_cons_of_ne_nil req.named.1
  obtain ⟨d, tl, versionShape, _⟩ := exists_version req
  obtain ⟨pre, last, ending⟩ := eq_nil_or_concat req.version |>.resolve_left
    (by simp [versionShape])
  have solid : Text.isBlank c = false := by
    have sign := all_eq_true.mp req.named.2 c (shape ▸ mem_cons_self)
    simp only [isNameSign, Bool.or_eq_true, beq_iff_eq] at sign
    rcases sign with (word | rfl) | rfl
    · exact Text.isBlank_of_isWord word
    · rfl
    · rfl
  have closing : Text.isBlank last = false := by
    rcases req.signs last (by simp [ending]) with word | rfl | hfor
    · exact Text.isBlank_of_isWord word
    · rfl
    · rcases sign_of_isForeign hfor with rfl | rfl | rfl | rfl <;> rfl
  refine ⟨Text.trimRightWith Text.isBlank req.tail, ?_, ?_⟩
  · have he : Refused (Node.passes false versionItems) req.tail = true := by
      rw [Requirement.tail]
      cases req.blanks with
      | succ n => rfl
      | zero => cases req.comment <;> rfl
    obtain ⟨tl, parts⟩ := @Text.trimRightWith_isPrefix Text.isBlank req.tail
    rw [← parts] at he
    cases trimmed : Text.trimRightWith Text.isBlank req.tail with
    | nil => rfl
    | cons c t => simpa [trimmed, Refused] using he
  · rw [Requirement.text, shape, cons_append, Text.trim_cons_of_solid solid, ending]
    simp only [concat_eq_append, append_assoc, cons_append, nil_append]
    simp only [← append_assoc]
    rw [Text.trimRightWith_append_cons closing]

theorem read_eq_declared : req.read = req.declared ↔
    req.Tight ∧ ∀ c ∈ req.version, isForeign c = false := by
  rw [Requirement.read, Requirement.declared]
  split_ifs with tight
  · simp [Requirement.entry, tight, String.ofList_inj]
  · obtain ⟨c, tl, shape, h1⟩ := exists_version req
    refine iff_of_false (fun hs => ?_) fun tightly => tight tightly.1
    have hs : 'u' = c := by
      have versions := congrArg (fun e => e.version.toList.head?) hs
      simpa [Requirement.entry, shape, unknown] using versions
    rw [← hs] at h1
    cases h1

end

theorem requirementList_texts (requirements : List Requirement) :
    requirementList (requirements.map Requirement.text) = requirements.map Requirement.read ∧
      (requirementList (requirements.map Requirement.text) = requirements.map Requirement.declared ↔
        ∀ requirement ∈ requirements,
          requirement.Tight ∧ ∀ c ∈ requirement.version, isForeign c = false) := by
  have each (requirement : Requirement) : (if (Text.trim requirement.text).isEmpty ||
          (Text.trim requirement.text).head? == some '#' then none
        else requirement? "requirements.txt" (Text.trim requirement.text)) =
        some requirement.read := by
    obtain ⟨tail, ended, trimmed⟩ := trim_text requirement
    obtain ⟨c, name, shape⟩ := List.exists_cons_of_ne_nil requirement.named.1
    have solid : c ≠ '#' := by
      rintro rfl
      have sign := List.all_eq_true.mp requirement.named.2 '#' (by simp [shape])
      cases sign
    rw [trimmed, requirement?_text requirement ended]
    simp [shape, solid]
  have readings : requirementList (requirements.map Requirement.text) =
      requirements.map Requirement.read := by
    rw [requirementList, List.filterMap_map, ← List.filterMap_eq_map]
    exact List.filterMap_congr fun requirement _ => each requirement
  refine ⟨readings, ?_⟩
  rw [readings, List.map_inj_left]
  exact forall₂_congr fun requirement _ => read_eq_declared requirement

end SourceAudit.Dependencies
