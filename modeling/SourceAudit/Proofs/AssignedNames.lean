import SourceAudit.Proofs.TaintReachability
import SourceAudit.Proofs.TextWords

/-!
# Names that an assignment taints

An assignment to one name taints one name, the last word before the operator or the first one. It is
not always the name that is assigned: a sign of the operator counts as a word, and the end of a name
may count as a keyword.
-/

open List Option

namespace SourceAudit.Source

open SourceAudit.Text

/-! ## The operator -/

section

variable {declaring : Bool} {pre tl t nm : List Char} {last : Char}

theorem cutAssignment?_equals (free : '=' ∉ pre) (joins : joinsComparison last = false)
    (colon : last ≠ ':') (ends : tl.head? ≠ some '=') (prev : Option Char) :
    cutAssignment? declaring prev (pre ++ last :: '=' :: tl) = some (pre ++ [last], tl) := by
  have ho : last ≠ '=' := by
    rintro rfl
    cases joins
  induction pre generalizing prev with
  | nil => simp [cutAssignment?, colon, joins, ends]
  | cons c pre ih =>
    rw [mem_cons, not_or] at free
    have next : pre.head?.getD last ≠ '=' := by
      cases pre with
      | nil => exact ho
      | cons d pre => exact fun hs => free.2 (hs ▸ mem_cons_self)
    rw [cons_append, cutAssignment?, if_neg (by simp [next]),
      if_neg (by simp [Ne.symm free.1]), ih free.2]
    rfl

theorem cutAssignment?_short (free : ∀ c ∈ pre, c ≠ '=' ∧ c ≠ ':') (prev : Option Char) :
    cutAssignment? true prev (pre ++ ':' :: '=' :: tl) = some (pre, tl) := by
  induction pre generalizing prev with
  | nil => simp [cutAssignment?]
  | cons c pre ih =>
    rw [forall_mem_cons] at free
    rw [cons_append, cutAssignment?, if_neg (by simp [free.1.2]), if_neg (by simp [free.1.1]),
      ih free.2]
    rfl

/-! ## Words on the left -/

theorem filterMap_listedParts (pick : List (List Char) → Option (List Char)) (hp : ',' ∉ t)
    (hfl : words t ≠ []) :
    (listedParts t).filterMap (fun part => pick (words part)) = (pick (words t)).toList := by
  have kept : trim t ≠ [] := by
    intro empty
    rw [← words_trim, empty] at hfl
    exact hfl rfl
  have one : listedParts t = [trim t] := by
    rw [listedParts, splitOn_of_missing (by decide)
      (cut?_eq_none_of_notMem (mem_singleton_self ',') hp)]
    simp [kept]
  rw [one, filterMap_cons, words_trim]
  cases pick (words t) <;> rfl

theorem dropKeyword_of_solid {keywords : List (List Char)}
    (solid : ∀ keyword ∈ keywords, ∀ c tl, t = keyword ++ c :: tl → isBlank c = false) :
    dropKeyword keywords t = t := by
  have missed : (keywords.findSome? fun keyword => (after? keyword t).filter fun tl =>
      tl.head?.any isBlank) = none := by
    refine findSome?_eq_none_iff.mpr fun keyword hm => ?_
    refine filter_eq_none_iff.mpr fun tl hf => ?_
    cases tl with
    | nil => simp
    | cons c tl => simp [solid keyword hm c tl (after?_eq_some hf)]
  rw [dropKeyword, missed]

theorem dropKeyword_solid (keywords : List (List Char)) (solid : Solid t) :
    dropKeyword keywords t = t :=
  dropKeyword_of_solid fun _ _ c _ shape => solid c (by simp [shape])

theorem dropKeyword_other {keywords : List (List Char)} (solid : Solid nm)
    (all : ∀ keyword ∈ keywords, Solid keyword) (ho : nm ∉ keywords) (tl : List Char) :
    dropKeyword keywords (nm ++ ' ' :: tl) = nm ++ ' ' :: tl := by
  refine dropKeyword_of_solid fun keyword hm c behind shape => ?_
  by_contra blank
  rw [Bool.not_eq_false] at blank
  exact ho (solid.eq_of_append_cons (all keyword hm) rfl blank shape ▸ hm)

def range : List Char :=
  ['r', 'a', 'n', 'g', 'e']

/-- The keyword with the blank behind it. -/
def ranging : List Char :=
  range ++ [' ']

theorem after?_ranging (solid : Solid nm) (ho : nm ≠ range) (tl : List Char) :
    after? ranging (nm ++ ' ' :: tl) = none := by
  rw [eq_none_iff_forall_ne_some]
  intro behind hf
  have shape := after?_eq_some hf
  rw [ranging, append_assoc, singleton_append] at shape
  exact ho (solid.eq_of_append_cons (by decide) rfl rfl shape)

theorem remove_ranging_of_suffix (solid : Solid nm) (tl : List Char) :
    remove ranging (nm ++ range ++ ' ' :: tl) = nm ++ remove ranging tl := by
  have hf : cut? ranging (nm ++ range ++ ' ' :: tl) = some (nm, tl) := by
    induction nm with
    | nil => exact cut?_append ranging tl
    | cons c nm ih =>
      rw [Solid, forall_mem_cons] at solid
      have whole : Solid (c :: (nm ++ range)) := forall_mem_cons.mpr
          ⟨solid.1, forall_mem_append.mpr ⟨solid.2, show Solid range by decide⟩⟩
      have later := after?_ranging whole (fun hs => by simpa [range] using congrArg List.length hs) tl
      rw [cons_append] at later
      rw [cons_append, cons_append, cut?, later, ih solid.2]
      rfl
  exact remove_of_cut? (by decide) hf

theorem remove_ranging (solid : Solid nm) (ho : ¬ range <:+ nm) (tl : List Char) :
    remove ranging (nm ++ ' ' :: tl) = nm ++ ' ' :: remove ranging tl := by
  have hf : cut? ranging (nm ++ ' ' :: tl) =
      (cut? ranging tl).map fun parts => (nm ++ ' ' :: parts.1, parts.2) := by
    induction nm with
    | nil =>
      rw [nil_append, cut?, show after? ranging (' ' :: tl) = none from rfl]
      rfl
    | cons c nm ih =>
      have hb := after?_ranging solid (fun hs => ho (hs ▸ suffix_rfl)) tl
      rw [cons_append] at hb
      rw [Solid, forall_mem_cons] at solid
      have inner : ¬ range <:+ nm := fun ends => ho (ends.trans (suffix_cons c nm))
      rw [cons_append, cut?, hb, ih solid.2 inner, Option.map_map]
      rfl
  cases hmiss : cut? ranging tl with
  | none =>
    rw [hmiss] at hf
    rw [remove_of_missing (by decide) hf, remove_of_missing (by decide) hmiss]
  | some parts =>
    rw [hmiss] at hf
    rw [remove_of_cut? (by decide) hf, remove_of_cut? (by decide) hmiss, append_assoc,
      cons_append]

theorem Java.assignment?_eq {tgt v : List Char}
    (cut : cutAssignment? false none t = some (pre, ' ' :: v)) (hp : ',' ∉ pre)
    (hr : (words pre).getLast? = some tgt) :
    Java.assignment? t = some ⟨[tgt].filter (· != placeholder), trim v⟩ := by
  have inner : ',' ∉ trim pre := fun hm => hp (mem_of_mem_trim hm)
  rw [Java.assignment?, cut, map_some]
  dsimp only
  rw [filterMap_listedParts List.getLast? inner, words_trim, hr, trim_cons_of_blank rfl]
  · rfl
  · intro empty
    rw [← words_trim, empty] at hr
    cases hr

theorem Go.assignment?_eq {tgt v : List Char}
    (cut : cutAssignment? true none t = some (pre, ' ' :: v)) (hp : ',' ∉ Go.bareTargets (trim pre))
    (hr : (words (Go.bareTargets (trim pre))).head? = some tgt) :
    Go.assignment? t = some ⟨[tgt].filter (· != placeholder), trim v⟩ := by
  rw [Go.assignment?, cut, map_some]
  dsimp only
  rw [filterMap_listedParts List.head? hp, hr, trim_cons_of_blank rfl]
  · rfl
  · intro empty
    rw [empty] at hr
    cases hr

end

/-! ## Lines that assign one name -/

abbrev Name :=
  { t : List Char // t ≠ [] ∧ ∀ c ∈ t, isWord c = true ∨ c = '$' }

def Go.keywords : List (List Char) :=
  ["break", "case", "chan", "const", "continue", "default", "defer", "else", "fallthrough", "for",
    "func", "go", "goto", "if", "import", "interface", "map", "package", "range", "return",
    "select", "struct", "switch", "type", "var"].map String.toList

abbrev Go.Name :=
  { nm : Source.Name // nm.1 ∉ keywords }

/-- Modifiers and types beside a name. -/
abbrev TypeWords :=
  { t : List Char // ',' ∉ t ∧ '=' ∉ t ∧ ∃ pre last, t = pre ++ [last] ∧ isBlank last = false }

/-- The first two forms are of Java, the others of Go. -/
inductive Line where
  | typed (type : Option TypeWords) (nm : Name)
  | added (nm : Name)
  | short (nm : Go.Name)
  | declared (nm : Go.Name) (type : TypeWords)
  | plain (nm : Go.Name)
  | increased (nm : Go.Name)

/-- The first word left of the operator when the keyword is gone. -/
def firstWord (nm behind : List Char) : List Char :=
  if range <:+ nm then
    nm.take (nm.length - range.length) ++ (remove ranging behind).takeWhile (!isBlank ·)
  else nm

namespace Line

def name : Line → List Char
  | .typed _ nm | .added nm => nm
  | .short nm | .declared nm _ | .plain nm | .increased nm => nm.1

def front : Line → List Char
  | .typed none nm => nm
  | .typed (some type) nm => type ++ ' ' :: nm
  | .short nm | .plain nm => nm.1
  | .declared nm type => "var".toList ++ ' ' :: (nm.1 ++ ' ' :: type)
  | .added nm => nm
  | .increased nm => nm.1

def operator : Line → List Char
  | .short _ => " :=".toList
  | .added _ | .increased _ => " +=".toList
  | _ => " =".toList

def text (ln : Line) (v : List Char) : List Char :=
  ln.front ++ (ln.operator ++ ' ' :: v)

def assignment? : Line → List Char → Option Assignment
  | .typed _ _ | .added _ => Java.assignment?
  | _ => Go.assignment?

def target : Line → List Char
  | .added _ => ['+']
  | .declared nm type => firstWord nm.1 type
  | .increased nm => firstWord nm.1 ['+']
  | ln => ln.name

/-- The name that is tainted is the name that is assigned. -/
def Keeps : Line → Prop
  | .added _ => False
  | .declared nm type =>
    range <:+ nm.1.1 → (remove ranging type).takeWhile (!isBlank ·) = range
  | .increased nm => ¬ range <:+ nm.1.1
  | _ => True

end Line

section

variable (nm : Name)

theorem solid_name : Solid nm.1 := by
  intro c hm
  rcases nm.2.2 c hm with word | rfl
  · exact isBlank_of_isWord word
  · rfl

theorem notMem_name {c : Char} (hfor : isWord c = false) (ho : c ≠ '$') : c ∉ nm.1 := by
  intro hm
  rcases nm.2.2 c hm with word | hs
  · rw [word] at hfor
    cases hfor
  · exact ho hs

theorem exists_stem {nm : Go.Name} (ends : range <:+ nm.1.1) :
    ∃ stem, stem ≠ [] ∧ nm.1.1 = stem ++ range := by
  obtain ⟨stem, shape⟩ := ends
  refine ⟨stem, ?_, shape.symm⟩
  rintro rfl
  exact nm.2 (by rw [← shape]; decide)

theorem firstWord_of_stem {t stem : List Char} (shape : t = stem ++ range) (behind : List Char) :
    firstWord t behind = stem ++ (remove ranging behind).takeWhile (!isBlank ·) := by
  rw [firstWord, if_pos ⟨stem, shape.symm⟩, shape, length_append, Nat.add_sub_cancel, take_left]

/-- Without the keyword the left side still starts with a visible character. -/
theorem exists_words_ranging (nm : Go.Name) (behind : List Char) :
    ∃ a tl, remove ranging (nm.1.1 ++ ' ' :: behind) = a :: tl ∧
      isBlank a = false ∧ (words (a :: tl)).head? = some (firstWord nm.1 behind) := by
  by_cases ends : range <:+ nm.1.1
  · obtain ⟨stem, hne, shape⟩ := exists_stem ends
    have solid : Solid stem := fun c hm =>
      solid_name nm.1 c (by rw [shape]; exact mem_append_left range hm)
    have hr := words_append hne solid (remove ranging behind)
    rw [firstWord_of_stem shape, shape, remove_ranging_of_suffix solid]
    obtain ⟨c, stem, rfl⟩ := exists_cons_of_ne_nil hne
    exact ⟨c, _, rfl, solid c mem_cons_self, congrArg List.head? hr⟩
  · have solid := solid_name nm.1
    have hr := words_append_cons (show isBlank ' ' = true from rfl) nm.1.1 (remove ranging behind)
    rw [words_solid nm.1.2.1 solid] at hr
    rw [firstWord, if_neg ends, remove_ranging solid ends]
    obtain ⟨c, tl, shape⟩ := exists_cons_of_ne_nil nm.1.2.1
    rw [shape] at hr solid ⊢
    exact ⟨c, _, rfl, solid c mem_cons_self, congrArg List.head? hr⟩

theorem bareTargets_name : Go.bareTargets nm = nm := by
  have hmiss : cut? ranging nm = none :=
    cut?_eq_none_of_notMem (show ' ' ∈ ranging by decide) (notMem_name nm rfl (by decide))
  rw [Go.bareTargets, dropKeyword_solid _ (solid_name nm)]
  exact (congrArg _ (remove_of_missing (by decide) hmiss)).trans
    (dropKeyword_solid _ (solid_name nm))

def conditions : List (List Char) :=
  ["if".toList, "for".toList, "switch".toList]

theorem bareTargets_append {w : List Char} (solid : Solid w) (ho : w ∉ conditions)
    (tl : List Char) : Go.bareTargets (w ++ ' ' :: tl) =
      dropKeyword ["var".toList] (remove ranging (w ++ ' ' :: tl)) :=
  congrArg (fun l => dropKeyword _ (remove ranging l))
    (dropKeyword_other solid (show ∀ keyword ∈ conditions, Solid keyword by decide) ho tl)

theorem remove_ranging_plus : remove ranging ['+'] = ['+'] := remove_of_missing (by decide)
    (cut?_eq_none_of_notMem (show ' ' ∈ ranging by decide) (by decide))

theorem bareTargets_increased (nm : Go.Name) :
    Go.bareTargets (nm.1.1 ++ [' ', '+']) = remove ranging (nm.1.1 ++ [' ', '+']) := by
  have solid := solid_name nm.1
  have hn {words : List (List Char)} (hi : words ⊆ Go.keywords) : nm.1.1 ∉ words :=
    fun hm => nm.2 (hi hm)
  rw [bareTargets_append solid (hn (by decide))]
  by_cases ends : range <:+ nm.1.1
  · obtain ⟨stem, _, shape⟩ := exists_stem ends
    rw [shape] at solid ⊢
    have inner : Solid stem := fun c hm => solid c (mem_append_left range hm)
    rw [remove_ranging_of_suffix inner, remove_ranging_plus]
    exact dropKeyword_solid _ (forall_mem_append.mpr ⟨inner, show Solid ['+'] by decide⟩)
  · rw [remove_ranging solid ends]
    exact dropKeyword_other solid (by decide) (hn (by decide)) _

theorem bareTargets_declared (nm : Go.Name) (type : List Char) :
    Go.bareTargets ("var".toList ++ ' ' :: (nm.1.1 ++ ' ' :: type)) =
      remove ranging (nm.1.1 ++ ' ' :: type) := by
  obtain ⟨a, tl, shape, visible, _⟩ := exists_words_ranging nm type
  rw [bareTargets_append (by decide) (by decide), remove_ranging (by decide) (by decide), shape]
  have hb : after? "var".toList ("var".toList ++ ' ' :: a :: tl) =
      some (' ' :: a :: tl) := after?_append _ _
  simp only [dropKeyword, findSome?_cons, hb]
  show (' ' :: a :: tl).dropWhile isBlank = a :: tl
  rw [dropWhile_cons_of_pos rfl, dropWhile_cons_of_neg (by simp [visible])]

end

theorem Line.assignment?_eq (ln : Line) (v : List Char) :
    ln.assignment? (ln.text v) = some ⟨[ln.target].filter (· != placeholder), trim v⟩ := by
  -- the equals sign of the line is the first
  have single {declaring : Bool} {pre : List Char} (free : '=' ∉ pre) :
      cutAssignment? declaring none (pre ++ (" =".toList ++ ' ' :: v)) =
        some (pre ++ [' '], ' ' :: v) :=
    cutAssignment?_equals free rfl (by decide) (by simp) none
  have compound {declaring : Bool} {pre : List Char} (free : '=' ∉ pre) :
      cutAssignment? declaring none (pre ++ (" +=".toList ++ ' ' :: v)) =
        some (pre ++ [' ', '+'], ' ' :: v) := by
    have shape : pre ++ (" +=".toList ++ ' ' :: v) =
        pre ++ [' '] ++ '+' :: '=' :: ' ' :: v := by simp
    rw [shape, cutAssignment?_equals (by simp [free]) rfl (by decide) (by simp), append_assoc]
    rfl
  have free (nm : Name) : '=' ∉ nm.1 ∧ ',' ∉ nm.1 :=
    ⟨notMem_name nm rfl (by decide), notMem_name nm rfl (by decide)⟩
  have alone (nm : Name) : words (nm.1 ++ [' ']) = [nm.1] := by
    rw [words_append_cons rfl, words_solid nm.2.1 (solid_name nm)]
    rfl
  have bare (nm : Name) : Go.bareTargets (trim (nm.1 ++ [' '])) = nm := by
    have solid := solid_name nm
    rw [trim_concat_of_blank rfl, trim_eq_self (fun c h1 => solid c (mem_of_mem_head? h1))
      (fun c last => solid c (mem_of_getLast? last)), bareTargets_name]
  have ranging (nm : Go.Name) {type : List Char} (hp : ',' ∉ type) :
      ',' ∉ remove ranging (nm.1.1 ++ ' ' :: type) ∧
        (words (remove ranging (nm.1.1 ++ ' ' :: type))).head? = some (firstWord nm.1 type) := by
    constructor
    · intro hm
      have hi := (remove_sublist (by decide) _).mem hm
      simp [(free nm.1).2, hp] at hi
    · obtain ⟨h1, tl, shape, _, hr⟩ := exists_words_ranging nm type
      rw [shape, hr]
  cases ln with
  | typed type nm =>
    cases type with
    | none =>
      exact Java.assignment?_eq (single (free nm).1) (by simp [front, (free nm).2])
        (by rw [front, alone]; rfl)
    | some type =>
      refine Java.assignment?_eq (single (by simp [front, type.2.2.1, (free nm).1]))
        (by simp [front, type.2.1, (free nm).2]) ?_
      rw [front, append_assoc, cons_append, words_append_cons rfl, alone, getLast?_concat]
      rfl
  | added nm =>
    refine Java.assignment?_eq (compound (free nm).1) (by simp [front, (free nm).2]) ?_
    rw [front, words_append_cons rfl, words_solid nm.2.1 (solid_name nm)]
    rfl
  | short nm =>
    have shape : (Line.short nm).text v = nm.1.1 ++ [' '] ++ ':' :: '=' :: ' ' :: v := by
      simp [text, front, operator]
    have cut := @cutAssignment?_short (nm.1.1 ++ [' ']) (' ' :: v) ?_ none
    · rw [← shape] at cut
      refine Go.assignment?_eq cut ?_ ?_ <;> rw [bare]
      · exact (free nm.1).2
      · rw [words_solid nm.1.2.1 (solid_name nm.1)]
        rfl
    · intro c hm
      constructor <;> rintro rfl
      · simp [(free nm.1).1] at hm
      · simp [notMem_name nm.1 (show isWord ':' = false from rfl)] at hm
  | declared nm type =>
    obtain ⟨comma, equals, pre, last, shape, solid⟩ := type.2
    have trimmed : trim ((Line.declared nm type).front ++ [' ']) =
        (Line.declared nm type).front := by
      rw [trim_concat_of_blank rfl]
      refine trim_eq_self ?_ ?_ <;> intro c hm
      · obtain rfl : 'v' = c := by simpa [Line.front] using hm
        rfl
      · obtain rfl : last = c := by
          simpa [Line.front, shape, getLast?_cons, List.getLast?_append] using hm
        exact solid
    refine Go.assignment?_eq (single (by simp [Line.front, equals, (free nm.1).1])) ?_ ?_ <;>
      rw [trimmed, Line.front, bareTargets_declared]
    · exact (ranging nm comma).1
    · exact (ranging nm comma).2
  | plain nm =>
    refine Go.assignment?_eq (single (free nm.1).1) ?_ ?_ <;> rw [front, bare]
    · exact (free nm.1).2
    · rw [words_solid nm.1.2.1 (solid_name nm.1)]
      rfl
  | increased nm =>
    have trimmed : trim (nm.1.1 ++ [' ', '+']) = nm.1.1 ++ [' ', '+'] := by
      refine trim_eq_self ?_ ?_ <;> intro c hm
      · rw [head?_append_of_ne_nil _ nm.1.2.1] at hm
        exact solid_name nm.1 c (mem_of_mem_head? hm)
      · obtain rfl : '+' = c := by simpa using hm
        rfl
    refine Go.assignment?_eq (compound (free nm.1).1) ?_ ?_ <;>
      rw [front, trimmed, bareTargets_increased]
    · exact (ranging nm (by decide)).1
    · exact (ranging nm (by decide)).2

theorem Line.target_eq_name (ln : Line) : ln.target = ln.name ↔ ln.Keeps := by
  have kept {nm : Go.Name} (behind : List Char) : firstWord nm.1 behind = nm.1.1 ↔
      (range <:+ nm.1.1 → (remove ranging behind).takeWhile (!isBlank ·) = range) := by
    by_cases ends : range <:+ nm.1.1
    · obtain ⟨stem, _, shape⟩ := exists_stem ends
      rw [firstWord_of_stem shape]
      nth_rewrite 1 [shape]
      rw [append_right_inj]
      simp [ends]
    · simp [firstWord, ends]
  cases ln with
  | added nm =>
    refine iff_of_false (fun hs => ?_) id
    have plus : '+' ∈ nm.1 := by
      rw [← show ['+'] = nm.1 from hs]
      exact mem_cons_self
    exact notMem_name nm rfl (by decide) plus
  | declared nm type => exact kept type
  | increased nm =>
    refine (kept ['+']).trans ?_
    rw [remove_ranging_plus]
    exact imp_congr_right fun _ => iff_false_intro (by decide)
  | _ => simp [target, Keeps, Line.name]

theorem assignment?_text (line : Line) (value : List Char) :
    line.assignment? (line.text value) =
        some ⟨[line.target].filter (· != placeholder), trim value⟩ ∧
      (line.assignment? (line.text value) = some ⟨[line.name], trim value⟩ ↔
        line.Keeps ∧ line.name ≠ placeholder) ∧
      ∀ (rules : TaintRules) (environment : Environment) (number : Nat),
        rules.assignment? = line.assignment? → (rules.hasSource (line.text value) = true ∨
          (environment.origin? (trim value)).isSome = true) →
        ∀ name, (rules.step environment ⟨number, line.text value⟩).Knows name ↔
          (name = line.target ∧ name ≠ placeholder) ∨ environment.Knows name := by
  have read := line.assignment?_eq value
  refine ⟨read, ?_, ?_⟩
  · rw [read, ← line.target_eq_name]
    by_cases hidden : line.target = placeholder
    · refine iff_of_false (by simp [hidden]) fun kept => kept.2 ?_
      rw [← kept.1, hidden]
    · have kept : [line.target].filter (· != placeholder) = [line.target] := by simp [hidden]
      rw [kept, Option.some.injEq, Assignment.mk.injEq, List.singleton_inj]
      exact ⟨fun same => ⟨same.1, same.1 ▸ hidden⟩, fun same => ⟨same.1, rfl⟩⟩
  · intro rules environment number same reaches name
    have grown (origin : Origin) :
        (environment.taintAll ([line.target].filter (· != placeholder)) origin).Knows name ↔
          (name = line.target ∧ name ≠ placeholder) ∨ environment.Knows name := by
      simp [Environment.knows_taintAll, List.mem_filter]
    rw [TaintRules.step, same]
    dsimp only
    rw [read]
    dsimp only
    split_ifs with empty source
    · rw [List.isEmpty_iff] at empty
      simpa [empty, Environment.taintAll] using grown ⟨0, []⟩
    · exact grown _
    · obtain ⟨origin, found⟩ := Option.isSome_iff_exists.mp (reaches.resolve_left source)
      rw [found]
      exact grown origin

def orange : Go.Name :=
  ⟨⟨['o', 'r', 'a', 'n', 'g', 'e'], by decide, by simp [isWord, isAlphanumeric, isAsciiLetter]⟩,
    by decide +kernel⟩

theorem orange_not_tainted :
    let known : Environment := [(['a'], ⟨1, []⟩)]
    let place : Origin := ⟨2, (Line.increased orange).text ['a']⟩
    (TaintRules.step ⟨[], [], Go.assignment?⟩ known place).Knows ['o', '+'] ∧
      ¬ (TaintRules.step ⟨[], [], Go.assignment?⟩ known place).Knows orange.1.1 := by
  have target : (Line.increased orange).target = ['o', '+'] := by decide +kernel
  have tainted := (assignment?_text (.increased orange) ['a']).2.2 ⟨[], [], Go.assignment?⟩
    [(['a'], ⟨1, []⟩)] 2 rfl (Or.inr rfl)
  rw [target] at tainted
  exact ⟨(tainted _).mpr (Or.inl ⟨rfl, by decide⟩), fun known => by
    simpa [orange, range, Environment.Knows] using (tainted _).mp known⟩

end SourceAudit.Source
