import Mathlib
import SourceAudit.Agent.Selection
import SourceAudit.Agent.Threats
import SourceAudit.Proofs.IdleFiles
import SourceAudit.Proofs.ThreatEvidence

/-!
# What the agent can take

The agent reads documents that others have written: the replies of a model, and the sources it shows
to that model.
-/

open List Option

namespace SourceAudit

namespace Outcome

variable {α β : Type}

def Succeeds (out : Outcome α) : Prop :=
  ∃ v, out = .ok v

instance (out : Outcome α) : Decidable (Succeeds out) := decidable_of_iff (out.toBool = true) <| by
    cases out <;> simp [Succeeds, Except.toBool]

@[simp]
theorem succeeds_ok (v : α) : Succeeds (.ok v : Outcome α) := ⟨v, rfl⟩

@[simp]
theorem succeeds_pure (v : α) : Succeeds (pure v : Outcome α) := ⟨v, rfl⟩

@[simp]
theorem not_succeeds_error (err : Fault) : ¬ Succeeds (.error err : Outcome α) := by
  rintro ⟨_, hs⟩
  cases hs

instance (out : Outcome α) : Decidable (Succeeds out) := match out with
  | .ok v => isTrue (succeeds_ok v)
  | .error err => isFalse (not_succeeds_error err)

variable {a : Outcome α} {next : α → Outcome β}

theorem succeeds_bind : Succeeds (a >>= next) ↔ ∃ mid, a = .ok mid ∧ Succeeds (next mid) := by
  constructor
  · rintro ⟨v, hd⟩
    obtain ⟨mid, hb, he⟩ := bind_eq_ok.mp hd
    exact ⟨mid, hb, v, he⟩
  · rintro ⟨mid, hb, v, he⟩
    exact ⟨v, bind_eq_ok.mpr ⟨mid, hb, he⟩⟩

theorem succeeds_bind_of_total (total : ∀ mid, Succeeds (next mid)) :
    Succeeds (a >>= next) ↔ Succeeds a := by
  rw [succeeds_bind]
  constructor
  · rintro ⟨mid, hb, _⟩
    exact ⟨mid, hb⟩
  · rintro ⟨mid, hb⟩
    exact ⟨mid, hb, total mid⟩

theorem succeeds_bind_const {condition : Prop} (hs : ∀ mid, Succeeds (next mid) ↔ condition) :
    Succeeds (a >>= next) ↔ Succeeds a ∧ condition := by
  rw [succeeds_bind]
  constructor
  · rintro ⟨mid, hb, he⟩
    exact ⟨⟨mid, hb⟩, (hs mid).mp he⟩
  · rintro ⟨⟨mid, hb⟩, he⟩
    exact ⟨mid, hb, (hs mid).mpr he⟩

variable {xs : List α}

theorem succeeds_mapM {step : α → Outcome β} :
    Succeeds (xs.mapM step) ↔ ∀ x ∈ xs, Succeeds (step x) := by
  induction xs with
  | nil => simp
  | cons x tl ih =>
    rw [mapM_cons, forall_mem_cons, ← ih]
    refine succeeds_bind_const fun a => succeeds_bind_of_total fun others => ?_
    exact succeeds_pure _

theorem mapM_eq_ok_iff {step : α → Outcome β} {vs : List β} :
    xs.mapM step = .ok vs ↔ Forall₂ (fun x v => step x = .ok v) xs vs := by
  induction xs generalizing vs with
  | nil => cases vs <;> simp [pure, Except.pure]
  | cons x tl ih =>
    rw [mapM_cons, bind_eq_ok]
    constructor
    · rintro ⟨v, made, hd⟩
      obtain ⟨others, all, hs⟩ := bind_eq_ok.mp hd
      cases hs
      exact .cons made (ih.mp all)
    · rintro ⟨⟩
      next v others made all => exact ⟨v, made, bind_ok (ih.mpr all)⟩

theorem mapM_eq_ok_map {step : α → Outcome β} {image : α → β}
    (each : ∀ x ∈ xs, step x = .ok (image x)) : xs.mapM step = .ok (xs.map image) :=
  mapM_eq_ok_iff.mpr (forall₂_map_right_iff.mpr (forall₂_same.mpr each))

theorem mem_found_iff {step : α → Outcome (Option β)} {f : List (Option β)}
    (hd : xs.mapM step = .ok f) {v : β} : v ∈ f.filterMap id ↔ ∃ x ∈ xs, step x = .ok (some v) := by
  have hl : v ∈ f.filterMap id ↔ some v ∈ f := by simp
  rw [hl]
  rw [mapM_eq_ok_iff] at hd
  clear hl
  induction hd with
  | nil => simp
  | cons made _ ih =>
    simp only [mem_cons, exists_eq_or_imp, made, Except.ok.injEq, ih]
    rw [eq_comm]

end Outcome

namespace Agent

open Outcome

/-! ## Findings -/

def isIterable : Value → Bool
  | .list _ => true
  | .tuple _ => true
  | .text _ => true
  | .bytes _ => true
  | .record _ => true
  | .table _ => true
  | _ => false

theorem succeeds_items_iff (v : Value) : Succeeds v.items ↔ isIterable v = true := by
  cases v <;> simp [Value.items, isIterable]

def Hashable (v : Value) : Prop :=
  v.unhashable? = none

theorem succeeds_asKey_iff (v : Value) : Succeeds v.asKey ↔ Hashable v := by
  rw [Value.asKey, Hashable]
  cases v.unhashable? <;> simp

def TextOrAbsent (v : Value) : Prop :=
  v.truthy = true → v.isText = true

def IterableOrAbsent (v : Value) : Prop :=
  v.truthy = true → isIterable v = true

theorem succeeds_asText_iff (member : String) (v : Value) :
    Succeeds (v.asText member) ↔ v.isText = true := by
  cases v <;> simp [Value.asText, Value.isText]

theorem succeeds_map {α β : Type} {out : Outcome α} (change : α → β) :
    Succeeds (out.map change) ↔ Succeeds out := by
  cases out <;> simp [Except.map]

theorem succeeds_strip_iff (v : Value) (standard : String) :
    Succeeds (v.orElse (.text standard)).strip ↔ TextOrAbsent v := by
  rw [Value.strip, succeeds_map, succeeds_asText_iff, Value.orElse, TextOrAbsent]
  by_cases hpres : v.truthy = true
  · simp [hpres]
  · simp [hpres, Value.isText]

theorem succeeds_lower_iff (v : Value) (standard : String) :
    Succeeds (v.orElse (.text standard)).lower ↔ TextOrAbsent v := by
  rw [Value.lower, succeeds_map, succeeds_asText_iff, Value.orElse, TextOrAbsent]
  by_cases hpres : v.truthy = true
  · simp [hpres]
  · simp [hpres, Value.isText]

def listed (fnd : Value) (k : String) : List Value :=
  (listedItems fnd k).toOption.getD []

theorem succeeds_listedItems_iff (fnd : Value) (k : String) :
    Succeeds (listedItems fnd k) ↔ IterableOrAbsent (fnd.lookup k) := by
  rw [listedItems, succeeds_items_iff, Value.orElse, IterableOrAbsent, Value.lookup]
  cases fnd.lookup? k with
  | none => simp [Value.truthy, isIterable]
  | some v =>
    by_cases hpres : v.truthy = true
    · simp [hpres]
    · simp [hpres, isIterable]

def AcceptableEvidence (x : Value) : Prop :=
  x.isRecord = true → Hashable (x.lookup "file")

theorem succeeds_evidenceOf?_iff (files : FileLines) (x : Value) :
    Succeeds (evidenceOf? files x) ↔ AcceptableEvidence x := by
  rw [evidenceOf?, AcceptableEvidence]
  by_cases recorded : x.isRecord = true
  · have hn : Succeeds (linesOf? files (x.lookup "file")) ↔ Hashable (x.lookup "file") := by
      rw [linesOf?, ← succeeds_asKey_iff]
      refine succeeds_bind_of_total fun k => ?_
      split <;> exact succeeds_pure _
    simp only [recorded, Bool.not_true, Bool.false_eq_true, if_false, forall_const]
    rw [← hn]
    refine succeeds_bind_of_total fun f => ?_
    split
    · exact succeeds_pure _
    · split
      · exact succeeds_pure _
      · split <;> exact succeeds_pure _
  · simp [recorded]

structure AcceptableFinding (finding : Value) : Prop where
  kind : TextOrAbsent (finding.lookup "threat_type")
  severity : TextOrAbsent (finding.lookup "severity")
  description : TextOrAbsent (finding.lookup "description")
  lines : IterableOrAbsent (finding.lookup "line_numbers")
  evidence : IterableOrAbsent (finding.lookup "evidence")
  files : ∀ item ∈ listed finding "evidence", AcceptableEvidence item

theorem listed_eq {fnd : Value} {k : String} {xs : List Value}
    (hr : listedItems fnd k = .ok xs) : listed fnd k = xs := by
  rw [listed, hr]
  rfl

theorem succeeds_threatOf?_iff (files : FileLines) (required : Bool) (fnd : Value) :
    Succeeds (threatOf? files required fnd) ↔ (fnd.isRecord = true → AcceptableFinding fnd) := by
  rw [threatOf?]
  by_cases recorded : fnd.isRecord = true
  · simp only [recorded, Bool.not_true, Bool.false_eq_true, if_false, forall_const]
    constructor
    · rintro ⟨th, hd⟩
      obtain ⟨k, kindRead, hd⟩ := bind_eq_ok.mp hd
      obtain ⟨w, wordRead, hd⟩ := bind_eq_ok.mp hd
      obtain ⟨desc, descriptionRead, hd⟩ := bind_eq_ok.mp hd
      obtain ⟨ls, linesRead, hd⟩ := bind_eq_ok.mp hd
      obtain ⟨xs, itemsRead, hd⟩ := bind_eq_ok.mp hd
      obtain ⟨ev, evidenceRead, _⟩ := bind_eq_ok.mp hd
      have each := succeeds_mapM.mp ⟨ev, evidenceRead⟩
      exact
        { kind := (succeeds_strip_iff _ _).mp ⟨k, kindRead⟩
          severity := (succeeds_lower_iff _ _).mp ⟨w, wordRead⟩
          description := (succeeds_strip_iff _ _).mp ⟨desc, descriptionRead⟩
          lines := (succeeds_listedItems_iff _ _).mp ⟨ls, linesRead⟩
          evidence := (succeeds_listedItems_iff _ _).mp ⟨xs, itemsRead⟩
          files := fun x hm =>
            (succeeds_evidenceOf?_iff files x).mp (each x (listed_eq itemsRead ▸ hm)) }
    · intro acceptable
      obtain ⟨k, kindRead⟩ := (succeeds_strip_iff _ "Unknown").mpr acceptable.kind
      obtain ⟨w, wordRead⟩ := (succeeds_lower_iff _ "medium").mpr acceptable.severity
      obtain ⟨desc, descriptionRead⟩ := (succeeds_strip_iff _ "").mpr acceptable.description
      obtain ⟨ls, linesRead⟩ := (succeeds_listedItems_iff _ _).mpr acceptable.lines
      obtain ⟨xs, itemsRead⟩ := (succeeds_listedItems_iff _ _).mpr acceptable.evidence
      have each : ∀ x ∈ xs, Succeeds (evidenceOf? files x) := by
        intro x hm
        rw [← listed_eq itemsRead] at hm
        exact (succeeds_evidenceOf?_iff files x).mpr (acceptable.files x hm)
      obtain ⟨ev, evidenceRead⟩ := succeeds_mapM.mpr each
      rw [bind_ok kindRead, bind_ok wordRead, bind_ok descriptionRead, bind_ok linesRead,
        bind_ok itemsRead, bind_ok evidenceRead]
      split
      · exact succeeds_pure _
      · split <;> exact succeeds_pure _
  · simp [recorded]

def AcceptableFindings (fnds : Value) : Prop :=
  isIterable fnds = true ∧
    ∀ fnd ∈ fnds.items.toOption.getD [], fnd.isRecord = true → AcceptableFinding fnd

theorem succeeds_threatsOf_iff (fnds : Value) (files : FileLines) (required : Bool) :
    Succeeds (threatsOf fnds files required) ↔ AcceptableFindings fnds := by
  rw [threatsOf, AcceptableFindings, ← succeeds_items_iff, succeeds_bind]
  constructor
  · rintro ⟨xs, hr, he⟩
    rw [succeeds_bind_of_total fun _ => succeeds_pure _, succeeds_mapM] at he
    refine ⟨⟨xs, hr⟩, fun fnd hm => ?_⟩
    rw [hr] at hm
    exact (succeeds_threatOf?_iff files required fnd).mp (he fnd hm)
  · rintro ⟨⟨xs, hr⟩, each⟩
    refine ⟨xs, hr, ?_⟩
    rw [succeeds_bind_of_total fun _ => succeeds_pure _, succeeds_mapM]
    rw [hr] at each
    exact fun fnd hm => (succeeds_threatOf?_iff files required fnd).mpr (each fnd hm)

/-! ## Targets -/

theorem succeeds_targets_iff (reply : Value) :
    Succeeds ((namedTargets reply).mapM Value.asKey) ↔
      ∀ tgt ∈ namedTargets reply, Hashable tgt := by
  rw [succeeds_mapM]
  exact forall₂_congr fun tgt _ => succeeds_asKey_iff tgt

theorem asKey_eq_ok {v k : Value} (hd : v.asKey = .ok k) : k = v := by
  rw [Value.asKey] at hd
  split at hd
  · cases hd
  · cases hd
    rfl

theorem mapM_asKey_eq {tgts keys : List Value} (hd : tgts.mapM Value.asKey = .ok keys) :
    keys = tgts := by
  have hs := (mapM_eq_ok_iff.mp hd).imp fun _ _ hr => (asKey_eq_ok hr).symm
  rw [forall₂_eq_eq_eq] at hs
  exact hs.symm

end Agent

/-! ## Words as patterns -/

namespace Pattern

def Node.spelling (a : Char) : List Char → Node
  | [] => .char a .exact
  | b :: tl => .seq (.char a .exact) (Node.spelling b tl)

theorem isSome_stepWhere_exact (c : Char) (next : Continuation) (pl : Place) :
    stepWhere (fun d => Folding.exact.same c d) next pl =
      match pl.rest with
      | [] => none
      | d :: rest =>
        if c = d then
          next { pl with before := d :: pl.before, rest, position := pl.position + 1 }
        else none := by
  rw [stepWhere, Place.advance]
  cases pl.rest with
  | nil => rfl
  | cons d rest => simp [Folding.same, Folding.small]

theorem isSome_run_spelling {next : Continuation} (accepts : ∀ pl, (next pl).isSome = true)
    (a : Char) (tl : List Char) (pl : Place) :
    ((Node.spelling a tl).run next pl).isSome = Text.startsWith (a :: tl) pl.rest := by
  induction tl generalizing a pl with
  | nil =>
    rw [Node.spelling, Node.run, isSome_stepWhere_exact, Text.startsWith]
    cases pl.rest with
    | nil => rfl
    | cons d others =>
      by_cases hs : a = d
      · simp [Text.after?, hs, accepts]
      · simp [Text.after?, hs]
  | cons b tl ih =>
    rw [Node.spelling, Node.run, Node.run, isSome_stepWhere_exact, Text.startsWith]
    cases pl.rest with
    | nil => rfl
    | cons d others =>
      by_cases hs : a = d
      · simp only [hs, Text.after?, if_true]
        exact ih b _
      · simp [Text.after?, hs]

variable {pat : Pattern} {a : Char} {w : List Char}

theorem isSome_matchAt_spelling (spelled : pat.node = Node.spelling a w)
    (whole : List Char) (pl : Place) :
    (pat.matchAt whole false pl).isSome = Text.startsWith (a :: w) pl.rest := by
  rw [Pattern.matchAt, isSome_map, spelled]
  exact isSome_run_spelling (fun _ => rfl) a w _

theorem isSome_searchFrom_spelling (spelled : pat.node = Node.spelling a w)
    (whole : List Char) {t : List Char} {pl : Place} (rest : pl.rest = t) :
    (pat.searchFrom whole t false pl).isSome = Text.occurs (a :: w) t := by
  have hh := isSome_matchAt_spelling spelled whole pl
  rw [rest, Text.startsWith] at hh
  induction t generalizing pl with
  | nil =>
    rw [Pattern.searchFrom, isSome_map, hh]
    rfl
  | cons c t ih =>
    rw [Pattern.searchFrom, Text.occurs, Text.cut?]
    cases hb : Text.after? (a :: w) (c :: t) with
    | some rem =>
      rw [hb, isSome_some, isSome_iff_exists] at hh
      obtain ⟨f, matched⟩ := hh
      rw [matched]
      rfl
    | none =>
      rw [hb, isSome_none, isSome_eq_false_iff, isNone_iff_eq_none] at hh
      rw [hh, Place.advance, rest, isSome_map]
      exact ih rfl (isSome_matchAt_spelling spelled whole _)

theorem occursIn_spelling (spelled : pat.node = Node.spelling a w) (t : String) :
    pat.occursIn t = Text.occurs (a :: w) t.toList := by
  rw [Pattern.occursIn, Pattern.search, Pattern.search?, isSome_map]
  exact isSome_searchFrom_spelling spelled t.toList rfl

end Pattern

namespace Agent

open Outcome
open SourceAudit.Pattern (Pattern Node.spelling occursIn_spelling)

/-! ## Previews -/

def MentionsMain (ln : String) : Prop :=
  Str.occurs "package main" ln = true ∨ Str.occurs "func main" ln = true

theorem exists_spelled (w : String) (a : Char) (tl : List Char)
    (compiled : ∃ groups names, SourceAudit.Pattern.compile w =
      .ok { node := Node.spelling a tl, groups, names })
    (letters : w.toList = a :: tl) :
    ∃ pat, SourceAudit.Pattern.compile w = .ok pat ∧ ∀ ln, pat.occursIn ln = Str.occurs w ln := by
  obtain ⟨groups, names, hd⟩ := compiled
  refine ⟨_, hd, fun ln => ?_⟩
  rw [occursIn_spelling rfl, Str.occurs, letters]

theorem exists_mainPackage : ∃ pat, SourceAudit.Pattern.compile "package main" = .ok pat ∧
    ∀ ln, pat.occursIn ln = Str.occurs "package main" ln :=
  exists_spelled _ 'p' "ackage main".toList ⟨1, [], by cbv⟩ rfl

theorem exists_mainFunction : ∃ pat, SourceAudit.Pattern.compile "func main" = .ok pat ∧
    ∀ ln, pat.occursIn ln = Str.occurs "func main" ln :=
  exists_spelled _ 'f' "unc main".toList ⟨1, [], by cbv⟩ rfl

theorem not_succeeds_importPattern :
    ¬ Succeeds (SourceAudit.Pattern.compile "import\\\\s*\\\\(") := by
  decide +kernel

theorem anyOccurs_go (ln : String) :
    MentionsMain ln ∧ anyOccurs ln (keyPatterns "go") = .ok true ∨
      ¬ MentionsMain ln ∧ ¬ Succeeds (anyOccurs ln (keyPatterns "go")) := by
  obtain ⟨package, packageRead, packageOccurs⟩ := exists_mainPackage
  obtain ⟨function, functionRead, functionOccurs⟩ := exists_mainFunction
  rw [keyPatterns, anyOccurs, bind_ok packageRead, packageOccurs]
  by_cases h1 : Str.occurs "package main" ln = true
  · exact Or.inl ⟨Or.inl h1, if_pos h1⟩
  rw [if_neg h1, anyOccurs, bind_ok functionRead, functionOccurs]
  by_cases h2 : Str.occurs "func main" ln = true
  · exact Or.inl ⟨Or.inr h2, if_pos h2⟩
  refine Or.inr ⟨?_, ?_⟩
  · rintro (mentioned | mentioned)
    · exact h1 mentioned
    · exact h2 mentioned
  · rw [if_neg h2, anyOccurs, succeeds_bind]
    rintro ⟨pat, hr, _⟩
    exact not_succeeds_importPattern ⟨pat, hr⟩

theorem trim_ne_empty {ln : String} (mentions : MentionsMain ln) :
    (Str.trim ln).isEmpty = false := by
  have letter : 'm' ∈ ln.toList := by
    rcases mentions with package | function
    · obtain ⟨⟨before, tl⟩, hf⟩ := isSome_iff_exists.mp package
      rw [Text.cut?_eq_some hf]
      simp
    · obtain ⟨⟨before, tl⟩, hf⟩ := isSome_iff_exists.mp function
      rw [Text.cut?_eq_some hf]
      simp
  rw [Str.trim, Bool.eq_false_iff, ne_eq, String.isEmpty_iff, String.ofList_eq_empty_iff]
  intro empty
  have blank := Source.blank_of_trim empty 'm' letter
  exact absurd blank (by decide)

theorem succeeds_keyLinesFrom_go_iff (lim : Nat) (f ls : List String) :
    Succeeds (keyLinesFrom (keyPatterns "go") (Int.ofNat lim) f ls) ↔
      ∀ ln ∈ ls.take (lim - f.length), MentionsMain ln := by
  induction ls generalizing f with
  | nil => simp [keyLinesFrom]
  | cons ln tl ih =>
    rw [keyLinesFrom]
    by_cases full : lim ≤ f.length
    · simp [full]
    · obtain ⟨room, left⟩ : ∃ room, lim - f.length = room + 1 := ⟨lim - f.length - 1, by omega⟩
      rw [if_neg (by simpa using full), left, take_succ_cons, forall_mem_cons]
      rcases anyOccurs_go ln with ⟨mentions, decided⟩ | ⟨silent, undecided⟩
      · rw [bind_ok decided]
        simp only [trim_ne_empty mentions, Bool.not_false, Bool.and_self, if_true, mentions,
          true_and]
        rw [ih, length_append, length_singleton]
        have less : lim - (f.length + 1) = room := by omega
        rw [less]
      · rw [succeeds_bind]
        constructor
        · rintro ⟨telling, decided, _⟩
          exact absurd ⟨telling, decided⟩ undecided
        · rintro ⟨mentions, _⟩
          exact absurd mentions silent

theorem succeeds_anyOccurs {pats : List String}
    (formed : ∀ written ∈ pats, Succeeds (SourceAudit.Pattern.compile written)) (ln : String) :
    Succeeds (anyOccurs ln pats) := by
  induction pats with
  | nil => exact succeeds_ok false
  | cons written tl ih =>
    obtain ⟨⟨pat, hr⟩, others⟩ := forall_mem_cons.mp formed
    rw [anyOccurs, bind_ok hr]
    split
    · exact succeeds_pure true
    · exact ih others

theorem succeeds_keyLinesFrom {pats : List String}
    (formed : ∀ written ∈ pats, Succeeds (SourceAudit.Pattern.compile written)) (lim : Int)
    (f ls : List String) : Succeeds (keyLinesFrom pats lim f ls) := by
  induction ls generalizing f with
  | nil => exact succeeds_ok f
  | cons ln tl ih =>
    obtain ⟨telling, decided⟩ := succeeds_anyOccurs formed ln
    rw [keyLinesFrom]
    split
    · exact succeeds_pure f
    · rw [bind_ok decided]
      dsimp only
      split <;> exact ih _

theorem formed_keyPatterns {lang : String} (ho : lang ≠ "go") :
    ∀ written ∈ keyPatterns lang, Succeeds (SourceAudit.Pattern.compile written) := by
  unfold keyPatterns
  split
  · decide +kernel
  · exact absurd rfl ho
  · decide +kernel
  · exact forall_mem_nil _

def Previewable (lang : String) (e : SourceEntry) : Prop :=
  lang = "go" → ∀ ln ∈ e.lines.take keyLineLimit.toNat, MentionsMain ln

theorem succeeds_preview_iff (lang : String) (lineCount : Int) (e : SourceEntry) :
    Succeeds (preview lang lineCount e) ↔ Previewable lang e := by
  rw [preview, succeeds_bind_of_total fun _ => succeeds_pure _, keyLines, Previewable]
  by_cases go : lang = "go"
  · subst go
    exact (succeeds_keyLinesFrom_go_iff 8 [] e.lines).trans (by simp [keyLineLimit])
  · simp only [go, false_implies, iff_true]
    split
    · exact succeeds_ok []
    · exact succeeds_keyLinesFrom (formed_keyPatterns go) _ _ _

theorem succeeds_previews_iff (lang : String) (lineCount : Int) (es : List SourceEntry) :
    Succeeds (es.mapM (preview lang lineCount)) ↔ ∀ e ∈ es, Previewable lang e := by
  rw [succeeds_mapM]
  exact forall₂_congr fun e _ => succeeds_preview_iff lang lineCount e

end Agent

end SourceAudit
