import SourceAudit.Dependencies.Manifest
import SourceAudit.Proofs.PatternContent
import SourceAudit.Proofs.PatternRuns
import Mathlib

/-!
# Versions in a build file

The dependencies of a Maven build file are found by one pattern, a chain of tags with anything between
them. Each tag is looked for behind the one before, so a dependency without a version is given the
version of a later one, and the later one is not reported.
-/

open List Option

namespace SourceAudit.Text

/-- The word does not begin in the text, whatever follows. -/
def Over (w : List Char) : List Char → Prop
  | [] => True
  | c :: t => (∀ tl, after? w (c :: (t ++ tl)) = none) ∧ Over w t

namespace Over

variable {w a b t pre tl : List Char} {c d e : Char}

theorem append (hb : Over w a) (he : Over w b) : Over w (a ++ b) := by
  induction a with
  | nil => exact he
  | cons c a ih =>
    refine ⟨fun tl => ?_, ih hb.2⟩
    rw [← hb.1 (b ++ tl), ← append_assoc]
    rfl

theorem of_notMem (absent : c ∉ t) : Over (c :: w) t := by
  induction t with
  | nil => trivial
  | cons d t ih =>
    rw [mem_cons, not_or] at absent
    exact ⟨fun _ => if_neg absent.1, ih absent.2⟩

theorem of_second (absent : c ∉ e :: t) (differs : d ≠ e) : Over (c :: d :: w) (c :: e :: t) :=
  ⟨fun _ => (if_pos rfl).trans (if_neg differs), of_notMem absent⟩

theorem ne (ov : Over (c :: w) t) : t ≠ pre ++ (c :: w ++ tl) := by
  induction pre generalizing t with
  | nil =>
    rintro rfl
    have begins := ov.1 []
    rw [append_nil] at begins
    exact absurd ((after?_append (c :: w) tl).symm.trans begins) (some_ne_none _)
  | cons d pre ih =>
    rintro rfl
    exact ih ov.2 rfl

end Over

end SourceAudit.Text

namespace SourceAudit.Pattern

/-! ## Chains of words -/

/-- Anything, as little as possible. -/
def Node.anything : Node :=
  .repetition (.any true) 0 none .lazy

variable {w t tl whole : List Char} {next : Continuation} {pl after r : Place}
  {nd : Node} {i : Option Nat}

theorem rounds_lazy {fuel n : Nat} {last : Option Nat} (ov : Text.Over w t)
    (needs : ∀ after : Place, Text.after? w after.rest = none → next after = none)
    (ahead : pl.rest = t ++ tl) (fueled : t.length ≤ fuel)
    (earlier : ∀ pos ∈ last, pos < pl.position) (hd : next (pl.behind t tl) = some r) :
    rounds (stepWhere fun _ => true) 0 none .lazy next (fuel + 1) n last pl = some r := by
  induction t generalizing pl fuel n last with
  | nil =>
    rw [← Place.behind_nil ahead, rounds, if_neg (Nat.not_lt_zero _), nil_append, hd]
    rfl
  | cons c t ih =>
    rw [length_cons] at fueled
    obtain ⟨fuel, rfl⟩ : ∃ more, fuel = more + 1 := ⟨fuel - 1, by omega⟩
    have moved : (last != some pl.position) = true := by
      rw [bne_iff_ne]
      rintro rfl
      exact absurd (earlier _ rfl) (Nat.lt_irrefl _)
    rw [rounds, if_neg (Nat.not_lt_zero _), needs pl (by rw [ahead]; exact ov.1 tl)]
    dsimp only
    rw [moved, all_none, Bool.true_and, if_pos rfl, stepWhere_cons ahead rfl]
    refine ih ov.2 rfl (by omega) ?_ ?_
    · rintro pos ⟨⟩
      exact Nat.lt_succ_self _
    · rw [Place.behind_behind]
      exact hd

theorem run_anything (ov : Text.Over w t)
    (needs : ∀ after : Place, Text.after? w after.rest = none → next after = none)
    (ahead : pl.rest = t ++ tl) (hd : next (pl.behind t tl) = some r) :
    Node.anything.run next pl = some r := by
  have body : (fun next pl => (Node.any true).run next pl) = stepWhere fun _ => true := by
    funext next pl
    rw [Node.run]
    rfl
  rw [Node.anything, Node.run, body]
  · exact rounds_lazy ov needs ahead (by simp [ahead]; omega) (by rintro pos ⟨⟩) hd
  · intro hs
    cases hs

def Node.gap : Option Nat → Node
  | some i => .group i .anything
  | none => .anything

/-- Anything up to a word, read into the group if there is one. -/
def Node.upTo (i : Option Nat) (w : List Char) (nd : Node) : Node :=
  .seq (.gap i) (.word w nd)

theorem leads_upTo (ov : Text.Over w t) (ahead : pl.rest = t ++ (w ++ tl))
    (leads : nd.Leads ((pl.past i t (w ++ tl)).behind w tl) after) :
    (Node.upTo i w nd).Leads pl after := by
  intro next r hd
  have needs (after : Place) (hmiss : Text.after? w after.rest = none) :
      (Node.word w nd).run next after = none := by
    rw [Node.run_word, hmiss]
  rw [Node.upTo, Node.run]
  cases i with
  | none =>
    refine run_anything ov needs ahead ?_
    exact Node.leads_word rfl leads next r hd
  | some i =>
    rw [Node.gap, Node.run]
    refine run_anything ov (fun after => needs (after.record _ _ _)) ahead ?_
    exact Node.leads_word rfl leads next r hd

def Node.chain (last : Node) : List (Option Nat × List Char) → Node
  | [] => last
  | (i, w) :: steps => .upTo i w (.chain last steps)

/-- A word that a text has to hold for the node to match it. -/
def Node.Spells (w : List Char) (nd : Node) : Prop :=
  ∀ next pl r, nd.run next pl = some r →
    ∃ pre tl, pl.rest = pre ++ (w ++ tl)

theorem Node.spells_word (w : List Char) (nd : Node) : (Node.word w nd).Spells w := by
  intro next pl r hd
  rw [Node.run_word] at hd
  split at hd
  · next tl hb => exact ⟨[], tl, (Text.after?_eq_some hb :)⟩
  · cases hd

theorem Node.Spells.seq {a b : Node} (spells : b.Spells w)
    (avoids : a.avoids [] = true) : (Node.seq a b).Spells w := by
  intro next pl r hd
  rw [Node.run] at hd
  obtain ⟨mid, ⟨t, shape, _⟩, later⟩ := Node.safe_run avoids _ _ _ hd
  obtain ⟨pre, tl, ahead⟩ := spells next mid r later
  exact ⟨t ++ pre, tl, by rw [shape, ahead, append_assoc]⟩

theorem Node.Spells.behind (spells : nd.Spells w) (pre : List Char) :
    (Node.word pre nd).Spells w := by
  induction pre with
  | nil => exact spells
  | cons c pre ih => exact ih.seq rfl

theorem Node.spells_chain (last : Node) {steps : List (Option Nat × List Char)}
    {step : Option Nat × List Char} (hm : step ∈ steps) : (last.chain steps).Spells step.2 := by
  have hp (i : Option Nat) : (Node.gap i).avoids [] = true := by
    cases i <;> rfl
  induction steps with
  | nil => cases hm
  | cons a steps ih =>
    rcases mem_cons.mp hm with rfl | later
    · exact (Node.spells_word _ _).seq (hp _)
    · exact ((ih later).behind _).seq (hp _)

/-! ## What a chain finds -/

variable {steps : List (Option Nat × List Char)} {pieces : List (List Char)} {c : Char}

def between (steps : List (Option Nat × List Char)) (pieces : List (List Char)) : List Char :=
  (steps.zip pieces).flatMap fun part => part.2 ++ part.1.2

theorem exists_leads_chain (ov : Forall₂ (fun step piece => Text.Over step.2 piece) steps pieces)
    (indexed : (steps.filterMap Prod.fst).Nodup) (within : pl.Within whole)
    (ahead : pl.rest = between steps pieces ++ c :: tl) :
    ∃ after, ((Node.char c .exact).chain steps).Leads pl after ∧ after.Within whole ∧
      after.rest = tl ∧ (∀ i t, i ∉ steps.filterMap Prod.fst → pl.Holds whole i t →
        after.Holds whole i t) ∧
      ∀ part ∈ steps.zip pieces, ∀ i ∈ part.1.1, after.Holds whole i part.2 := by
  induction ov generalizing pl with
  | nil =>
    refine ⟨pl.behind [c] tl, fun next r hd => ?_, within.behind ahead, rfl,
      fun _ _ _ holds => holds, forall_mem_nil _⟩
    rw [Node.chain, Node.run_char, ahead]
    simpa [between, Text.after?] using hd
  | @cons step piece steps pieces hh later ih =>
    obtain ⟨i, w⟩ := step
    have shape : pl.rest = piece ++ (w ++ (between steps pieces ++ c :: tl)) := by
      simpa [between] using ahead
    generalize remaining : between steps pieces ++ c :: tl = behind at shape
    obtain ⟨after, leads, afterWithin, he, kept, hfl⟩ :=
      ih (indexed.sublist ((sublist_cons_self _ _).filterMap _))
        ((within.past shape).behind Place.past_rest) remaining.symm
    refine ⟨after, leads_upTo hh shape leads, afterWithin, he,
      fun other t absent holds => ?_, forall_mem_cons.mpr ⟨?_, hfl⟩⟩
    · cases i with
      | none => exact kept other t absent (holds.past (by simp) _ _)
      | some i =>
        obtain ⟨differs, absent⟩ := ne_and_not_mem_of_not_mem_cons absent
        exact kept other t absent (holds.past (by simpa using differs.symm) _ _)
    · rintro i rfl
      exact kept i piece (nodup_cons.mp indexed).1 (within.holds_past shape)

variable {pat : Pattern} {gap : List Char}

theorem searchFrom_of_leads (whole : List Char) (node : pat.node = .word w nd)
    (ov : Text.Over w gap) (ahead : pl.rest = gap ++ (w ++ tl))
    (leads : pat.node.Leads { pl.behind gap (w ++ tl) with groups := [] } after) :
    pat.searchFrom whole pl.rest false pl =
      some (.of whole (pl.behind gap (w ++ tl)) after, pl.behind gap (w ++ tl)) := by
  induction gap generalizing pl with
  | nil =>
    rw [nil_append] at ahead
    rw [Place.behind_nil ahead] at leads ⊢
    cases pl.rest with
    | nil =>
      rw [Pattern.searchFrom, matchAt_of_leads leads]
      rfl
    | cons c tl => rw [Pattern.searchFrom, matchAt_of_leads leads]
  | cons c gap ih =>
    have refused : pat.matchAt whole false pl = none := by
      rw [Pattern.matchAt, node, Node.run_word, ahead, cons_append, ov.1]
      rfl
    rw [ahead, cons_append, Pattern.searchFrom, refused, Place.advance_cons ahead]
    have later := @ih (pl.behind [c] (gap ++ (w ++ tl))) ov.2 rfl
    rw [Place.behind_behind] at later
    exact later leads

theorem searchFrom_eq_none (spells : pat.node.Spells (c :: w))
    (ov : Text.Over (c :: w) t) (ahead : pl.rest = t) :
    pat.searchFrom whole t false pl = none := by
  have refused {t : List Char} {pl : Place} (ov : Text.Over (c :: w) t)
      (ahead : pl.rest = t) : pat.matchAt whole false pl = none := by
    rw [Pattern.matchAt, map_eq_none_iff, eq_none_iff_forall_ne_some]
    intro r hd
    obtain ⟨pre, tl, shape⟩ := spells _ _ _ hd
    exact ov.ne (ahead.symm.trans shape)
  induction t generalizing pl with
  | nil =>
    rw [Pattern.searchFrom, refused ov ahead]
    rfl
  | cons d t ih =>
    rw [Pattern.searchFrom, refused ov ahead, Place.advance_cons ahead]
    exact ih ov.2 rfl

theorem Place.Within.position_add (within : pl.Within whole) :
    pl.position + pl.rest.length = whole.length := by
  rw [within.counted, within.shape, length_append, length_reverse]

theorem Place.Within.forward (within : pl.Within whole) (n : Nat) :
    (Pattern.forward n pl).Within whole ∧ (Pattern.forward n pl).rest = pl.rest.drop n := by
  induction n generalizing pl with
  | zero => exact ⟨within, rfl⟩
  | succ n ih =>
    rw [Pattern.forward]
    cases ahead : pl.rest with
    | nil =>
      rw [Place.advance, ahead]
      exact ⟨within, ahead⟩
    | cons c tl =>
      rw [Place.advance_cons ahead]
      exact ih (within.behind (show pl.rest = [c] ++ tl from ahead))

theorem exists_findFrom (node : pat.node = .word w ((Node.char c .exact).chain steps))
    (ov : Forall₂ (fun step piece => Text.Over step.2 piece) ((none, w) :: steps) (gap :: pieces))
    (indexed : (steps.filterMap Prod.fst).Nodup) (within : pl.Within whole)
    (ahead : pl.rest = between ((none, w) :: steps) (gap :: pieces) ++ c :: tl) (fuel : Nat) :
    ∃ f next, pat.findFrom whole (fuel + 1) false pl =
        f :: pat.findFrom whole fuel false next ∧
      next.Within whole ∧ next.rest = tl ∧
      ∀ part ∈ steps.zip pieces, ∀ i ∈ part.1.1, i ≠ 0 → f.group i = .ofList part.2 := by
  obtain ⟨hh, later⟩ := forall₂_cons.mp ov
  have shape : pl.rest = gap ++ (w ++ (between steps pieces ++ c :: tl)) := by
    simpa [between] using ahead
  let opened := pl.behind gap (w ++ (between steps pieces ++ c :: tl))
  have hi : opened.Within whole := within.behind shape
  have cleared : ({ opened with groups := [] } : Place).Within whole := ⟨hi.shape, hi.counted⟩
  obtain ⟨after, leads, afterWithin, he, _, hfl⟩ :=
    exists_leads_chain later indexed (cleared.behind rfl) rfl
  have f := searchFrom_of_leads whole node hh shape (node ▸ Node.leads_word rfl leads)
  let consumed := w ++ between steps pieces ++ [c]
  have openedRest : opened.rest = consumed ++ tl := by simp [opened, consumed]
  have size := afterWithin.position_add.trans hi.position_add.symm
  rw [he, openedRest, length_append] at size
  have hpos : 0 < consumed.length := length_pos_of_mem (show c ∈ consumed by simp [consumed])
  obtain ⟨nextWithin, nextRest⟩ := hi.forward consumed.length
  rw [openedRest, drop_left] at nextRest
  refine ⟨.of whole opened after, _, ?_, nextWithin, nextRest, fun part hm i marked numbered => ?_⟩
  · rw [Pattern.findFrom, f]
    dsimp only [Match.of]
    rw [show after.position - opened.position = consumed.length by omega,
      beq_eq_false_iff_ne.mpr (show opened.position ≠ after.position by omega)]
  · exact (hfl part hm i marked).group numbered opened

end SourceAudit.Pattern

namespace SourceAudit.Dependencies

open SourceAudit.Text (Over)
open SourceAudit.Pattern

/-! ## Build files -/

/-- Text without tags. -/
abbrev Plain := { t : List Char // '<' ∉ t }

/-- A value in a tag of its own, and what stands before the tag. -/
structure Field where
  gap : Plain
  value : Plain

def opening (nm : String) : List Char :=
  '<' :: (nm.toList ++ ['>'])

def closing (nm : String) : List Char :=
  '<' :: '/' :: (nm.toList ++ ['>'])

def Field.text (nm : String) (fld : Field) : List Char :=
  fld.gap ++ (opening nm ++ (fld.value ++ closing nm))

/-- A dependency of a build file. -/
structure Element where
  gap : Plain
  group : Field
  artifact : Field
  version : Option Field
  ending : Plain

namespace Element

def front (el : Element) : List Char :=
  el.gap ++ (opening "dependency" ++ (el.group.text "groupId" ++ el.artifact.text "artifactId"))

def text (el : Element) : List Char :=
  el.front ++ (el.version.elim [] (Field.text "version") ++ (el.ending ++ closing "dependency"))

def name (el : Element) : String :=
  Str.trim (.ofList el.group.value) ++ ":" ++ Str.trim (.ofList el.artifact.value)

end Element

def entry (name : String) (ver : Field) : Dependency :=
  { name, version := Str.trim (.ofList ver.value), source := "pom.xml" }

/-- Each version of a build file, with the first dependency since the version before and with the
dependency that it belongs to. -/
def versions (pending : Option Element) : List Element → List (Element × Element × Field)
  | [] => []
  | el :: tl =>
    match el.version with
    | some ver => (pending.getD el, el, ver) :: versions none tl
    | none => versions (pending.getD el) tl

/-! ## Where a version is found -/

def versionTag : List Char := opening "version"

theorem Field.over_text (fld : Field) (nm : String) (opens : Over versionTag (opening nm))
    (closes : Over versionTag (closing nm)) : Over versionTag (fld.text nm) :=
  .append (.of_notMem fld.gap.2) (opens.append (.append (.of_notMem fld.value.2) closes))

theorem Element.over_front (el : Element) : Over versionTag el.front :=
  .append (.of_notMem el.gap.2) (.append (.of_second (by decide) (by decide))
    (.append (el.group.over_text "groupId" (.of_second (by decide) (by decide))
      (.of_second (by decide) (by decide)))
        (el.artifact.over_text "artifactId" (.of_second (by decide) (by decide))
          (.of_second (by decide) (by decide)))))

theorem Element.over_ending (el : Element) : Over versionTag (el.ending ++ closing "dependency") :=
  .append (.of_notMem el.ending.2) (.of_second (by decide) (by decide))

variable {plain : List Element} {last : Element} {version : Field}

theorem over_texts (unversioned : ∀ el ∈ plain, el.version = none) :
    Over versionTag (plain.flatMap Element.text) := by
  induction plain with
  | nil => trivial
  | cons el plain ih =>
    obtain ⟨hh, later⟩ := forall_mem_cons.mp unversioned
    rw [flatMap_cons, Element.text, hh]
    exact (el.over_front.append el.over_ending).append (ih later)

theorem versions_append (unversioned : ∀ el ∈ plain, el.version = none)
    (pending : Option Element) (tl : List Element) :
    versions pending (plain ++ tl) = versions (pending.or plain.head?) tl := by
  induction plain generalizing pending with
  | nil => simp
  | cons el plain ih =>
    obtain ⟨hh, later⟩ := forall_mem_cons.mp unversioned
    rw [cons_append, versions, hh]
    dsimp only
    rw [ih later]
    cases pending <;> rfl

/-- The text up to a version, as the pattern sees it. -/
theorem exists_first (unversioned : ∀ el ∈ plain, el.version = none)
    (versioned : last.version = some version) :
    ∃ gap, Over versionTag gap ∧ (plain ++ [last]).flatMap Element.text =
      ((plain.head?).getD last).front ++ (gap ++ (versionTag ++ (version.value ++
        (closing "version" ++ (last.ending ++ closing "dependency"))))) := by
  cases plain with
  | nil => exact ⟨version.gap, .of_notMem version.gap.2, by
      simp [Element.text, versioned, Field.text, versionTag]⟩
  | cons a plain =>
    obtain ⟨hh, later⟩ := forall_mem_cons.mp unversioned
    refine ⟨a.ending ++ closing "dependency" ++ (plain.flatMap Element.text ++
      (last.front ++ version.gap)), ?_, ?_⟩
    · exact a.over_ending.append ((over_texts later).append
        (last.over_front.append (.of_notMem version.gap.2)))
    · simp [Element.text, hh, versioned, Field.text, versionTag]

/-! ## What is found -/

def coordinateSteps : List (Option Nat × List Char) :=
  [(none, opening "groupId"), (some 1, closing "groupId"), (none, opening "artifactId"),
    (some 2, closing "artifactId"), (none, versionTag), (some 3, closing "version"),
    (none, "</dependency".toList)]

theorem projectPattern_node : projectPattern.node =
    .word (opening "dependency") ((Node.char '>' .exact).chain coordinateSteps) := by
  decide +kernel

theorem spells_projectPattern : projectPattern.node.Spells versionTag := by
  rw [projectPattern_node]
  exact (Node.spells_chain _ (show (none, versionTag) ∈ coordinateSteps by decide)).behind _

def found (pl : Match) : Dependency :=
  { name := Str.trim (pl.group 1) ++ ":" ++ Str.trim (pl.group 2)
    version := Str.trim (pl.group 3)
    source := "pom.xml" }

def lent (ver : Element × Element × Field) : Dependency :=
  entry ver.1.name ver.2.2

theorem map_findFrom {els : List Element} (ending : Plain) {whole : List Char} {pl : Place}
    (within : pl.Within whole) (ahead : pl.rest = els.flatMap Element.text ++ ending)
    {fuel : Nat} (fueled : els.length < fuel) :
    (projectPattern.findFrom whole fuel false pl).map found = (versions none els).map lent := by
  induction fuel generalizing els pl with
  | zero => exact absurd fueled (Nat.not_lt_zero _)
  | succ fuel ih =>
    cases a : els.find? fun el => el.version.isSome with
    | none =>
      have unversioned : ∀ el ∈ els, el.version = none := by simpa using a
      have none := versions_append unversioned none []
      rw [append_nil] at none
      rw [none, Pattern.findFrom, searchFrom_eq_none spells_projectPattern
        (ahead ▸ (over_texts unversioned).append (.of_notMem ending.2)) rfl]
      rfl
    | some last =>
      obtain ⟨versioned, plain, tl, rfl, others⟩ := find?_eq_some_iff_append.mp a
      obtain ⟨ver, versioned⟩ := isSome_iff_exists.mp versioned
      have unversioned : ∀ el ∈ plain, el.version = none := by simpa using others
      obtain ⟨gap, ov, text⟩ := exists_first unversioned versioned
      generalize hn : plain.head?.getD last = a at text
      have shape : pl.rest = between ((none, opening "dependency") :: coordinateSteps)
          [a.gap, a.group.gap, a.group.value, a.artifact.gap, a.artifact.value,
            gap, ver.value, last.ending] ++ '>' :: (tl.flatMap Element.text ++ ending) := by
        rw [ahead, append_cons, flatMap_append, text]
        simp [between, coordinateSteps, Element.front, Field.text, closing]
      obtain ⟨_, _, searched, nextWithin, nextAhead, groups⟩ := exists_findFrom projectPattern_node
        (.cons (.of_notMem a.gap.2) (.cons (.of_notMem a.group.gap.2)
          (.cons (.of_notMem a.group.value.2) (.cons (.of_notMem a.artifact.gap.2)
            (.cons (.of_notMem a.artifact.value.2) (.cons ov
              (.cons (.of_notMem ver.value.2) (.cons (.of_notMem last.ending.2) .nil))))))))
        (by decide) within shape fuel
      have fewer : tl.length < fuel := by
        rw [length_append, length_cons] at fueled
        omega
      simp only [coordinateSteps, zip_cons_cons, forall_mem_cons] at groups
      rw [versions_append unversioned, versions, versioned, searched, map_cons, map_cons,
        ih nextWithin nextAhead fewer, found, groups.2.1 1 rfl (by decide),
        groups.2.2.2.1 2 rfl (by decide), groups.2.2.2.2.2.1 3 rfl (by decide), lent, none_or,
        hn]
      rfl

theorem length_le_flatMap_text (els : List Element) :
    els.length ≤ (els.flatMap Element.text).length := by
  induction els with
  | nil => exact Nat.le_refl 0
  | cons el els ih =>
    have hfl : 0 < el.text.length :=
      length_pos_of_mem (show '>' ∈ el.text by simp [Element.text, closing])
    rw [flatMap_cons, length_append, length_cons]
    omega

theorem projectFile_eq (els : List Element) (ending : Plain) :
    projectFile (els.flatMap Element.text ++ ending) = (versions none els).map lent := by
  have few := length_le_flatMap_text els
  refine map_findFrom ending (Place.within_start _) rfl ?_
  rw [length_append]
  omega

/-- What a dependency declares, if it has a version. -/
def declared? (el : Element) : Option Dependency :=
  el.version.map (entry el.name)

theorem filterMap_declared? (els : List Element) (pending : Option Element) :
    els.filterMap declared? = (versions pending els).map fun ver => entry ver.2.1.name ver.2.2 := by
  induction els generalizing pending with
  | nil => rfl
  | cons el els ih =>
    rw [filterMap_cons, declared?, versions]
    cases el.version with
    | none => exact ih _
    | some ver => exact congrArg _ (ih _)

/-- Every version is reported once, in order, but under the name of the first dependency since the
version before.  So the entries are the declared ones if and only if that dependency is the one that
has the version, or bears its name. -/
theorem versions_lent_to_first (elements : List Element) (ending : Plain) :
    projectFile (elements.flatMap Element.text ++ ending) = (versions none elements).map lent ∧
      (projectFile (elements.flatMap Element.text ++ ending) = elements.filterMap declared? ↔
        ∀ version ∈ versions none elements, version.1.name = version.2.1.name) := by
  refine ⟨projectFile_eq elements ending, ?_⟩
  rw [projectFile_eq, filterMap_declared? elements none, List.map_inj_left]
  simp [lent, entry]

end SourceAudit.Dependencies
