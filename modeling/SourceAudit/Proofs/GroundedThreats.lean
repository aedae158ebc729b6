import SourceAudit.Proofs.ReplyShapes

/-!
# Threats of models are grounded in the project

A model may claim anything about a project. This module says what is left of its claims.
-/

open List

namespace SourceAudit.Agent

open Outcome
open SourceAudit.Findings (Severity)

/-! ## Rising numbers -/

theorem mem_insertRising {n other : Int} {ns : List Int} :
    other ∈ insertRising n ns ↔ other = n ∨ other ∈ ns := by
  induction ns with
  | nil => simp [insertRising]
  | cons a tl ih =>
    rw [insertRising]
    split_ifs with below hs
    · rw [mem_cons]
    · rw [hs, mem_cons]
      exact or_self_left.symm
    · rw [mem_cons, ih, mem_cons]
      exact or_left_comm

theorem pairwise_insertRising {n : Int} {ns : List Int}
    (rises : ns.Pairwise (· < ·)) : (insertRising n ns).Pairwise (· < ·) := by
  induction ns with
  | nil => simp [insertRising]
  | cons a tl ih =>
    obtain ⟨least, others⟩ := pairwise_cons.mp rises
    rw [insertRising]
    split_ifs with below same
    · refine pairwise_cons.mpr ⟨?_, rises⟩
      intro other hm
      rcases mem_cons.mp hm with rfl | later
      · exact below
      · exact below.trans (least other later)
    · exact rises
    · refine pairwise_cons.mpr ⟨?_, ih others⟩
      intro other hm
      rcases mem_insertRising.mp hm with rfl | later
      · omega
      · exact least other later

@[simp]
theorem mem_rising {n : Int} {ns : List Int} : n ∈ rising ns ↔ n ∈ ns := by
  induction ns with
  | nil => rfl
  | cons a tl ih =>
    rw [rising, foldr_cons, ← rising, mem_insertRising, ih, mem_cons]

theorem pairwise_rising (ns : List Int) : (rising ns).Pairwise (· < ·) := by
  induction ns with
  | nil => exact List.Pairwise.nil
  | cons a tl ih =>
    exact pairwise_insertRising ih

/-! ## Evidence -/

def HasLine (files : FileLines) (file : String) (ln : Int) : Prop :=
  ∃ ls, files.find? (fun e => e.1 == file) = some (file, ls) ∧
    1 ≤ ln ∧ ln ≤ ls.length

structure PointsTo (files : FileLines) (item : Value) (file : String) (line : Int) : Prop where
  isRecord : item.isRecord = true
  names : item.lookup "file" = .text file
  numbers : (item.lookup "line").toInteger = .ok line
  hasLine : HasLine files file line

theorem linesOf?_eq_ok {files : FileLines} {file : Value} {f : Option (String × List String)}
    (hd : linesOf? files file = .ok f) {p : String} {ls : List String} :
    f = some (p, ls) ↔ file = .text p ∧ files.find? (fun e => e.1 == p) = some (p, ls) := by
  cases file with
  | text nm =>
    cases hd
    constructor
    · intro hk
      have hs : p = nm := by simpa using find?_some hk
      subst hs
      exact ⟨rfl, hk⟩
    · rintro ⟨hs, hk⟩
      cases hs
      exact hk
  | _ =>
    obtain ⟨k, keyed, hd⟩ := bind_eq_ok.mp hd
    rw [asKey_eq_ok keyed] at hd
    cases hd
    constructor
    · intro hk
      cases hk
    · rintro ⟨hs, _⟩
      cases hs

theorem evidenceOf?_eq_ok {files : FileLines} {x : Value} {kept : Option Evidence}
    (hd : evidenceOf? files x = .ok kept) {file : String} {ln : Int} :
    (∃ ev, kept = some ev ∧ ev.file = file ∧ ev.line = ln) ↔ PointsTo files x file ln := by
  have nothing (not : ¬ PointsTo files x file ln) : (∃ ev : Evidence, none = some ev ∧
      ev.file = file ∧ ev.line = ln) ↔ PointsTo files x file ln :=
    iff_of_false (by rintro ⟨_, hs, _⟩; cases hs) not
  rw [evidenceOf?] at hd
  by_cases recorded : x.isRecord = true
  · simp only [recorded] at hd
    obtain ⟨f, hn, hd⟩ := bind_eq_ok.mp hd
    have located := fun p ls => @linesOf?_eq_ok files _ f hn p ls
    cases f with
    | none =>
      cases hd
      refine nothing fun points => ?_
      obtain ⟨ls, hk, _⟩ := points.hasLine
      cases (located file ls).mpr ⟨points.names, hk⟩
    | some e =>
      obtain ⟨p, ls⟩ := e
      obtain ⟨isPath, hk⟩ := (located p ls).mp rfl
      -- all that points somewhere points into this file
      have hi {other : String} {n : Int} (points : PointsTo files x other n) :
          other = p ∧ 1 ≤ n ∧ n ≤ ls.length := by
        obtain ⟨others, also, least, most⟩ := points.hasLine
        cases (located other others).mpr ⟨points.names, also⟩
        exact ⟨rfl, least, most⟩
      dsimp only at hd
      split at hd
      · next err failed =>
        cases hd
        exact nothing fun points => by cases failed.symm.trans points.numbers
      · next n numbered =>
        rw [Int.ofNat_eq_natCast] at hd
        split at hd
        · cases hd
          refine nothing fun points => ?_
          obtain ⟨_, least, most⟩ := hi points
          cases numbered.symm.trans points.numbers
          omega
        · cases hd
          constructor
          · rintro ⟨_, hs, rfl, rfl⟩
            cases hs
            exact ⟨recorded, isPath, numbered, ls, hk, by dsimp only; omega⟩
          · intro points
            obtain ⟨rfl, _⟩ := hi points
            cases numbered.symm.trans points.numbers
            exact ⟨_, rfl, rfl, rfl⟩
  · simp only [recorded] at hd
    cases hd
    exact nothing fun points => recorded points.isRecord

/-! ## Threats -/

def severityNames : List String := ["critical", "high", "medium", "low"]

theorem severityOfWord_name {w : String} (hk : Str.lower w ∈ severityNames) :
    (severityOfWord w).name = Str.lower w := by
  rw [severityOfWord]
  simp only [severityNames, mem_cons, not_mem_nil, or_false] at hk
  rcases hk with hs | hs | hs | hs <;> rw [hs] <;> rfl

theorem name_mem_severityNames (sev : Severity) : sev.name ∈ severityNames := by
  cases sev <;> decide

def States (fnd : Value) (ln : Int) : Prop :=
  ∃ x ∈ listed fnd "line_numbers", x.toInteger = .ok ln

def Shows (files : FileLines) (fnd : Value) (file : String) (ln : Int) : Prop :=
  ∃ x ∈ listed fnd "evidence", PointsTo files x file ln

def Supported (files : FileLines) (required : Bool) (fnd : Value) : Prop :=
  fnd.isRecord = true ∧
    ((∃ file ln, Shows files fnd file ln) ∨ (required = false ∧ ∃ ln, States fnd ln))

structure Grounded (files : FileLines) (required : Bool) (threat : ModelThreat) (finding : Value) :
    Prop where
  severity : threat.severity.name ∈ severityNames
  stated : ∀ word, finding.lookup "severity" = .text word → Str.lower word ∈ severityNames →
    threat.severity.name = Str.lower word
  inProject : ∀ item ∈ threat.evidence, HasLine files item.file item.line
  shown : ∀ file line, (∃ item ∈ threat.evidence, item.file = file ∧ item.line = line) ↔
    Shows files finding file line
  someLine : threat.lines ≠ []
  rises : threat.lines.Pairwise (· < ·)
  ofEvidence : ∀ item ∈ threat.evidence, item.line ∈ threat.lines
  lines : ∀ line, line ∈ threat.lines ↔
    States finding line ∨ ∃ item ∈ threat.evidence, item.line = line
  required : required = true → threat.evidence ≠ []

theorem mem_stated_iff {fnd : Value} {xs : List Value}
    (hr : listedItems fnd "line_numbers" = .ok xs) {ln : Int} :
    ln ∈ xs.filterMap (fun x => x.toInteger.toOption) ↔ States fnd ln := by
  rw [States, listed_eq hr, mem_filterMap]
  refine exists_congr fun x => and_congr_right fun _ => ?_
  cases x.toInteger <;> simp [Except.toOption]

theorem mem_shown_iff {files : FileLines} {fnd : Value} {xs : List Value}
    {f : List (Option Evidence)} (hr : listedItems fnd "evidence" = .ok xs)
    (hd : xs.mapM (evidenceOf? files) = .ok f) {file : String} {ln : Int} :
    (∃ x ∈ f.filterMap id, x.file = file ∧ x.line = ln) ↔ Shows files fnd file ln := by
  have taken := succeeds_mapM.mp ⟨f, hd⟩
  rw [Shows, listed_eq hr]
  constructor
  · rintro ⟨ev, hm, hs⟩
    obtain ⟨x, hi, kept⟩ := (mem_found_iff hd).mp hm
    exact ⟨x, hi, (evidenceOf?_eq_ok kept).mp ⟨ev, rfl, hs⟩⟩
  · rintro ⟨x, hi, points⟩
    obtain ⟨out, kept⟩ := taken x hi
    obtain ⟨ev, rfl, hs⟩ := (evidenceOf?_eq_ok kept).mpr points
    exact ⟨ev, (mem_found_iff hd).mpr ⟨x, hi, kept⟩, hs⟩

theorem severityOfWord_of_stated {fnd : Value} {w stated : String}
    (hr : ((fnd.lookup "severity").orElse (.text "medium")).lower = .ok w)
    (states : fnd.lookup "severity" = .text stated) (hk : Str.lower stated ∈ severityNames) :
    (severityOfWord w).name = Str.lower stated := by
  have hpres : (Value.text stated).truthy = true := by
    rw [Value.truthy, Bool.not_eq_true']
    by_contra empty
    rw [String.isEmpty_iff.mp (Bool.eq_true_of_not_eq_false empty)] at hk
    exact absurd hk (by decide)
  rw [states, Value.orElse, hpres] at hr
  cases hr
  have settled : Str.lower (Str.lower stated) = Str.lower stated := by
    simp only [severityNames, mem_cons, not_mem_nil, or_false] at hk
    rcases hk with hs | hs | hs | hs <;> rw [hs] <;> decide
  rw [severityOfWord_name (by rw [settled]; exact hk), settled]

theorem threatOf?_eq_ok {files : FileLines} {required : Bool} {fnd : Value}
    {made : Option ModelThreat} (hd : threatOf? files required fnd = .ok made) :
    (made.isSome = true ↔ Supported files required fnd) ∧
      ∀ th, made = some th → Grounded files required th fnd := by
  rw [threatOf?] at hd
  by_cases recorded : fnd.isRecord = true
  · simp only [recorded] at hd
    obtain ⟨k, _, hd⟩ := bind_eq_ok.mp hd
    obtain ⟨w, wordRead, hd⟩ := bind_eq_ok.mp hd
    obtain ⟨desc, _, hd⟩ := bind_eq_ok.mp hd
    obtain ⟨ns, numbersRead, hd⟩ := bind_eq_ok.mp hd
    obtain ⟨xs, itemsRead, hd⟩ := bind_eq_ok.mp hd
    obtain ⟨f, foundRead, hd⟩ := bind_eq_ok.mp hd
    have stated := fun ln => @mem_stated_iff fnd ns numbersRead ln
    have shown := fun file ln =>
      @mem_shown_iff files fnd xs f itemsRead foundRead file ln
    have located : ∀ x ∈ f.filterMap id, HasLine files x.file x.line := by
      intro x hm
      obtain ⟨_, _, points⟩ := (shown x.file x.line).mp ⟨x, hm, rfl, rfl⟩
      exact points.hasLine
    generalize f.filterMap id = ev at hd shown located
    generalize ns.filterMap _ = counted at hd stated
    -- nothing is shown without evidence
    have unshown (empty : ev = []) (file : String) (ln : Int) : ¬ Shows files fnd file ln := by
      rw [← shown, empty]
      rintro ⟨_, hm, _⟩
      cases hm
    split at hd
    · next lacking =>
      rw [Bool.and_eq_true, List.isEmpty_iff] at lacking
      cases hd
      refine ⟨⟨fun some => absurd some Bool.false_ne_true, ?_⟩, fun _ hs => by cases hs⟩
      rintro ⟨_, ⟨file, ln, shows⟩ | ⟨optional, _⟩⟩
      · exact absurd shows (unshown lacking.2 file ln)
      · exact absurd (lacking.1.symm.trans optional) Bool.noConfusion
    · next enough =>
      have mem_iff (ln : Int) : ln ∈ rising (counted ++ ev.map (·.line)) ↔
          States fnd ln ∨ ∃ x ∈ ev, x.line = ln := by
        rw [mem_rising, mem_append, stated, mem_map]
      split at hd
      · next none =>
        cases hd
        rw [List.isEmpty_iff] at none
        rw [none] at mem_iff
        refine ⟨⟨fun some => absurd some Bool.false_ne_true, ?_⟩, fun _ hs => by cases hs⟩
        rintro ⟨_, ⟨file, ln, shows⟩ | ⟨_, ln, states⟩⟩
        · obtain ⟨x, hm, _, hs⟩ := (shown file ln).mpr shows
          cases (mem_iff ln).mpr (Or.inr ⟨x, hm, hs⟩)
        · cases (mem_iff ln).mpr (Or.inl states)
      · next some =>
        rw [List.isEmpty_iff] at some
        cases hd
        have evident : required = true → ev ≠ [] := by
          rintro rfl rfl
          exact enough rfl
        refine ⟨⟨fun _ => ⟨recorded, ?_⟩, fun _ => rfl⟩, ?_⟩
        · obtain ⟨ln, hm⟩ := exists_mem_of_ne_nil _ some
          rcases (mem_iff ln).mp hm with states | ⟨x, hi, _⟩
          · cases required with
            | false => exact Or.inr ⟨rfl, ln, states⟩
            | true =>
              obtain ⟨x, hi⟩ := exists_mem_of_ne_nil _ (evident rfl)
              exact Or.inl ⟨_, _, (shown _ _).mp ⟨x, hi, rfl, rfl⟩⟩
          · exact Or.inl ⟨_, _, (shown _ _).mp ⟨x, hi, rfl, rfl⟩⟩
        · rintro th hs
          cases hs
          exact
            { severity := name_mem_severityNames _
              stated := fun _ states hk => severityOfWord_of_stated wordRead states hk
              inProject := located
              shown := shown
              someLine := some
              rises := pairwise_rising _
              ofEvidence := fun x hm => (mem_iff x.line).mpr (Or.inr ⟨x, hm, rfl⟩)
              lines := mem_iff
              required := evident }
  · simp only [recorded] at hd
    cases hd
    refine ⟨⟨fun some => absurd some Bool.false_ne_true, fun supported => absurd supported.1 recorded⟩,
      fun _ hs => by cases hs⟩

/--
The threats of a list of findings are made of the supported ones among them, one of each and in their
order, and every threat is grounded in the project.
-/
theorem threats_grounded_in_project {findings : List Value} {files : FileLines} {required : Bool}
    {threats : List ModelThreat} (made : threatsOf (.list findings) files required = .ok threats) :
    ∃ kept, kept.Sublist findings ∧
      (∀ finding ∈ findings, finding ∈ kept ↔ Supported files required finding) ∧
        List.Forall₂ (Grounded files required) threats kept := by
  have listed : (Value.list findings).items = .ok findings := rfl
  rw [threatsOf, bind_ok listed] at made
  obtain ⟨outcomes, done, same⟩ := bind_eq_ok.mp made
  cases same
  rw [mapM_eq_ok_iff] at done
  clear listed made
  induction done with
  | nil => exact ⟨[], List.Sublist.slnil, List.forall_mem_nil _, .nil⟩
  | @cons finding outcome rest others first _ induction =>
    obtain ⟨kept, sublist, member_iff, grounded⟩ := induction
    obtain ⟨made_iff, each⟩ := threatOf?_eq_ok first
    cases outcome with
    | none =>
      have unsupported : ¬ Supported files required finding := fun supported =>
        absurd (made_iff.mpr supported) Bool.false_ne_true
      refine ⟨kept, sublist.cons finding, ?_, grounded⟩
      refine List.forall_mem_cons.mpr ⟨⟨fun inside => ?_, fun supported => ?_⟩, member_iff⟩
      · exact (member_iff finding (sublist.subset inside)).mp inside
      · exact absurd supported unsupported
    | some threat =>
      have supported : Supported files required finding := made_iff.mp rfl
      refine ⟨finding :: kept, sublist.cons_cons finding, ?_, .cons (each threat rfl) grounded⟩
      refine List.forall_mem_cons.mpr ⟨⟨fun _ => supported, fun _ => List.mem_cons_self⟩, ?_⟩
      intro other later
      rw [List.mem_cons, member_iff other later]
      constructor
      · rintro (rfl | other)
        · exact supported
        · exact other
      · exact Or.inr

/-! ### Findings of all sorts -/

def sampleFiles : FileLines :=
  [("a.py", ["import os", "  os.system(x)"])]

def sampleFindings : List Value :=
  [.text "note",
    .record [("severity", .text "HIGH"), ("line_numbers", .list [.int 9, .text "1", .null]),
      ("evidence", .list [.record [("file", .text "b.py"), ("line", .int 1)],
        .record [("file", .text "a.py"), ("line", .text "2")],
        .record [("file", .text "a.py"), ("line", .int 3)], .int 7])],
    .record [("line_numbers", .list [.int 1])]]

/-- One threat is made of the second finding, with the one item that points to a line. -/
theorem sampleFindings_grounded :
    ∃ threats, threatsOf (.list sampleFindings) sampleFiles true = .ok threats ∧
      threats.map (·.lines) = [[1, 2, 9]] ∧
        ∃ kept, kept.Sublist sampleFindings ∧ (∀ finding ∈ sampleFindings,
            finding ∈ kept ↔ Supported sampleFiles true finding) ∧
            List.Forall₂ (Grounded sampleFiles true) threats kept := by
  refine ⟨_, rfl, ?_, threats_grounded_in_project rfl⟩
  decide

end SourceAudit.Agent
