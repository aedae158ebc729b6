import SourceAudit.Proofs.ReplyShapes
import SourceAudit.Rules.Matching

/-!
# The matches of rules, line by line

Rules are looked for one after the other, each in all lines, and the matches are then sorted by
their lines.
-/

open List

namespace SourceAudit.Rules

open SourceAudit.Outcome

/-! ## Matches in one line -/

def hits (ls : List (List Char)) (pl : List Char × Nat) (rule : Rule) : List RuleMatch :=
  match rule.compiled? with
  | none => []
  | some pat =>
    (pat.findAll pl.1).map fun f =>
      { rule, line := pl.2 + 1, text := f.content,
        context := contextOf ls (pl.2 + 1), column := f.start }

def byLine (ls : List (List Char)) (rs : List Rule) : List RuleMatch :=
  ls.zipIdx.flatMap fun pl => rs.flatMap (hits ls pl)

variable {ls : List (List Char)} {rs : List Rule}

theorem matchesOf_eq (rl : Rule) : matchesOf ls rl = ls.zipIdx.flatMap fun pl => hits ls pl rl := by
  simp only [matchesOf, hits]
  cases rl.compiled? with
  | none => exact (flatMap_eq_nil_iff.mpr fun _ _ => rfl).symm
  | some pat => rfl

theorem line_of_mem_hits {pl : List Char × Nat} {rl : Rule} {f : RuleMatch}
    (hm : f ∈ hits ls pl rl) : f.line = pl.2 + 1 := by
  rw [hits] at hm
  split at hm
  · cases hm
  · obtain ⟨_, _, rfl⟩ := mem_map.mp hm
    rfl

theorem filter_hits (pl : List Char × Nat) (rl : Rule) (n : Nat) :
    (hits ls pl rl).filter (·.line == n) = if pl.2 + 1 = n then hits ls pl rl else [] := by
  split
  · refine filter_eq_self.mpr fun f hm => ?_
    rw [line_of_mem_hits hm, beq_iff_eq]
    assumption
  · refine filter_eq_nil_iff.mpr fun f hm => ?_
    rw [line_of_mem_hits hm, beq_iff_eq]
    assumption

/-! ## The stable sort -/

section Stable

variable {α : Type} {k : α → Nat} {pre back : List α}

theorem mem_of_filter_eq {x : α} (hs : ∀ n, pre.filter (k · == n) = back.filter (k · == n))
    (hm : x ∈ pre) : x ∈ back := by
  have hh : x ∈ pre.filter (k · == k x) := mem_filter.mpr ⟨hm, beq_self_eq_true _⟩
  rw [hs] at hh
  exact mem_of_mem_filter hh

theorem eq_of_filter_eq (rising : pre.Pairwise (k · ≤ k ·)) (alsoRising : back.Pairwise (k · ≤ k ·))
    (hs : ∀ n, pre.filter (k · == n) = back.filter (k · == n)) : pre = back := by
  induction pre generalizing back with
  | nil =>
    refine (eq_nil_iff_forall_not_mem.mpr fun x hm => ?_).symm
    exact not_mem_nil (mem_of_filter_eq (fun n => (hs n).symm) hm)
  | cons a tl ih =>
    cases back with
    | nil => exact (not_mem_nil (mem_of_filter_eq hs mem_cons_self)).elim
    | cons other others =>
      obtain ⟨least, risingRest⟩ := pairwise_cons.mp rising
      obtain ⟨alsoLeast, risingOthers⟩ := pairwise_cons.mp alsoRising
      -- each list has the first item of the other one, so the two have one key
      have equal : k a = k other := by
        rcases mem_cons.mp (mem_of_filter_eq hs mem_cons_self) with one | one
        · rw [one]
        · rcases mem_cons.mp (mem_of_filter_eq (fun n => (hs n).symm) mem_cons_self) with two | two
          · rw [two]
          · exact le_antisymm (least other two) (alsoLeast a one)
      have heads := hs (k a)
      rw [filter_cons, if_pos (beq_self_eq_true _), filter_cons,
        if_pos (beq_iff_eq.mpr equal.symm), List.cons.injEq] at heads
      obtain ⟨rfl, _⟩ := heads
      refine congrArg _ (ih risingRest risingOthers fun n => ?_)
      have parts := hs n
      rw [filter_cons, filter_cons] at parts
      split at parts
      · exact (List.cons.inj parts).2
      · exact parts

theorem mergeSort_eq_of_filter_eq (rising : back.Pairwise (k · ≤ k ·))
    (hs : ∀ n, pre.filter (k · == n) = back.filter (k · == n)) :
    pre.mergeSort (fun a b => k a ≤ k b) = back := by
  refine eq_of_filter_eq (Sorting.pairwise_mergeSort_key k pre) rising fun n => ?_
  rw [← hs n]
  have level : (pre.filter (k · == n)).Pairwise fun one two => decide (k one ≤ k two) = true := by
    refine pairwise_of_forall_mem_list fun one hh two ht => decide_eq_true ?_
    have a := beq_iff_eq.mp (mem_filter.mp hh).2
    have b := beq_iff_eq.mp (mem_filter.mp ht).2
    rw [a, b]
  have kept := (sublist_mergeSort (Sorting.key_trans k) (Sorting.key_total k) level
    filter_sublist).filter (k · == n)
  rw [filter_filter] at kept
  simp only [Bool.and_self] at kept
  exact (kept.eq_of_length ((mergeSort_perm _ _).filter _).length_eq.symm).symm

end Stable

/-! ## All lines -/

theorem rising_zipIdx (ls : List (List Char)) : ls.zipIdx.Pairwise (·.2 < ·.2) := by
  rw [← pairwise_map (f := Prod.snd) (R := (· < ·)), zipIdx_map_snd]
  exact pairwise_lt_range' 1

theorem rising_byLine : (byLine ls rs).Pairwise (·.line ≤ ·.line) := by
  have numbered {pl : List Char × Nat} {f : RuleMatch}
      (hm : f ∈ rs.flatMap (hits ls pl)) : f.line = pl.2 + 1 := by
    obtain ⟨rl, _, hi⟩ := mem_flatMap.mp hm
    exact line_of_mem_hits hi
  refine pairwise_flatMap.mpr ⟨fun pl _ => ?_,
    (rising_zipIdx ls).imp fun before one hh two ht => ?_⟩
  · refine pairwise_of_forall_mem_list fun one hh two ht => ?_
    rw [numbered hh, numbered ht]
  · rw [numbered hh, numbered ht]
    omega

theorem exists_place {β : Type} {pls : List (List Char × Nat)}
    (rising : pls.Pairwise (·.2 < ·.2)) (n : Nat) :
    ∃ f : Option (List Char × Nat), ∀ rep : List Char × Nat → List β,
      (pls.flatMap fun pl => if pl.2 + 1 = n then rep pl else []) = f.elim [] rep := by
  induction pls with
  | nil => exact ⟨none, fun _ => rfl⟩
  | cons pl tl ih =>
    obtain ⟨before, later⟩ := pairwise_cons.mp rising
    by_cases hh : pl.2 + 1 = n
    · refine ⟨some pl, fun rep => ?_⟩
      rw [flatMap_cons, if_pos hh]
      refine (congrArg _ (flatMap_eq_nil_iff.mpr fun other hm => ?_)).trans (append_nil _)
      have := before other hm
      exact if_neg (by omega)
    · obtain ⟨f, hk⟩ := ih later
      refine ⟨f, fun rep => ?_⟩
      rw [flatMap_cons, if_neg hh, hk, nil_append]

theorem filter_flatMap_matchesOf (n : Nat) :
    (rs.flatMap (matchesOf ls)).filter (·.line == n) = (byLine ls rs).filter (·.line == n) := by
  obtain ⟨f, hk⟩ := exists_place (β := RuleMatch) (rising_zipIdx ls) n
  have line (pl : List Char × Nat) : (rs.flatMap (hits ls pl)).filter (·.line == n) =
      if pl.2 + 1 = n then rs.flatMap (hits ls pl) else [] := by
    simp only [filter_flatMap, filter_hits]
    split
    · rfl
    · exact flatMap_eq_nil_iff.mpr fun _ _ => rfl
  simp only [byLine, matchesOf_eq, filter_flatMap, filter_hits, line, hk]
  cases f with
  | none => exact flatMap_eq_nil_iff.mpr fun _ _ => rfl
  | some pl => rfl

theorem matchRules_eq {src : String} (hw : src.isEmpty = false) :
    matchRules src rs = byLine (Text.splitNewline src.toList) rs := by
  rw [matchRules, hw]
  exact mergeSort_eq_of_filter_eq rising_byLine filter_flatMap_matchesOf

/-! ## Rules in documents -/

def hasPattern (doc : Value) : Bool :=
  match doc.getD "pattern" (.text "") with
  | .ok (.text source) => !source.isEmpty && (Pattern.compile source).isOk
  | _ => false

theorem exists_rule {doc : Value} (dictionary : doc.kind = .record) :
    ∃ rl, Rule.ofValue doc = .ok rl := by
  cases doc with
  | record fs => exact ⟨_, rfl⟩
  | table es => exact ⟨_, rfl⟩
  | _ => cases dictionary

theorem hasPattern_eq {doc : Value} {rl : Rule}
    (hr : Rule.ofValue doc = .ok rl) : hasPattern doc = rl.compiled?.isSome := by
  obtain ⟨pat, stated, hs⟩ : ∃ pat, doc.getD "pattern" (.text "") = .ok pat ∧ rl.pattern = pat := by
    cases doc with
    | record fs =>
      cases hr
      exact ⟨_, rfl, rfl⟩
    | table es =>
      cases hr
      exact ⟨_, rfl, rfl⟩
    | _ => cases hr
  rw [hasPattern, stated, Rule.compiled?, hs]
  cases pat with
  | text src =>
    dsimp only
    cases src.isEmpty with
    | true => rfl
    | false => cases Pattern.compile src <;> rfl
  | _ => rfl

theorem byLine_filter : byLine ls (rs.filter fun rl => rl.compiled?.isSome) = byLine ls rs := by
  refine congrArg (ls.zipIdx.flatMap ·) (funext fun pl => ?_)
  induction rs with
  | nil => rfl
  | cons rl tl ih =>
    rw [filter_cons, flatMap_cons, ← ih]
    cases compiled : rl.compiled? with
    | none =>
      rw [hits, compiled]
      rfl
    | some pat => rfl

theorem matchDocuments_eq {src : String} {documents : List Value}
    (hw : src.isEmpty = false) (hr : documents.mapM Rule.ofValue = .ok rs) :
    matchDocuments src (.list documents) =
      .ok ((byLine (Text.splitNewline src.toList) rs).map (·.toValue)) := by
  have hk : readRules src (.list documents) = .ok rs := by
    rw [readRules, hw]
    cases documents with
    | nil => exact hr
    | cons doc tl => exact hr
  rw [matchDocuments, bind_ok hk, matchRules_eq hw]
  rfl

/--
A text is searched for the rules line by line, in each line in the order of the rules and for each
rule from the left, and the result is the same without the rules that have no usable pattern.
-/
theorem rules_reported_line_by_line {source : String} {documents : List Value}
    (written : source ≠ "") (dictionaries : ∀ document ∈ documents, document.kind = .record) :
    ∃ rules, documents.mapM Rule.ofValue = .ok rules ∧
      matchDocuments source (.list documents) =
        .ok ((byLine (Text.splitNewline source.toList) rules).map (·.toValue)) ∧
      matchDocuments source (.list (documents.filter hasPattern)) =
        matchDocuments source (.list documents) := by
  have nonempty : source.isEmpty = false := Bool.eq_false_iff.mpr (mt String.isEmpty_iff.mp written)
  obtain ⟨rules, read⟩ : Succeeds (documents.mapM Rule.ofValue) :=
    succeeds_mapM.mpr fun document member => exists_rule (dictionaries document member)
  have kept : (documents.filter hasPattern).mapM Rule.ofValue =
      .ok (rules.filter fun rule => rule.compiled?.isSome) := by
    rw [mapM_eq_ok_iff] at read ⊢
    refine List.rel_filter (fun document rule known => ?_) read
    change hasPattern document = true ↔ rule.compiled?.isSome = true
    rw [hasPattern_eq known]
  refine ⟨rules, read, matchDocuments_eq nonempty read, ?_⟩
  rw [matchDocuments_eq nonempty kept, matchDocuments_eq nonempty read, byLine_filter]

/-- Two rules around one with a malformed pattern, in a text where both match the first line. -/
theorem rules_reported_line_by_line_of_three :
    ∃ found : List RuleMatch,
      matchDocuments "ba\na" (.list [.record [("pattern", .text "a")],
        .record [("pattern", .text "(")], .record [("pattern", .text "b")]]) =
          .ok (found.map (·.toValue)) ∧
      matchDocuments "ba\na" (.list [.record [("pattern", .text "a")],
        .record [("pattern", .text "b")]]) = .ok (found.map (·.toValue)) ∧
      found.map (fun one => (one.line, one.text, one.column)) =
        [(1, "a", 1), (1, "b", 0), (2, "a", 0)] := by
  obtain ⟨rules, read, reported, without⟩ := @rules_reported_line_by_line "ba\na"
    [.record [("pattern", .text "a")], .record [("pattern", .text "(")],
      .record [("pattern", .text "b")]] (by decide) (by simp [Value.kind])
  cases read
  exact ⟨_, reported, without.trans reported, by decide +kernel⟩

end SourceAudit.Rules
