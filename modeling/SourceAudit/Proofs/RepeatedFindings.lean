import SourceAudit.Analysis.ProjectAnalysis
import SourceAudit.Proofs.KeyEquality
import SourceAudit.Proofs.ReplyShapes

/-!
# Findings that a model repeats

The findings of a model become threats, which join the threats of rules and are counted for the risk
of a project.
-/

open List

namespace SourceAudit.Agent

open SourceAudit.Outcome
open SourceAudit.Findings (Severity Breakdown Risk appendNew mergeBy assessCounts)

/-! ## Repetition -/

/--
The second list is the first one with copies of its items put in, each somewhere behind an equal
item; the third list holds the copies.
-/
inductive Repeats {α : Type} (xs : List α) : List α → List α → Prop where
  | none : Repeats xs xs []
  | again {pre tl copies : List α} {x : α} (before : Repeats xs (pre ++ tl) copies)
      (earlier : x ∈ pre) : Repeats xs (pre ++ x :: tl) (x :: copies)

namespace Repeats

variable {α β : Type} {xs repeated copies : List α}

theorem mem_iff (repeats : Repeats xs repeated copies) {x : α} : x ∈ repeated ↔ x ∈ xs := by
  induction repeats with
  | none => rfl
  | again before earlier ih =>
    rw [← ih]
    simp only [mem_append, mem_cons]
    constructor
    · rintro (hi | rfl | hi)
      · exact Or.inl hi
      · exact Or.inl earlier
      · exact Or.inr hi
    · rintro (hi | hi)
      · exact Or.inl hi
      · exact Or.inr (Or.inr hi)

theorem mem_of_mem_copies (repeats : Repeats xs repeated copies) {x : α}
    (hm : x ∈ copies) : x ∈ xs := by
  induction repeats with
  | none => cases hm
  | again before earlier ih =>
    rcases mem_cons.mp hm with rfl | hi
    · exact before.mem_iff.mp (mem_append_left _ earlier)
    · exact ih hi

theorem filterMap (repeats : Repeats xs repeated copies) (choose : α → Option β) :
    Repeats (xs.filterMap choose) (repeated.filterMap choose) (copies.filterMap choose) := by
  induction repeats with
  | none => exact .none
  | @again pre tl copies x before earlier ih =>
    rw [filterMap_append] at ih ⊢
    cases chosen : choose x with
    | none =>
      rw [filterMap_cons_none chosen, filterMap_cons_none chosen]
      exact ih
    | some made =>
      rw [filterMap_cons_some chosen, filterMap_cons_some chosen]
      exact .again ih (mem_filterMap.mpr ⟨x, earlier, chosen⟩)

theorem countP (repeats : Repeats xs repeated copies) (test : α → Bool) :
    repeated.countP test = xs.countP test + copies.countP test := by
  induction repeats with
  | none => rfl
  | @again pre tl copies x before earlier ih =>
    rw [countP_append] at ih
    rw [countP_append, countP_cons, countP_cons]
    omega

end Repeats

/-! ## Threats of repeated findings -/

def threatIn (files : FileLines) (required : Bool) (fnd : Value) : Option ModelThreat :=
  match threatOf? files required fnd with
  | .ok th => th
  | .error _ => none

variable {files : FileLines} {required : Bool} {fnds : List Value}

theorem mapM_threatOf? (taken : ∀ fnd ∈ fnds, Succeeds (threatOf? files required fnd)) :
    fnds.mapM (threatOf? files required) = .ok (fnds.map (threatIn files required)) := by
  induction fnds with
  | nil => rfl
  | cons fnd tl ih =>
    obtain ⟨⟨th, made⟩, others⟩ := forall_mem_cons.mp taken
    rw [mapM_cons, bind_ok made, bind_ok (ih others), map_cons, threatIn, made]
    rfl

theorem threatsOf_list (taken : ∀ fnd ∈ fnds, Succeeds (threatOf? files required fnd)) :
    threatsOf (.list fnds) files required = .ok (fnds.filterMap (threatIn files required)) := by
  have hl : (Value.list fnds).items = .ok fnds := rfl
  rw [threatsOf, bind_ok hl, bind_ok (mapM_threatOf? taken), filterMap_map]
  rfl

variable {ths : List ModelThreat}

theorem taken_of_threatsOf (made : threatsOf (.list fnds) files required = .ok ths) :
    ∀ fnd ∈ fnds, Succeeds (threatOf? files required fnd) := by
  have hl : (Value.list fnds).items = .ok fnds := rfl
  rw [threatsOf, bind_ok hl] at made
  obtain ⟨f, all, _⟩ := bind_eq_ok.mp made
  exact succeeds_mapM.mp ⟨f, all⟩

theorem threatsOf_repeated {repeated copies : List Value} (repeats : Repeats fnds repeated copies)
    (made : threatsOf (.list fnds) files required = .ok ths) :
    ∃ more extra, threatsOf (.list repeated) files required = .ok more ∧
      threatsOf (.list copies) files required = .ok extra ∧ Repeats ths more extra := by
  have taken := taken_of_threatsOf made
  rw [threatsOf_list taken] at made
  cases made
  exact ⟨_, _, threatsOf_list fun fnd hm => taken fnd (repeats.mem_iff.mp hm),
    threatsOf_list fun fnd hm => taken fnd (repeats.mem_of_mem_copies hm), repeats.filterMap _⟩

/-! ## The list of threats -/

theorem unhashableItem?_eq_none {xs : List Value}
    (hhash : ∀ x ∈ xs, x.unhashable? = none) : Value.unhashableItem? xs = none := by
  induction xs with
  | nil => rfl
  | cons x tl ih =>
    obtain ⟨h1, others⟩ := forall_mem_cons.mp hhash
    rw [Value.unhashableItem?, h1]
    exact ih others

namespace ModelThreat

def mergeKey (th : ModelThreat) : Value :=
  .tuple [.text th.kind, .text th.severity.name, .text th.description, .tuple (th.lines.map .int),
    .tuple (th.evidence.map fun x => .tuple [.text x.file, .int x.line])]

theorem hashable_mergeKey (th : ModelThreat) : th.mergeKey.unhashable? = none := by
  have numbers : (Value.tuple (th.lines.map .int)).unhashable? = none := by
    rw [Value.unhashable?]
    refine unhashableItem?_eq_none fun x hm => ?_
    obtain ⟨n, _, rfl⟩ := mem_map.mp hm
    rfl
  have places : (Value.tuple (th.evidence.map fun x =>
      .tuple [.text x.file, .int x.line])).unhashable? = none := by
    rw [Value.unhashable?]
    refine unhashableItem?_eq_none fun x hm => ?_
    obtain ⟨pl, _, rfl⟩ := mem_map.mp hm
    rfl
  rw [mergeKey, Value.unhashable?]
  refine unhashableItem?_eq_none ?_
  simp only [forall_mem_cons, numbers, places]
  exact ⟨rfl, rfl, rfl, trivial, trivial, forall_mem_nil _⟩

theorem projectKey_toValue (th : ModelThreat) :
    Analysis.projectKey th.toValue = .ok th.mergeKey := by
  have kind : th.toValue.get "threat_type" = .ok (.text th.kind) := rfl
  have severity : th.toValue.get "severity" = .ok (.text th.severity.name) := rfl
  have description : th.toValue.get "description" = .ok (.text th.description) := rfl
  have lines : th.toValue.get "line_numbers" = .ok (Value.ofInts th.lines) := rfl
  have evidence : th.toValue.get "evidence" = .ok (.list (th.evidence.map (·.toValue))) := rfl
  have numbers : ((Value.ofInts th.lines).orElse (.list [])).items = .ok (th.lines.map .int) := by
    cases th.lines <;> rfl
  have items : ((Value.list (th.evidence.map (·.toValue))).orElse (.list [])).items =
      .ok (th.evidence.map (·.toValue)) := by
    cases th.evidence <;> rfl
  have places : ((th.evidence.map (·.toValue)).filter Value.isRecord).map
        (fun x => Value.tuple [x.lookup "file", x.lookup "line"]) =
      th.evidence.map fun x => .tuple [.text x.file, .int x.line] := by
    rw [filter_eq_self.mpr, map_map]
    · rfl
    · intro x hm
      obtain ⟨pl, _, rfl⟩ := mem_map.mp hm
      rfl
  rw [Analysis.projectKey, bind_ok kind, bind_ok severity, bind_ok description, bind_ok lines,
    bind_ok numbers, bind_ok evidence, bind_ok items, places]
  change th.mergeKey.asKey = _
  rw [Value.asKey, th.hashable_mergeKey]

end ModelThreat

theorem appendNew_again {seen : List Value} {pre tl : List ModelThreat} {th : ModelThreat}
    (hk : th.mergeKey.among seen = true ∨ th ∈ pre) :
    appendNew Analysis.projectKey seen ((pre ++ th :: tl).map (·.toValue)) =
      appendNew Analysis.projectKey seen ((pre ++ tl).map (·.toValue)) := by
  induction pre generalizing seen with
  | nil =>
    have among : th.mergeKey.among seen = true := hk.resolve_right not_mem_nil
    rw [nil_append, map_cons, appendNew, bind_ok th.projectKey_toValue, if_pos among]
    rfl
  | cons a pre ih =>
    simp only [cons_append, map_cons, appendNew]
    rw [bind_ok a.projectKey_toValue, bind_ok a.projectKey_toValue]
    by_cases seenBefore : a.mergeKey.among seen = true
    · rw [if_pos seenBefore, if_pos seenBefore]
      refine ih ?_
      rcases hk with among | hm
      · exact Or.inl among
      · refine (mem_cons.mp hm).imp_left fun hs => ?_
        rwa [hs]
    · rw [if_neg seenBefore, if_neg seenBefore]
      have later : th.mergeKey.among (a.mergeKey :: seen) = true ∨ th ∈ pre := by
        rw [Value.among, any_cons, Bool.or_eq_true]
        rcases hk with among | hm
        · exact Or.inl (Or.inr among)
        · refine (mem_cons.mp hm).imp_left fun hs => ?_
          rw [← hs]
          exact Or.inl (Value.alike_self th.hashable_mergeKey)
      rw [ih later]

variable {more extra : List ModelThreat}

theorem appendNew_repeated {seen : List Value} (repeats : Repeats ths more extra) :
    appendNew Analysis.projectKey seen (more.map (·.toValue)) =
      appendNew Analysis.projectKey seen (ths.map (·.toValue)) := by
  induction repeats with
  | none => rfl
  | again before earlier ih => rw [appendNew_again (Or.inr earlier), ih]

theorem mergeBy_repeated {existing : Value} (repeats : Repeats ths more extra) :
    mergeBy Analysis.projectKey existing (.list (more.map (·.toValue))) =
      mergeBy Analysis.projectKey existing (.list (ths.map (·.toValue))) := by
  have incoming (list : List ModelThreat) :
      ((Value.list (list.map (·.toValue))).orElse (.list [])).items =
        .ok (list.map (·.toValue)) := by
    cases list <;> rfl
  rw [mergeBy, mergeBy, incoming, incoming]
  congr 1
  funext old
  congr 1
  funext seen
  change (appendNew _ _ _ >>= _) = (appendNew _ _ _ >>= _)
  rw [appendNew_repeated repeats]

/-! ## The counts -/

def tally (ths : List ModelThreat) : Breakdown where
  critical := ths.countP fun th => th.severity == .critical
  high := ths.countP fun th => th.severity == .high
  medium := ths.countP fun th => th.severity == .medium
  low := ths.countP fun th => th.severity == .low

theorem tally_repeated (repeats : Repeats ths more extra) :
    tally more = (tally ths).plus (tally extra) := by
  simp only [tally, Breakdown.plus, repeats.countP, Nat.cast_add]

theorem total_tally (ths : List ModelThreat) : (tally ths).total = ths.length := by
  induction ths with
  | nil => rfl
  | cons th tl ih =>
    simp only [tally, Breakdown.total, countP_cons, length_cons] at ih ⊢
    cases th.severity <;> simp <;> omega

theorem tally_eq_zero_iff : tally ths = {} ↔ ths = [] := by
  constructor
  · intro none
    have length := total_tally ths
    rw [none] at length
    exact eq_nil_of_length_eq_zero (Int.ofNat.inj length.symm)
  · rintro rfl
    rfl

def riskOf (counts : Breakdown) : Risk :=
  { breakdown := counts, threats := counts.total }

theorem assessCounts_toValue (counts : Breakdown) :
    assessCounts counts.toValue = .ok (riskOf counts) :=
  rfl

theorem riskOf_toValue_injective {counts others : Breakdown}
    (hs : (riskOf counts).toValue = (riskOf others).toValue) : counts = others := by
  simp only [riskOf, Risk.toValue, Breakdown.toValue, Value.record.injEq, List.cons.injEq,
    Prod.mk.injEq, Value.int.injEq] at hs
  obtain ⟨_, _, _, ⟨_, ⟨_, critical⟩, ⟨_, high⟩, ⟨_, medium⟩, ⟨_, low⟩, _⟩, _⟩ := hs
  cases counts
  cases others
  cases critical
  cases high
  cases medium
  cases low
  rfl

def statedCount (sum : Value) (sev : Severity) : Outcome Int := do
  (← sum.getD (sev.name ++ "_count") (.int 0)).toInteger

theorem combinedCounts_eq (sum : Value) (ths : List ModelThreat) :
    Analysis.combinedCounts sum ths = (do
      let critical ← statedCount sum .critical let high ← statedCount sum .high
      let medium ← statedCount sum .medium let low ← statedCount sum .low
      return (Breakdown.plus { critical, high, medium, low } (tally ths)).toValue) := by
  simp only [Analysis.combinedCounts, mapM_cons, mapM_nil, statedCount, bind_assoc,
    pure_bind, Breakdown.plus, Breakdown.toValue, tally, countP_eq_length_filter, Severity.name]

theorem exists_stated {sum counts : Value} (hc : Analysis.combinedCounts sum ths = .ok counts) :
    ∃ stated : Breakdown, ∀ others : List ModelThreat,
      Analysis.combinedCounts sum others = .ok (stated.plus (tally others)).toValue := by
  rw [combinedCounts_eq] at hc
  obtain ⟨critical, h1, hc⟩ := bind_eq_ok.mp hc
  obtain ⟨high, h2, hc⟩ := bind_eq_ok.mp hc
  obtain ⟨medium, third, hc⟩ := bind_eq_ok.mp hc
  obtain ⟨low, fourth, _⟩ := bind_eq_ok.mp hc
  refine ⟨{ critical, high, medium, low }, fun others => ?_⟩
  rw [combinedCounts_eq, bind_ok h1, bind_ok h2, bind_ok third, bind_ok fourth]
  rfl

end SourceAudit.Agent
