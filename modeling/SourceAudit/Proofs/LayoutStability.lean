import SourceAudit.Proofs.LogDelivery
import SourceAudit.Proofs.TaintReachability

/-!
# Taint and the layout of a source

Taint analysis by lines goes by what the lines say and not by where they stand.
-/

open List

namespace SourceAudit.Text

theorem splitNewlineFrom_append (ln pre t : List Char) :
    splitNewlineFrom ln (pre ++ '\n' :: t) = splitNewlineFrom ln pre ++ splitNewline t := by
  induction pre generalizing ln with
  | nil =>
    show splitNewlineFrom ln ('\n' :: t) = [ln.reverse] ++ splitNewline t
    rw [splitNewlineFrom, if_pos rfl]
    rfl
  | cons c pre ih =>
    rw [cons_append, splitNewlineFrom, splitNewlineFrom]
    split_ifs
    · rw [ih, cons_append]
    · exact ih (c :: ln)

theorem splitNewline_append (pre t : List Char) :
    splitNewline (pre ++ '\n' :: t) = splitNewline pre ++ splitNewline t :=
  splitNewlineFrom_append [] pre t

end SourceAudit.Text

namespace SourceAudit.Source

open Outside

/-! ## Comments -/

theorem dropBlocks_nil (inside : Bool) : dropBlocks inside [] = ([], inside) := by
  cases inside <;> rw [dropBlocks] <;> rfl

theorem stripFrom_empty_cons (inside : Bool) (ls : List (List Char)) :
    stripFrom inside ([] :: ls) = [] :: stripFrom inside ls := by
  rw [stripFrom, dropBlocks_nil]
  rfl

theorem stripFrom_insertIdx (inside : Bool) (pos : Nat) (ls : List (List Char)) :
    stripFrom inside (ls.insertIdx pos []) = (stripFrom inside ls).insertIdx pos [] := by
  induction pos generalizing inside ls with
  | zero =>
    rw [insertIdx_zero, insertIdx_zero]
    exact stripFrom_empty_cons inside ls
  | succ pos ih =>
    cases ls with
    | nil => rfl
    | cons ln tl =>
      show _ :: stripFrom _ (tl.insertIdx pos []) = _ :: List.insertIdx _ pos []
      rw [ih]

theorem stripFrom_isPrefix {pre ls : List (List Char)} (begins : pre <+: ls)
    (inside : Bool) : stripFrom inside pre <+: stripFrom inside ls := by
  induction pre generalizing inside ls with
  | nil => exact nil_prefix
  | cons ln pre ih =>
    rcases begins with ⟨tl, rfl⟩
    rw [cons_append, stripFrom, stripFrom]
    apply cons_prefix_cons.mpr
    exact ⟨rfl, ih (prefix_append pre tl) _⟩

theorem stripFrom_concat_empty (inside : Bool) (ls : List (List Char)) :
    stripFrom inside (ls ++ [[]]) = stripFrom inside ls ++ [[]] := by
  induction ls generalizing inside with
  | nil => exact stripFrom_empty_cons inside []
  | cons ln tl ih =>
    show _ :: stripFrom _ (tl ++ [[]]) = _ :: (_ ++ [[]])
    rw [ih]

/-! ## Other numbers for the same lines -/

def Origin.renumber (n : Nat → Nat) (origin : Origin) : Origin :=
  { origin with line := n origin.line }

def Environment.renumber (n : Nat → Nat) (env : Environment) : Environment :=
  env.map fun e => (e.1, e.2.renumber n)

def LineFlow.renumber (n : Nat → Nat) (fl : LineFlow) : LineFlow :=
  { fl with origin := fl.origin.renumber n, sink := fl.sink.renumber n }

section Renumbering

variable {n : Nat → Nat} {env : Environment}

namespace Environment

theorem taint_renumber (nm : List Char) (origin : Origin) :
    taint (env.renumber n) nm (origin.renumber n) = (taint env nm origin).renumber n := by
  induction env with
  | nil => rfl
  | cons e tl ih =>
    show taint ((e.1, e.2.renumber n) :: renumber n tl) _ _ = _
    rw [taint, taint]
    split_ifs
    · rfl
    · rw [ih]
      rfl

theorem taintAll_renumber (nms : List (List Char)) (origin : Origin) :
    taintAll (env.renumber n) nms (origin.renumber n) = (taintAll env nms origin).renumber n := by
  induction nms generalizing env with
  | nil => rfl
  | cons nm tl ih =>
    show taintAll (taint (env.renumber n) nm _) tl _ = _
    rw [taint_renumber]
    exact ih

theorem origin?_renumber (t : List Char) :
    origin? (env.renumber n) t = (origin? env t).map (Origin.renumber n) := by
  rw [origin?, origin?, renumber, find?_map, Option.map_map, Option.map_map]
  rfl

end Environment

namespace TaintRules

variable (rs : TaintRules) (pl : Origin)

theorem step_renumber :
    rs.step (env.renumber n) (pl.renumber n) = (rs.step env pl).renumber n := by
  have code : (pl.renumber n).code = pl.code := rfl
  rw [step, step, code]
  cases rs.assignment? pl.code with
  | none => rfl
  | some asg =>
    dsimp only
    split_ifs
    · rfl
    · exact Environment.taintAll_renumber asg.targets pl
    · rw [Environment.origin?_renumber]
      cases env.origin? asg.value with
      | none => rfl
      | some origin => exact Environment.taintAll_renumber asg.targets origin

theorem isDirect_renumber (injective : n.Injective) (fl : LineFlow) :
    (fl.renumber n).isDirect = fl.isDirect := by
  have hs : (n fl.origin.line == n fl.sink.line) = (fl.origin.line == fl.sink.line) := by
    rw [Bool.eq_iff_iff, beq_iff_eq, beq_iff_eq]
    exact injective.eq_iff
  show (fl.carrier == LineFlow.direct && (n fl.origin.line == n fl.sink.line)) = _
  rw [hs]
  rfl

theorem flowsAt_renumber (injective : n.Injective) :
    rs.flowsAt (env.renumber n) (pl.renumber n) =
      (rs.flowsAt env pl).map (LineFlow.renumber n) := by
  have code : (pl.renumber n).code = pl.code := rfl
  rw [flowsAt, flowsAt, code]
  cases rs.sink? pl.code with
  | none => rfl
  | some hit =>
    dsimp only
    rw [map_append]
    congr 1
    · split_ifs <;> rfl
    · rw [Environment.renumber, filter_map, filter_map, filter_map, filter_map, map_map, map_map]
      apply congrArg
      apply filter_congr
      intro e _
      show (!(LineFlow.renumber n ⟨e.2, pl, e.1, hit.1, hit.2⟩).isDirect) = _
      rw [isDirect_renumber injective]
      rfl

theorem flowsFrom_cons_renumber (injective : n.Injective) {start later : Nat}
    (ht : n start = later) (ln : List Char) {ls edited : List (List Char)}
    (behind : ∀ env : Environment, rs.flowsFrom (env.renumber n) (later + 1) edited =
        (rs.flowsFrom env (start + 1) ls).map (LineFlow.renumber n)) :
    rs.flowsFrom (env.renumber n) later (ln :: edited) =
      (rs.flowsFrom env start (ln :: ls)).map (LineFlow.renumber n) := by
  subst ht
  rw [flowsFrom, flowsFrom]
  dsimp only
  split_ifs
  · exact behind env
  · rw [map_append, ← flowsAt_renumber _ _ injective, ← behind, ← step_renumber]
    rfl

theorem flowsFrom_renumber (injective : n.Injective) (ls : List (List Char))
    {start later : Nat} (shift : ∀ k, n (start + k) = later + k) :
    rs.flowsFrom (env.renumber n) later ls =
      (rs.flowsFrom env start ls).map (LineFlow.renumber n) := by
  induction ls generalizing env start later with
  | nil => rfl
  | cons ln tl ih =>
    apply flowsFrom_cons_renumber rs injective (shift 0)
    intro env
    apply ih
    intro k
    have hs : start + 0 + 1 + k = start + (k + 1) := by omega
    rw [hs, shift]
    omega

theorem flowsFrom_empty_cons (start : Nat) (ls : List (List Char)) :
    rs.flowsFrom env start ([] :: ls) = rs.flowsFrom env (start + 1) ls :=
  rfl

theorem flowsFrom_insertIdx (injective : n.Injective) (pos : Nat)
    (ls : List (List Char)) {start : Nat} (before : ∀ k < pos, n (start + k) = start + k)
    (behind : ∀ k, n (start + pos + k) = start + pos + k + 1) :
    rs.flowsFrom (env.renumber n) start (ls.insertIdx pos []) =
      (rs.flowsFrom env start ls).map (LineFlow.renumber n) := by
  induction pos generalizing env start ls with
  | zero =>
    rw [insertIdx_zero, flowsFrom_empty_cons]
    apply flowsFrom_renumber rs injective
    intro k
    rw [Nat.add_right_comm]
    exact behind k
  | succ pos ih =>
    cases ls with
    | nil => rfl
    | cons ln tl =>
      apply flowsFrom_cons_renumber rs injective (before 0 (Nat.succ_pos pos))
      intro env
      apply ih
      · intro k earlier
        rw [Nat.add_assoc, Nat.add_comm 1]
        exact before (k + 1) (Nat.succ_lt_succ earlier)
      · intro k
        have hs : start + 0 + 1 + pos = start + (pos + 1) := by omega
        rw [hs]
        exact behind k

end TaintRules

end Renumbering

/-! ## Lines at the end -/

namespace TaintRules

variable (rs : TaintRules)

theorem flowsFrom_isPrefix {pre ls : List (List Char)} (begins : pre <+: ls)
    (env : Environment) (start : Nat) :
    rs.flowsFrom env start pre <+: rs.flowsFrom env start ls := by
  induction pre generalizing env start ls with
  | nil => exact nil_prefix
  | cons ln pre ih =>
    rcases begins with ⟨tl, rfl⟩
    have further := ih (prefix_append pre tl)
    rw [cons_append, flowsFrom, flowsFrom]
    dsimp only
    split_ifs
    · exact further env (start + 1)
    · apply (prefix_append_right_inj _).mpr
      exact further _ (start + 1)

theorem flowsFrom_concat_empty (env : Environment) (start : Nat) (ls : List (List Char)) :
    rs.flowsFrom env start (ls ++ [[]]) = rs.flowsFrom env start ls := by
  induction ls generalizing env start with
  | nil => rfl
  | cons ln tl ih =>
    rw [cons_append, flowsFrom, flowsFrom]
    dsimp only
    rw [ih, ih]

end TaintRules

/-! ## Edits of a file -/

def sourceLines (t : String) : List (List Char) :=
  Text.splitNewline (Audit.unify t).toList

theorem TaintRules.flows_unify (rs : TaintRules) (t : String) :
    rs.flows (Audit.unify t).toList = rs.flowsFrom [] 1 (stripLines (sourceLines t)) :=
  rfl

theorem exists_sourceLines_isPrefix (t tl : String) :
    ∃ pre, pre <+: sourceLines (t ++ "\n" ++ tl) ∧
      (sourceLines t = pre ∨ sourceLines t = pre ++ [[]]) := by
  rcases Text.exists_unifyNewlines_ended t.toList with ⟨unified, he, before⟩
  have lines : sourceLines (t ++ "\n" ++ tl) =
      Text.splitNewline unified ++ Text.splitNewline (Text.unifyNewlines tl.toList) := by
    have longer : (t ++ "\n" ++ tl).toList = t.toList ++ '\n' :: tl.toList := by simp
    rw [sourceLines, Audit.unify, String.toList_ofList, longer, Text.unifyNewlines_append, he,
      append_assoc, ← Text.splitNewline_append]
    rfl
  refine ⟨Text.splitNewline unified, ⟨_, lines.symm⟩, ?_⟩
  rw [sourceLines, Audit.unify, String.toList_ofList]
  rcases before with before | before
  · exact Or.inl (by rw [before])
  · right
    rw [before, Text.splitNewline_append]
    rfl

theorem TaintRules.flows_isPrefix (rs : TaintRules) (t tl : String) :
    rs.flows (Audit.unify t).toList <+: rs.flows (Audit.unify (t ++ "\n" ++ tl)).toList := by
  rw [flows_unify, flows_unify]
  rcases exists_sourceLines_isPrefix t tl with ⟨pre, begins, hs | he⟩
  · rw [hs]
    exact rs.flowsFrom_isPrefix (stripFrom_isPrefix begins false) [] 1
  · rw [he, stripLines, stripFrom_concat_empty, flowsFrom_concat_empty]
    exact rs.flowsFrom_isPrefix (stripFrom_isPrefix begins false) [] 1

def pushed (pos n : Nat) : Nat :=
  if pos < n then n + 1 else n

theorem pushed_injective (pos : Nat) : (pushed pos).Injective := by
  intro a b hs
  rw [pushed, pushed] at hs
  split_ifs at hs <;> omega

theorem pushed_of_le {pos n : Nat} (early : n ≤ pos) : pushed pos n = n :=
  if_neg (Nat.not_lt.mpr early)

theorem pushed_of_lt {pos n : Nat} (late : pos < n) : pushed pos n = n + 1 := if_pos late

theorem TaintRules.flows_insertIdx (rs : TaintRules) {t edited : String} {pos : Nat}
    (edit : sourceLines edited = (sourceLines t).insertIdx pos []) :
    rs.flows (Audit.unify edited).toList =
      (rs.flows (Audit.unify t).toList).map (LineFlow.renumber (pushed pos)) := by
  rw [flows_unify, flows_unify, edit, stripLines, stripFrom_insertIdx]
  apply @flowsFrom_insertIdx (pushed pos) [] rs (pushed_injective pos)
  · intro k earlier
    exact pushed_of_le (by omega)
  · intro k
    exact pushed_of_lt (by omega)

def LineFlow.reportAs (n : Nat → Nat) (fl : LineFlow) : Value :=
  let source := n fl.origin.line
  let sink := n fl.sink.line
  let desc :=
    if fl.isDirect then s!"Taint source on line {source} flows to sink on line {sink}"
    else s!"Taint data from line {source} flows to sink at line {sink}"
  .record [("source_line", .ofNat source), ("source_code", .text (String.ofList fl.origin.code)),
    ("sink_line", .ofNat sink), ("sink_code", .text (String.ofList fl.sink.code)),
    ("rule_id", .text fl.rule.id), ("rule_name", .text fl.rule.name),
    ("severity", .text fl.rule.severity), ("line", .ofNat sink),
    ("matched_text", .text fl.found), ("description", .text desc)]

theorem LineFlow.toValue_renumber {n : Nat → Nat} (injective : n.Injective)
    (fl : LineFlow) : (fl.renumber n).toValue = fl.reportAs n := by
  rw [toValue, TaintRules.isDirect_renumber injective, reportAs]
  rfl

theorem perform_readStrict {what p t : String} {s : Session}
    (holds : s.Holds p (Text.Utf8.encode t)) (opens : s.Opens p) :
    (readStrict what p).perform s = (.ok (Audit.unify t), s) := by
  rw [readStrict, Audit.perform_attempt_bind (Audit.perform_readText holds opens)]
  rfl

namespace Dialect

/--
Taint analysis is stable under edits of the layout.  A file that can be read has flows.  A file
that has one empty line more, behind the first `position` lines, has the same flows in the same
order, and their reports differ in the numbers of the lines behind the empty one, which grow by one.
A file that goes on after a line feed has the flows first, with the same numbers.
-/
theorem taintFlows_stable_under_layout (dialect : Dialect) {path text : String} {session : Session}
    (holds : session.Holds path (Text.Utf8.encode text)) (opens : session.Opens path) :
    ∃ flows, (dialect.taintFlows path).perform session = (.ok flows, session) ∧
        (∀ (position : Nat) (edited other : String) (later : Session),
          sourceLines edited = (sourceLines text).insertIdx position [] →
          later.Holds other (Text.Utf8.encode edited) → later.Opens other →
            ∃ moved, (dialect.taintFlows other).perform later = (.ok moved, later) ∧
              moved.map LineFlow.toValue = flows.map (LineFlow.reportAs (pushed position))) ∧
          ∀ (rest other : String) (later : Session),
            later.Holds other (Text.Utf8.encode (text ++ "\n" ++ rest)) → later.Opens other →
              ∃ longer, (dialect.taintFlows other).perform later = (.ok longer, later) ∧
                flows <+: longer := by
  refine ⟨_, dialect.perform_taintFlows (perform_readStrict holds opens), ?_, ?_⟩
  · intro position edited other later edit holds opens
    refine ⟨_, dialect.perform_taintFlows (perform_readStrict holds opens), ?_⟩
    rw [dialect.taintRules.flows_insertIdx edit, List.map_map]
    apply List.map_congr_left
    intro flow _
    exact flow.toValue_renumber (pushed_injective position)
  · intro rest other later holds opens
    refine ⟨_, dialect.perform_taintFlows (perform_readStrict holds opens), ?_⟩
    exact dialect.taintRules.flows_isPrefix text rest

def handed : String := "x := os.Args[1]\nexec.Command(x)"

def handedApart : String := "x := os.Args[1]\n\nexec.Command(x)"

def written (t : String) : Session :=
  .holding "m.go" (Text.Utf8.encode t)

theorem written_holds (t : String) : (written t).Holds "m.go" (Text.Utf8.encode t) := by
  have parts : Audit.key (written t) "m.go" = ["W", "m.go"] := by
    show Path.parts (Path.absolute "/W" "m.go") = ["W", "m.go"]
    decide +kernel
  apply Session.holds_iff.mpr
  refine ⟨by decide, by decide, by decide, ?_⟩
  rw [parts]
  exact Store.at?_put (cons_ne_nil "W" ["m.go"])

theorem written_opens (t : String) : (written t).Opens "m.go" := rfl

theorem taintFlows_stable_of_handed :
    sourceLines handedApart = (sourceLines handed).insertIdx 1 [] ∧
      ∃ flows, (Go.taintFlows "m.go").perform (written handed) = (.ok flows, written handed) ∧
          (∃ moved, (Go.taintFlows "m.go").perform (written handedApart) =
              (.ok moved, written handedApart) ∧
            moved.map LineFlow.toValue = flows.map (LineFlow.reportAs (pushed 1))) ∧
            ∃ longer, (Go.taintFlows "m.go").perform (written (handed ++ "\n" ++ handed)) =
                (.ok longer, written (handed ++ "\n" ++ handed)) ∧ flows <+: longer := by
  have edit : sourceLines handedApart = (sourceLines handed).insertIdx 1 [] := by decide +kernel
  rcases Dialect.go.taintFlows_stable_under_layout (written_holds handed) (written_opens handed)
    with ⟨flows, performed, inserted, continued⟩
  refine ⟨edit, flows, performed, ?_, ?_⟩
  · exact inserted 1 handedApart "m.go" _ edit (written_holds _) (written_opens _)
  · exact continued handed "m.go" _ (written_holds _) (written_opens _)

end Dialect

end SourceAudit.Source
