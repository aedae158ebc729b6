import SourceAudit.Proofs.TreeReachability
import Mathlib

/-!
# Sums carry no taint

A command is often put together by adding texts. Taint goes from path to path by plain copies only:
an assignment whose data is a sum taints nothing, whatever the terms of the sum are.
-/

open List

set_option linter.dupNamespace false

namespace SourceAudit.Tree

/-! ## Sums and their terms -/

namespace Tree

def isSum (t : Tree) : Bool :=
  t.isKind .binary && (t.part "op").isKind (.other "Add")

def assignsSum (nd : Tree) : Bool :=
  nd.isKind .assign && (nd.part "value").isSum

inductive HasTerm : Tree → Tree → Prop where
  | left {sum : Tree} (adds : sum.isSum = true) : HasTerm sum (sum.part "left")
  | right {sum : Tree} (adds : sum.isSum = true) : HasTerm sum (sum.part "right")
  | inLeft {sum term : Tree} (adds : sum.isSum = true) (hi : HasTerm (sum.part "left") term) :
      HasTerm sum term
  | inRight {sum term : Tree} (adds : sum.isSum = true) (hi : HasTerm (sum.part "right") term) :
      HasTerm sum term

theorem HasTerm.isSum {sum term : Tree} (has : HasTerm sum term) : sum.isSum = true := by
  cases has with
  | left adds => exact adds
  | right adds => exact adds
  | inLeft adds _ => exact adds
  | inRight adds _ => exact adds

variable {t : Tree}

theorem kind?_of_isSum (adds : t.isSum = true) : t.kind? = some .binary := by
  have binary : t.isKind .binary = true := (Bool.and_eq_true_iff.mp adds).1
  simpa [isKind] using binary

theorem namedPath?_of_isSum (adds : t.isSum = true) : t.namedPath? = none := by
  rw [namedPath?, path?, kind?_of_isSum adds]
  rfl

theorem isSource_of_isSum (adds : t.isSum = true) : isSource t = false := by
  rw [isSource, kind?_of_isSum adds]

end Tree

/-! ## Chains of copies -/

inductive CopyChain (t : Tree) : List Place → String → Prop where
  | source {pl : Place} {asg : Tree} {p : String}
      (hh : t.at? pl = some asg) (assigns : asg.Assigns p)
      (data : isSource (asg.part "value") = true) :
      CopyChain t [pl] p
  | copied {pl earlier : Place} {before : List Place} {asg : Tree} {p other : String}
      (hh : t.at? pl = some asg) (assigns : asg.Assigns p)
      (data : (asg.part "value").namedPath? = some other) (precedes : earlier < pl)
      (chain : CopyChain t (earlier :: before) other) :
      CopyChain t (pl :: earlier :: before) p

variable {t : Tree}

theorem taintedAt_iff_copyChain {pl : Place} {p : String} :
    TaintedAt t pl p ↔ ∃ before, CopyChain t (pl :: before) p := by
  constructor
  · intro tainted
    induction tainted with
    | source hh assigns data => exact ⟨[], .source hh assigns data⟩
    | copied hh assigns data precedes _ ih =>
      obtain ⟨before, chain⟩ := ih
      exact ⟨_, .copied hh assigns data precedes chain⟩
  · rintro ⟨before, chain⟩
    generalize places : pl :: before = all at chain
    induction chain generalizing pl before with
    | source hh assigns data =>
      cases places
      exact .source hh assigns data
    | copied hh assigns data precedes _ ih =>
      cases places
      exact .copied hh assigns data precedes (ih _ rfl)

theorem CopyChain.not_assignsSum {pls : List Place} {p : String} (chain : CopyChain t pls p) :
    ∀ pl ∈ pls, ∀ nd, t.at? pl = some nd → nd.assignsSum = false := by
  -- the data of a link is a source or names a path, and a sum does neither
  have hp {nd : Tree} (ho : (nd.part "value").isSum = false) : nd.assignsSum = false := by
    rw [Tree.assignsSum, ho, Bool.and_false]
  induction chain with
  | source hh assigns data =>
    intro pl hm nd ht
    rw [mem_singleton.mp hm, hh] at ht
    cases ht
    refine hp ?_
    by_contra adds
    rw [Tree.isSource_of_isSum (by simpa using adds)] at data
    exact absurd data Bool.false_ne_true
  | copied hh assigns data precedes _ ih =>
    intro pl hm nd ht
    rcases mem_cons.mp hm with rfl | earlier
    · rw [hh] at ht
      cases ht
      refine hp ?_
      by_contra adds
      rw [Tree.namedPath?_of_isSum (by simpa using adds)] at data
      cases data
    · exact ih pl earlier nd ht

def CopiedInto (t : Tree) (use : Use) (call : Tree) : Prop :=
  ∃ sink arg, Given t use sink call arg ∧
    (isSource arg = true ∨ ∃ p last before, arg.namedPath? = some p ∧ last < use.call ∧
        CopyChain t (last :: before) p)

theorem reached_iff_copiedInto {use : Use} : Reached t use ↔ ∃ call, CopiedInto t use call := by
  simp only [Reached, CopiedInto, TaintedBefore, taintedAt_iff_copyChain]
  constructor
  · rintro ⟨sink, call, arg, given, source | ⟨p, hn, last, precedes, before, chain⟩⟩
    · exact ⟨call, sink, arg, given, Or.inl source⟩
    · exact ⟨call, sink, arg, given, Or.inr ⟨p, last, before, hn, precedes, chain⟩⟩
  · rintro ⟨call, sink, arg, given, source | ⟨p, last, before, hn, precedes, chain⟩⟩
    · exact ⟨sink, call, arg, given, Or.inl source⟩
    · exact ⟨sink, call, arg, given, Or.inr ⟨p, hn, last, precedes, before, chain⟩⟩

theorem exists_related_of_mem {α β : Type} {relation : α → β → Prop} {l : List α}
    {r : List β} (related : Forall₂ relation l r) {x : α} (hm : x ∈ l) :
    ∃ partner ∈ r, relation x partner := by
  induction related with
  | nil => cases hm
  | cons holds _ ih =>
    rcases mem_cons.mp hm with rfl | later
    · exact ⟨_, mem_cons_self, holds⟩
    · obtain ⟨partner, hi, also⟩ := ih later
      exact ⟨partner, mem_cons_of_mem _ hi, also⟩

theorem exists_flow_iff_copiedInto {line : Value} :
    (∃ fl ∈ flowsOf t, fl.sinkLine = line) ↔
      ∃ use call, CopiedInto t use call ∧ call.lineValue = line := by
  obtain ⟨uses, _, mem_iff, described⟩ := (tracks_walk t).flowsAlong (suffix_refl t.walk)
  rw [Tree.map_snd_walk] at described
  -- both ways the call is the one at the place of the use
  have same_call {use : Use} {call other arg otherArgument : Tree} {sink otherSink : String}
      (given : Given t use sink call arg)
      (also : Given t use otherSink other otherArgument) : call = other :=
    Option.some.inj (given.here.symm.trans also.here)
  constructor
  · rintro ⟨fl, hm, rfl⟩
    obtain ⟨use, hl, call, arg, given, _, line, _⟩ := exists_related_of_mem described.flip hm
    obtain ⟨other, copied⟩ := reached_iff_copiedInto.mp ((mem_iff use).mp hl).2
    refine ⟨use, other, copied, ?_⟩
    obtain ⟨_, _, also, _⟩ := copied
    rw [line, same_call given also]
  · rintro ⟨use, call, copied, rfl⟩
    have reached : Reached t use := reached_iff_copiedInto.mpr ⟨call, copied⟩
    obtain ⟨sink, arg, given, _⟩ := copied
    have hk : call.IsNode := Tree.isNode_of_isKind given.calls
    have hl : use ∈ uses :=
      (mem_iff use).mpr ⟨⟨call, Tree.mem_walk_iff.mpr ⟨given.here, hk⟩⟩, reached⟩
    obtain ⟨fl, hm, other, _, also, _, line, _⟩ := exists_related_of_mem described hl
    exact ⟨fl, hm, by rw [line, same_call also given]⟩

/-! ## The walk without sums -/

theorem flowsAlong_filter {kept : Tree → Bool} (inert : ∀ nd, kept nd = false → ∀ tainted : Tainted,
      afterNode tainted nd = tainted ∧ flowsAt tainted nd = [])
    (tainted : Tainted) (nodes : List Tree) :
    flowsAlong tainted (nodes.filter kept) = flowsAlong tainted nodes := by
  induction nodes generalizing tainted with
  | nil => rfl
  | cons nd tl ih =>
    cases keeps : kept nd with
    | true =>
      rw [filter_cons_of_pos keeps, flowsAlong, flowsAlong, ih]
    | false =>
      obtain ⟨untouched, none⟩ := inert nd keeps tainted
      rw [filter_cons_of_neg (by simp [keeps]), flowsAlong, untouched, none,
        nil_append, ih]

theorem inert_of_assignsSum {nd : Tree} (assigns : nd.assignsSum = true) (tainted : Tainted) :
    afterNode tainted nd = tainted ∧ flowsAt tainted nd = [] := by
  obtain ⟨assignment, adds⟩ := Bool.and_eq_true_iff.mp assigns
  have kind : nd.kind? = some .assign := by simpa [Tree.isKind] using assignment
  have clean : taints tainted (nd.part "value") = false := by
    rw [taints, Tree.isSource_of_isSum adds, Tree.namedPath?_of_isSum adds]
    rfl
  constructor
  · rw [afterNode, clean, Bool.and_false, if_neg Bool.false_ne_true]
  · rw [flowsAt, Tree.isKind, kind, if_neg (by decide)]

theorem flowsOf_eq_without_sums (t : Tree) :
    flowsOf t = flowsAlong [] (t.preorder.filter fun node => !node.assignsSum) := by
  refine (flowsAlong_filter (fun node dropped tainted => ?_) [] t.preorder).symm
  exact inert_of_assignsSum (by simpa using dropped) tainted

/-! ## Flows through sums -/

structure ThroughSum (tree : Tree) (origin sum : Place) (first second : String) (use : Use)
    (call : Tree) : Prop where
  source : ∃ assignment, tree.at? origin = some assignment ∧ assignment.Assigns first ∧
    isSource (assignment.part "value") = true
  addition : ∃ assignment term, tree.at? sum = some assignment ∧ assignment.Assigns second ∧
    (assignment.part "value").HasTerm term ∧ term.namedPath? = some first
  given : ∃ sink argument, Given tree use sink call argument ∧ argument.namedPath? = some second
  added : origin < sum
  used : sum < use.call

/--
Where a sum leads from a source to a dangerous call, a flow into the line of the call is reported
exactly when some call on that line holds a source or is reached by a chain of copies.  The sum is
in no chain of copies, and the flows are those of a walk that leaves out all assignments of sums.
-/
theorem flow_through_sum_iff_copied {tree : Tree} {origin sum : Place} {first second : String}
    {use : Use} {call : Tree} (through : ThroughSum tree origin sum first second use call) :
    ((∃ flow ∈ flowsOf tree, flow.sinkLine = call.lineValue) ↔
        ∃ other otherCall, CopiedInto tree other otherCall ∧ otherCall.lineValue = call.lineValue) ∧
      (∀ places path, CopyChain tree places path → sum ∉ places) ∧
        flowsOf tree = flowsAlong [] (tree.preorder.filter fun node => !node.assignsSum) := by
  refine ⟨exists_flow_iff_copiedInto, ?_, flowsOf_eq_without_sums tree⟩
  intro places path chain member
  obtain ⟨assignment, term, here, assigns, has, _⟩ := through.addition
  have adds : assignment.assignsSum = true := by
    rw [Tree.assignsSum, assigns.1, has.isSum]
    rfl
  have plain := chain.not_assignsSum sum member assignment here
  exact absurd (plain.symm.trans adds) Bool.false_ne_true

/-! ### A command that is put together -/

def nameOn (ln : Int) (identifier : String) : Tree :=
  .node .name [("id", .leaf (.text identifier))] (some ln) none

def attributeOn (ln : Int) (base member : String) : Tree :=
  let parts := [("value", nameOn ln base), ("attr", .leaf (.text member))]
  .node .attribute parts (some ln) none

def assignmentOn (ln : Int) (tgt : String) (data : Tree) : Tree :=
  .node .assign [("targets", .list [nameOn ln tgt]), ("value", data)] (some ln) none

def commandCall : Tree :=
  .node .call [("func", attributeOn 3 "os" "system"), ("args", .list [nameOn 3 "cmd"]),
    ("keywords", .list [])] (some 3) none

def commandProgram : Tree :=
  .node (.other "Module")
    [("body", .list [assignmentOn 1 "word" (.node .subscript [("value", attributeOn 1 "sys" "argv"),
            ("slice", .node .constant [("value", .leaf (.int 1))] (some 1) none)] (some 1) none),
        assignmentOn 2 "cmd" (.node .binary
          [("left", .node .constant [("value", .leaf (.text "echo "))] (some 2) none),
            ("op", .node (.other "Add") [] none none), ("right", nameOn 2 "word")] (some 2) none),
        .node (.other "Expr") [("value", commandCall)] (some 3) none])] none none

/-- The sum leads from the argument to the call, and no flow is reported. -/
theorem commandProgram_has_no_flow :
    ThroughSum commandProgram [0, 0] [0, 1] "word" "cmd" ⟨[0, 2, 0], 0⟩ commandCall ∧
      flowsOf commandProgram = [] := by
  have through : ThroughSum commandProgram [0, 0] [0, 1] "word" "cmd" ⟨[0, 2, 0], 0⟩ commandCall :=
    { source := ⟨_, rfl, ⟨by decide, _, List.mem_singleton_self _, rfl⟩, by decide⟩
      addition := ⟨_, _, rfl, ⟨by decide, _, List.mem_singleton_self _, rfl⟩, .right (by decide), rfl⟩
      given := ⟨"os.system", _, ⟨rfl, by decide, by decide, rfl⟩, rfl⟩
      added := by decide
      used := by decide }
  refine ⟨through, ?_⟩
  rw [(flow_through_sum_iff_copied through).2.2]
  rfl

end SourceAudit.Tree
