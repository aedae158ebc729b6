import SourceAudit.Tree.Taint
import Mathlib

/-!
# Taint in trees is reachability

The analysis of a tree walks along its nodes and carries the tainted paths with it.
-/

open List Option

set_option linter.dupNamespace false

namespace SourceAudit.Tree

/-! ## Places -/

abbrev Place := List Nat

namespace Tree

def children : Tree → List Tree
  | .node _ parts _ _ => parts.map Prod.snd
  | .list xs => xs
  | .leaf _ => []

def at? : Tree → Place → Option Tree
  | t, [] => some t
  | t, n :: tl => t.children[n]?.bind fun child => child.at? tl

def IsNode (t : Tree) : Prop :=
  t.kind?.isSome = true

theorem isNode_of_isKind {t : Tree} {k : NodeKind} (hk : t.isKind k = true) : t.IsNode := by
  have hs : t.kind? = some k := by simpa [isKind] using hk
  simp [IsNode, hs]

theorem children_induction {motive : Tree → Prop}
    (step : ∀ tree : Tree, (∀ child ∈ tree.children, motive child) → motive tree) (tree : Tree) :
    motive tree := by
  apply step
  intro child member
  exact children_induction step child
termination_by sizeOf tree
decreasing_by cases tree with
  | node kind parts line column =>
    obtain ⟨part, inside, rfl⟩ := List.mem_map.mp member
    have smaller := sizeOf_lt_of_mem inside
    have pair : sizeOf part = 1 + sizeOf part.1 + sizeOf part.2 := rfl
    simp only [node.sizeOf_spec]
    omega
  | list items =>
    have inside : child ∈ items := member
    have smaller := sizeOf_lt_of_mem inside
    simp only [list.sizeOf_spec]
    omega
  | leaf value => cases member

/-! ## The nodes with their places -/

def inPart (n : Nat) (e : Place × Tree) : Place × Tree :=
  (n :: e.1, e.2)

mutual

def walk : Tree → List (Place × Tree)
  | .node k parts ln col => ([], .node k parts ln col) :: walkParts 0 parts
  | .list xs => walkItems 0 xs
  | .leaf _ => []

def walkParts (n : Nat) : List (String × Tree) → List (Place × Tree)
  | [] => []
  | (_, part) :: tl => (walk part).map (inPart n) ++ walkParts (n + 1) tl

def walkItems (n : Nat) : List Tree → List (Place × Tree)
  | [] => []
  | x :: tl => (walk x).map (inPart n) ++ walkItems (n + 1) tl

end

def root (t : Tree) : List (Place × Tree) :=
  if t.kind?.isSome then [([], t)] else []

theorem walkParts_eq (n : Nat) (parts : List (String × Tree)) :
    walkParts n parts = walkItems n (parts.map Prod.snd) := by
  induction parts generalizing n with
  | nil => rfl
  | cons part tl ih =>
    rw [walkParts, ih, map_cons, walkItems]

theorem preorderParts_eq (parts : List (String × Tree)) :
    preorderParts parts = preorderItems (parts.map Prod.snd) := by
  induction parts with
  | nil => rfl
  | cons part tl ih =>
    rw [preorderParts, ih, map_cons, preorderItems]

theorem walk_eq (t : Tree) : t.walk = t.root ++ walkItems 0 t.children := by
  cases t with
  | node k parts ln col => rw [walk, walkParts_eq]; rfl
  | list xs => rfl
  | leaf v => rfl

theorem preorder_eq (t : Tree) : t.preorder = t.root.map Prod.snd ++ preorderItems t.children := by
  cases t with
  | node k parts ln col => rw [preorder, preorderParts_eq]; rfl
  | list xs => rfl
  | leaf v => rfl

variable {pl : Place}

theorem mem_root_iff {t nd : Tree} : (pl, nd) ∈ t.root ↔ pl = [] ∧ nd = t ∧ t.IsNode := by
  rw [root, IsNode]
  split <;> simp_all

theorem map_snd_walk (t : Tree) : t.walk.map Prod.snd = t.preorder := by
  induction t using children_induction with
  | step t ih =>
    have items : ∀ (n : Nat) (trees : List Tree),
        (∀ child ∈ trees, child.walk.map Prod.snd = child.preorder) →
          (walkItems n trees).map Prod.snd = preorderItems trees := by
      intro n trees
      induction trees generalizing n with
      | nil => intro _; rfl
      | cons child tl behind =>
        intro all
        obtain ⟨hh, later⟩ := forall_mem_cons.mp all
        have hs : Prod.snd ∘ inPart n = Prod.snd := rfl
        rw [walkItems, preorderItems, map_append, List.map_map, hs, hh, behind (n + 1) later]
    rw [walk_eq, preorder_eq, map_append, items 0 t.children ih]

theorem mem_walkItems_iff {n : Nat} {trees : List Tree} {nd : Tree} :
    (pl, nd) ∈ walkItems n trees ↔
      ∃ offset child tl, trees[offset]? = some child ∧ pl = (n + offset) :: tl ∧
        (tl, nd) ∈ child.walk := by
  induction trees generalizing n with
  | nil => simp [walkItems]
  | cons head later ih =>
    rw [walkItems, mem_append, ih, List.mem_map]
    constructor
    · rintro (⟨e, hm, hs⟩ | ⟨offset, child, tl, hf, hs, hm⟩)
      · cases hs
        exact ⟨0, head, e.1, rfl, rfl, hm⟩
      · refine ⟨offset + 1, child, tl, by simpa using hf, ?_, hm⟩
        rw [hs, Nat.add_assoc, Nat.add_comm 1]
    · rintro ⟨offset, child, tl, hf, hs, hm⟩
      cases offset with
      | zero =>
        cases hf
        exact Or.inl ⟨(tl, nd), hm, by rw [hs]; rfl⟩
      | succ offset =>
        refine Or.inr ⟨offset, child, tl, by simpa using hf, ?_, hm⟩
        rw [hs, Nat.add_assoc, Nat.add_comm 1]

theorem mem_walk_iff {t nd : Tree} : (pl, nd) ∈ t.walk ↔ t.at? pl = some nd ∧ nd.IsNode := by
  induction t using children_induction generalizing pl with
  | step t ih =>
    rw [walk_eq, mem_append, mem_root_iff, mem_walkItems_iff]
    cases pl with
    | nil =>
      simp only [at?, Option.some.injEq, true_and]
      constructor
      · rintro (⟨rfl, hk⟩ | ⟨_, _, _, _, hs, _⟩)
        · exact ⟨rfl, hk⟩
        · cases hs
      · rintro ⟨rfl, hk⟩
        exact Or.inl ⟨rfl, hk⟩
    | cons n tl =>
      simp only [at?, bind_eq_some_iff, Nat.zero_add, reduceCtorEq, false_and, false_or]
      constructor
      · rintro ⟨offset, child, inner, hf, hs, hm⟩
        cases hs
        have hi := (ih child (mem_of_getElem? hf)).mp hm
        exact ⟨⟨child, hf, hi.1⟩, hi.2⟩
      · rintro ⟨⟨child, hf, ht⟩, hk⟩
        have hm := (ih child (mem_of_getElem? hf)).mpr ⟨ht, hk⟩
        exact ⟨n, child, tl, hf, rfl, hm⟩

theorem ordered_walk (t : Tree) : t.walk.Pairwise fun earlier later => earlier.1 < later.1 := by
  induction t using children_induction with
  | step t ih =>
    have items : ∀ (n : Nat) (trees : List Tree),
        (∀ child ∈ trees, child.walk.Pairwise fun earlier later => earlier.1 < later.1) →
          (walkItems n trees).Pairwise fun earlier later => earlier.1 < later.1 := by
      intro n trees
      induction trees generalizing n with
      | nil => intro _; exact List.Pairwise.nil
      | cons child tl behind =>
        intro all
        obtain ⟨hh, later⟩ := forall_mem_cons.mp all
        rw [walkItems, pairwise_append, pairwise_map]
        refine ⟨hh.imp fun less => ?_, behind (n + 1) later, ?_⟩
        · exact cons_lt_cons_iff.mpr (Or.inr ⟨rfl, less⟩)
        · rintro _ hi ⟨pl, nd⟩ behindIt
          obtain ⟨e, _, rfl⟩ := List.mem_map.mp hi
          obtain ⟨offset, _, inner, _, rfl, _⟩ := mem_walkItems_iff.mp behindIt
          exact cons_lt_cons_iff.mpr (Or.inl (by omega))
    rw [walk_eq, pairwise_append]
    refine ⟨?_, items 0 t.children ih, ?_⟩
    · rw [root]
      split <;> simp
    · rintro ⟨a, nd⟩ atRoot ⟨pl, inner⟩ hi
      obtain ⟨rfl, _⟩ := mem_root_iff.mp atRoot
      obtain ⟨offset, _, tl, _, rfl, _⟩ := mem_walkItems_iff.mp hi
      exact nil_lt_cons _ _

def Assigns (nd : Tree) (p : String) : Prop :=
  nd.isKind .assign = true ∧ ∃ tgt ∈ nd.members "targets", tgt.namedPath? = some p

end Tree

/-! ## Reachability -/

inductive TaintedAt (t : Tree) : Place → String → Prop where
  | source {pl : Place} {asg : Tree} {p : String}
      (hh : t.at? pl = some asg) (assigns : asg.Assigns p)
      (data : isSource (asg.part "value") = true) :
      TaintedAt t pl p
  | copied {pl earlier : Place} {asg : Tree} {p other : String}
      (hh : t.at? pl = some asg) (assigns : asg.Assigns p)
      (data : (asg.part "value").namedPath? = some other)
      (precedes : earlier < pl) (before : TaintedAt t earlier other) :
      TaintedAt t pl p

def TaintedBefore (t : Tree) (pl : Place) (p : String) : Prop :=
  ∃ earlier, earlier < pl ∧ TaintedAt t earlier p

def LatestLine (t : Tree) (pl : Place) (p : String) (ln : Value) : Prop :=
  ∃ latest asg, latest < pl ∧ TaintedAt t latest p ∧
    (∀ other, other < pl → TaintedAt t other p → other ≤ latest) ∧
      t.at? latest = some asg ∧ ln = asg.lineValue

structure Use where
  call : Place
  argument : Nat

def Use.Before (earlier later : Use) : Prop :=
  earlier.call < later.call ∨ earlier.call = later.call ∧ earlier.argument < later.argument

structure Given (tree : Tree) (use : Use) (sink : String) (call argument : Tree) : Prop where
  here : tree.at? use.call = some call
  calls : call.isKind .call = true
  sink : sink? call = some sink
  argument : (call.members "args")[use.argument]? = some argument

def Reached (t : Tree) (use : Use) : Prop :=
  ∃ sink call arg, Given t use sink call arg ∧
    (isSource arg = true ∨ ∃ p, arg.namedPath? = some p ∧ TaintedBefore t use.call p)

def Describes (t : Tree) (use : Use) (fl : Flow) : Prop :=
  ∃ call arg, Given t use fl.sink call arg ∧ fl.source = arg.dataText ∧
    fl.sinkLine = call.lineValue ∧
      ((isSource arg = true ∧ fl.path = none ∧ fl.sourceLine = call.lineValue) ∨
        (isSource arg = false ∧ ∃ p, arg.namedPath? = some p ∧
          fl.path = some p ∧ LatestLine t use.call p fl.sourceLine))

theorem TaintedAt.mem_walk {t : Tree} {pl : Place} {p : String}
    (tainted : TaintedAt t pl p) : ∃ nd, (pl, nd) ∈ t.walk := by
  cases tainted with
  | source hh assigns data =>
    exact ⟨_, Tree.mem_walk_iff.mpr ⟨hh, Tree.isNode_of_isKind assigns.1⟩⟩
  | copied hh assigns data precedes before =>
    exact ⟨_, Tree.mem_walk_iff.mpr ⟨hh, Tree.isNode_of_isKind assigns.1⟩⟩

theorem taintedAt_iff {t nd : Tree} {pl : Place} {p : String} (hh : t.at? pl = some nd) :
    TaintedAt t pl p ↔
      nd.Assigns p ∧ (isSource (nd.part "value") = true ∨
          ∃ other, (nd.part "value").namedPath? = some other ∧ TaintedBefore t pl other) := by
  constructor
  · intro tainted
    cases tainted with
    | source ht assigns data =>
      rw [hh] at ht
      cases ht
      exact ⟨assigns, Or.inl data⟩
    | copied ht assigns data precedes before =>
      rw [hh] at ht
      cases ht
      exact ⟨assigns, Or.inr ⟨_, data, _, precedes, before⟩⟩
  · rintro ⟨assigns, data | ⟨other, data, earlier, precedes, before⟩⟩
    · exact .source hh assigns data
    · exact .copied hh assigns data precedes before

/-! ## What the walk knows -/

def Passed (upcoming : List (Place × Tree)) (pl : Place) : Prop :=
  ∀ e ∈ upcoming, pl < e.1

/--
The tainted paths are right when some nodes are still to come: a path has the line of the latest
assignment so far that taints it, and a path without a line is tainted by none.
-/
structure Tracks (tree : Tree) (upcoming : List (Place × Tree)) (tainted : Tainted) : Prop where
  latest : ∀ path line, tainted.line? path = some line →
    ∃ latest assignment, Passed upcoming latest ∧ TaintedAt tree latest path ∧
      (∀ other, Passed upcoming other → TaintedAt tree other path → other ≤ latest) ∧
        tree.at? latest = some assignment ∧ line = assignment.lineValue
  clean : ∀ path, tainted.line? path = none →
    ∀ place, Passed upcoming place → ¬ TaintedAt tree place path

theorem tracks_walk (t : Tree) : Tracks t t.walk [] := by
  constructor
  · intro p ln hf
    cases hf
  · intro p _ pl passed tainted
    rcases tainted.mem_walk with ⟨nd, hm⟩
    exact lt_irrefl pl (passed (pl, nd) hm)

section Upcoming

variable {t node : Tree} {here : Place} {tl : List (Place × Tree)} {tainted : Tainted}

theorem ordered_of_suffix (suffix : (here, node) :: tl <:+ t.walk) : ∀ e ∈ tl, here < e.1 := by
  have ordered := (Tree.ordered_walk t).sublist suffix.sublist
  exact (pairwise_cons.mp ordered).1

theorem at?_of_suffix (suffix : (here, node) :: tl <:+ t.walk) : t.at? here = some node :=
  (Tree.mem_walk_iff.mp (suffix.subset mem_cons_self)).1

theorem passed_cons_iff (suffix : (here, node) :: tl <:+ t.walk) {pl : Place} :
    Passed ((here, node) :: tl) pl ↔ pl < here := by
  constructor
  · intro passed
    exact passed (here, node) mem_cons_self
  · intro before e hm
    rcases mem_cons.mp hm with rfl | later
    · exact before
    · exact lt_trans before (ordered_of_suffix suffix e later)

theorem passed_tail_iff (suffix : (here, node) :: tl <:+ t.walk) {pl : Place} {inner : Tree}
    (hk : (pl, inner) ∈ t.walk) : Passed tl pl ↔ pl < here ∨ pl = here := by
  have later := ordered_of_suffix suffix
  constructor
  · intro passed
    obtain ⟨done, split⟩ := suffix
    have ordered := Tree.ordered_walk t
    rw [← split, pairwise_append] at ordered
    rw [← split] at hk
    rcases mem_append.mp hk with before | ahead
    · exact Or.inl (ordered.2.2 _ before (here, node) mem_cons_self)
    · rcases mem_cons.mp ahead with hs | behind
      · cases hs
        exact Or.inr rfl
      · exact absurd (passed _ behind) (lt_irrefl pl)
  · rintro (before | rfl)
    · exact fun e hm => lt_trans before (later e hm)
    · exact later

variable {p : String}

theorem Tracks.line?_isSome_iff (tracks : Tracks t ((here, node) :: tl) tainted)
    (suffix : (here, node) :: tl <:+ t.walk) :
    (tainted.line? p).isSome = true ↔ TaintedBefore t here p := by
  constructor
  · intro hk
    obtain ⟨ln, hf⟩ := isSome_iff_exists.mp hk
    rcases tracks.latest p ln hf with ⟨latest, asg, passed, tainting, _⟩
    exact ⟨latest, (passed_cons_iff suffix).mp passed, tainting⟩
  · rintro ⟨earlier, precedes, tainting⟩
    by_contra unknown
    have hmiss : tainted.line? p = none := by simpa using unknown
    exact tracks.clean p hmiss earlier ((passed_cons_iff suffix).mpr precedes) tainting

theorem Tracks.taints_iff (tracks : Tracks t ((here, node) :: tl) tainted)
    (suffix : (here, node) :: tl <:+ t.walk) {data : Tree} :
    taints tainted data = true ↔
      isSource data = true ∨
        ∃ other, data.namedPath? = some other ∧ TaintedBefore t here other := by
  simp only [taints, Bool.or_eq_true, Option.any_eq_true, tracks.line?_isSome_iff suffix]

theorem Tracks.latestLine (tracks : Tracks t ((here, node) :: tl) tainted)
    (suffix : (here, node) :: tl <:+ t.walk) {ln : Value}
    (hf : tainted.line? p = some ln) : LatestLine t here p ln := by
  rcases tracks.latest p ln hf with ⟨latest, asg, passed, tainting, last, ht⟩
  refine ⟨latest, asg, (passed_cons_iff suffix).mp passed, tainting, ?_, ht⟩
  intro other precedes also
  exact last other ((passed_cons_iff suffix).mpr precedes) also

/-! ## One node -/

theorem line?_cons (e : String × Value) (others : Tainted) (p : String) :
    Tainted.line? (e :: others) p = if e.1 = p then some e.2 else others.line? p := by
  by_cases hs : e.1 = p
  · simp [Tainted.line?, hs]
  · have differs : (e.1 == p) = false := by simpa using hs
    simp [Tainted.line?, differs, hs]

theorem line?_foldl (paths : List String) (ln : Value) (others : Tainted) (p : String) :
    Tainted.line? (paths.foldl (fun known tgt => (tgt, ln) :: known) others) p =
      if p ∈ paths then some ln else others.line? p := by
  induction paths generalizing others with
  | nil => simp
  | cons head later ih =>
    rw [foldl_cons, ih, line?_cons]
    by_cases behind : p ∈ later
    · simp [behind]
    · by_cases hs : head = p
      · simp [hs]
      · simp [hs, Ne.symm hs]

theorem line?_afterNode_of_taints (assigns : node.Assigns p)
    (data : taints tainted (node.part "value") = true) :
    (afterNode tainted node).line? p = some node.lineValue := by
  have target : p ∈ (node.members "targets").filterMap Tree.namedPath? :=
    mem_filterMap.mpr assigns.2
  rw [afterNode, assigns.1, data, Bool.and_self, if_pos rfl, line?_foldl, if_pos target]

theorem line?_afterNode_of_not
    (untainted : ¬ (node.Assigns p ∧ taints tainted (node.part "value") = true)) :
    (afterNode tainted node).line? p = tainted.line? p := by
  rw [afterNode]
  split
  · next both =>
    rw [Bool.and_eq_true] at both
    have free : p ∉ (node.members "targets").filterMap Tree.namedPath? := by
      intro target
      exact untainted ⟨⟨both.1, mem_filterMap.mp target⟩, both.2⟩
    rw [line?_foldl, if_neg free]
  · rfl

theorem Tracks.step (tracks : Tracks t ((here, node) :: tl) tainted)
    (suffix : (here, node) :: tl <:+ t.walk) : Tracks t tl (afterNode tainted node) := by
  have tainting_iff : ∀ p, TaintedAt t here p ↔
      node.Assigns p ∧ taints tainted (node.part "value") = true := by
    intro p
    rw [taintedAt_iff (at?_of_suffix suffix), tracks.taints_iff suffix]
  have reached : ∀ pl p, TaintedAt t pl p →
      (Passed tl pl ↔ Passed ((here, node) :: tl) pl ∨ pl = here) := by
    intro pl p tainting
    rcases tainting.mem_walk with ⟨inner, hk⟩
    rw [passed_tail_iff suffix hk, passed_cons_iff suffix]
  constructor
  · intro p ln hf
    by_cases tainting : TaintedAt t here p
    · obtain ⟨assigns, data⟩ := (tainting_iff p).mp tainting
      rw [line?_afterNode_of_taints assigns data] at hf
      cases hf
      refine ⟨here, node, ordered_of_suffix suffix, tainting, ?_, at?_of_suffix suffix, rfl⟩
      intro other passed also
      rcases (reached other p also).mp passed with before | rfl
      · exact le_of_lt ((passed_cons_iff suffix).mp before)
      · exact le_refl _
    · rw [line?_afterNode_of_not fun both => tainting ((tainting_iff p).mpr both)] at hf
      rcases tracks.latest p ln hf with ⟨latest, asg, passed, earlier, last, ht⟩
      refine ⟨latest, asg, (reached latest p earlier).mpr (Or.inl passed), earlier, ?_, ht⟩
      intro other behind also
      rcases (reached other p also).mp behind with before | rfl
      · exact last other before also
      · exact absurd also tainting
  · intro p hmiss pl passed tainting
    by_cases now : TaintedAt t here p
    · obtain ⟨assigns, data⟩ := (tainting_iff p).mp now
      rw [line?_afterNode_of_taints assigns data] at hmiss
      cases hmiss
    · rw [line?_afterNode_of_not fun both => now ((tainting_iff p).mpr both)] at hmiss
      rcases (reached pl p tainting).mp passed with before | rfl
      · exact tracks.clean p hmiss pl before tainting
      · exact now tainting

def usesAt (tainted : Tainted) (here : Place) (nd : Tree) : List Use :=
  if nd.isKind .call then
    match sink? nd with
    | some sink => (nd.members "args").zipIdx.filterMap fun (arg, n) =>
      (argumentFlow tainted sink nd arg).map fun _ => ⟨here, n⟩
    | none => []
  else []

theorem argumentFlow_isSome_iff {sink : String} {arg : Tree} :
    (argumentFlow tainted sink node arg).isSome = true ↔
      isSource arg = true ∨ ∃ p, arg.namedPath? = some p ∧ (tainted.line? p).isSome = true := by
  by_cases source : isSource arg = true
  · simp [argumentFlow, source]
  · cases hn : arg.namedPath? with
    | none => simp [argumentFlow, source, hn]
    | some p => simp [argumentFlow, source, hn]

theorem mem_usesAt_iff {use : Use} :
    use ∈ usesAt tainted here node ↔
      use.call = here ∧ node.isKind .call = true ∧
        ∃ sink arg, sink? node = some sink ∧ (node.members "args")[use.argument]? = some arg ∧
            (argumentFlow tainted sink node arg).isSome = true := by
  rw [usesAt]
  split
  · next calls =>
    cases called : sink? node with
    | none => simp
    | some sink =>
      simp only [mem_filterMap, map_eq_some_iff, Prod.exists,
        mk_mem_zipIdx_iff_getElem?, calls, Option.some.injEq]
      constructor
      · rintro ⟨arg, n, hf, fl, flowing, rfl⟩
        exact ⟨rfl, trivial, sink, arg, rfl, hf, by rw [flowing]; rfl⟩
      · rintro ⟨rfl, _, _, arg, rfl, hf, flowing⟩
        obtain ⟨fl, hs⟩ := isSome_iff_exists.mp flowing
        exact ⟨arg, use.argument, hf, fl, hs, rfl⟩
  · next ho => simp [ho]

theorem Tracks.mem_usesAt_iff (tracks : Tracks t ((here, node) :: tl) tainted)
    (suffix : (here, node) :: tl <:+ t.walk) {use : Use} :
    use ∈ usesAt tainted here node ↔ use.call = here ∧ Reached t use := by
  have ht := at?_of_suffix suffix
  simp only [Tree.mem_usesAt_iff, argumentFlow_isSome_iff, tracks.line?_isSome_iff suffix]
  constructor
  · rintro ⟨rfl, calls, sink, arg, called, hf, flowing⟩
    exact ⟨rfl, sink, node, arg, ⟨ht, calls, called, hf⟩, flowing⟩
  · rintro ⟨rfl, sink, call, arg, given, flowing⟩
    have hs : node = call := Option.some.inj (ht.symm.trans given.here)
    subst hs
    exact ⟨rfl, given.calls, sink, arg, given.sink, given.argument, flowing⟩

theorem Tracks.describes (tracks : Tracks t ((here, node) :: tl) tainted)
    (suffix : (here, node) :: tl <:+ t.walk) {sink : String} {arg : Tree} {n : Nat}
    {fl : Flow} (given : Given t ⟨here, n⟩ sink node arg)
    (flowing : argumentFlow tainted sink node arg = some fl) : Describes t ⟨here, n⟩ fl := by
  rw [argumentFlow] at flowing
  split at flowing
  · next source =>
    cases flowing
    exact ⟨node, arg, given, rfl, rfl, Or.inl ⟨source, rfl, rfl⟩⟩
  · next hp =>
    split at flowing
    · cases flowing
    · next p hn =>
      obtain ⟨ln, hf, rfl⟩ := map_eq_some_iff.mp flowing
      have unsourced : isSource arg = false := by simpa using hp
      exact ⟨node, arg, given, rfl, rfl,
        Or.inr ⟨unsourced, p, hn, rfl, tracks.latestLine suffix hf⟩⟩

theorem forall₂_filterMap {α β γ : Type} {relation : β → γ → Prop} {l : α → Option β}
    {r : α → Option γ} (xs : List α) (related : ∀ x ∈ xs, Option.Rel relation (l x) (r x)) :
    Forall₂ relation (xs.filterMap l) (xs.filterMap r) := by
  induction xs with
  | nil => exact Forall₂.nil
  | cons x later ih =>
    obtain ⟨hh, behind⟩ := forall_mem_cons.mp related
    have tails := ih behind
    cases h1 : l x with
    | none =>
      rw [h1] at hh
      cases h2 : r x with
      | none => simpa [h1, h2] using tails
      | some v => rw [h2] at hh; cases hh
    | some f =>
      rw [h1] at hh
      cases h2 : r x with
      | none => rw [h2] at hh; cases hh
      | some v =>
        rw [h2] at hh
        cases hh with
        | some holds => simpa [h1, h2] using ⟨holds, tails⟩

theorem Tracks.describes_flowsAt (tracks : Tracks t ((here, node) :: tl) tainted)
    (suffix : (here, node) :: tl <:+ t.walk) :
    Forall₂ (Describes t) (usesAt tainted here node) (flowsAt tainted node) := by
  rw [usesAt, flowsAt]
  split
  · next calls =>
    cases called : sink? node with
    | none => exact Forall₂.nil
    | some sink =>
      have numbered : (node.members "args").filterMap (argumentFlow tainted sink node) =
          (node.members "args").zipIdx.filterMap fun e => argumentFlow tainted sink node e.1 := by
        conv_lhs => rw [← zipIdx_map_fst 0 (node.members "args"), filterMap_map]
        rfl
      dsimp only
      rw [numbered]
      apply forall₂_filterMap
      rintro ⟨arg, n⟩ hm
      have hf : (node.members "args")[n]? = some arg := mk_mem_zipIdx_iff_getElem?.mp hm
      cases flowing : argumentFlow tainted sink node arg with
      | none => exact Option.Rel.none
      | some fl =>
        have given : Given t ⟨here, n⟩ sink node arg := ⟨at?_of_suffix suffix, calls, called, hf⟩
        exact Option.Rel.some (tracks.describes suffix given flowing)
  · exact Forall₂.nil

theorem ordered_usesAt : (usesAt tainted here node).Pairwise Use.Before := by
  rw [usesAt]
  split
  · split
    · have numbers : ((node.members "args").zipIdx).Pairwise fun l r => l.2 < r.2 := by
        have range : (List.range' 0 (node.members "args").length).Pairwise (· < ·) :=
          pairwise_lt_range'
        rw [← zipIdx_map_snd 0 (node.members "args"), pairwise_map] at range
        exact range
      refine numbers.filterMap _ ?_
      rintro ⟨a, n⟩ ⟨b, other⟩ less use one use' two
      obtain ⟨_, _, rfl⟩ := map_eq_some_iff.mp one
      obtain ⟨_, _, rfl⟩ := map_eq_some_iff.mp two
      exact Or.inr ⟨rfl, less⟩
    · exact List.Pairwise.nil
  · exact List.Pairwise.nil

end Upcoming

/-! ## The whole walk -/

theorem Tracks.flowsAlong {t : Tree} {upcoming : List (Place × Tree)} {tainted : Tainted}
    (tracks : Tracks t upcoming tainted) (suffix : upcoming <:+ t.walk) :
    ∃ uses : List Use, uses.Pairwise Use.Before ∧
      (∀ use, use ∈ uses ↔ (∃ nd, (use.call, nd) ∈ upcoming) ∧ Reached t use) ∧
        Forall₂ (Describes t) uses (Tree.flowsAlong tainted (upcoming.map Prod.snd)) := by
  induction upcoming generalizing tainted with
  | nil => exact ⟨[], List.Pairwise.nil, by simp, Forall₂.nil⟩
  | cons e tl ih =>
    rcases e with ⟨here, nd⟩
    have further : tl <:+ t.walk := (suffix_cons _ tl).trans suffix
    obtain ⟨uses, ordered, mem_iff, described⟩ := ih (tracks.step suffix) further
    refine ⟨usesAt tainted here nd ++ uses, ?_, ?_, ?_⟩
    · rw [pairwise_append]
      refine ⟨ordered_usesAt, ordered, ?_⟩
      intro a atNode b later
      obtain ⟨hs, _⟩ := (tracks.mem_usesAt_iff suffix).mp atNode
      obtain ⟨⟨inner, hm⟩, _⟩ := (mem_iff b).mp later
      rw [Use.Before, hs]
      exact Or.inl (ordered_of_suffix suffix _ hm)
    · intro use
      rw [mem_append, tracks.mem_usesAt_iff suffix, mem_iff]
      constructor
      · rintro (⟨rfl, reached⟩ | ⟨⟨inner, hm⟩, reached⟩)
        · exact ⟨⟨nd, mem_cons_self⟩, reached⟩
        · exact ⟨⟨inner, mem_cons_of_mem _ hm⟩, reached⟩
      · rintro ⟨⟨inner, hm⟩, reached⟩
        rcases mem_cons.mp hm with hs | later
        · exact Or.inl ⟨congrArg Prod.fst hs, reached⟩
        · exact Or.inr ⟨⟨inner, later⟩, reached⟩
    · exact rel_append (tracks.describes_flowsAt suffix) described

/--
The flows of a tree are those of the arguments that are reached: there is one flow for each of
them and no other, in the order of the calls and of the arguments in a call, and it says where the
argument was tainted last.
-/
theorem flowsOf_describe_reached (tree : Tree) :
    ∃ uses : List Use, uses.Pairwise Use.Before ∧ (∀ use, use ∈ uses ↔ Reached tree use) ∧
      List.Forall₂ (Describes tree) uses (flowsOf tree) := by
  obtain ⟨uses, ordered, member_iff, described⟩ :=
    (tracks_walk tree).flowsAlong (List.suffix_refl tree.walk)
  rw [Tree.map_snd_walk] at described
  refine ⟨uses, ordered, ?_, described⟩
  intro use
  rw [member_iff use]
  constructor
  · exact And.right
  · intro reached
    rcases reached with ⟨sink, call, argument, given, flowing⟩
    have known : call.IsNode := Tree.isNode_of_isKind given.calls
    exact ⟨⟨call, Tree.mem_walk_iff.mpr ⟨given.here, known⟩⟩, sink, call, argument, given, flowing⟩

end SourceAudit.Tree
