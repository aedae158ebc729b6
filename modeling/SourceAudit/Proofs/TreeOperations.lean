import SourceAudit.Proofs.TreeReachability
import SourceAudit.Tree.ControlFlow
import SourceAudit.Tree.Operations
import Mathlib

/-!
# The operations of a tree, site by site

The operations of a tree and its control structures are two lists that are made independently.
-/

open List

set_option linter.dupNamespace false

namespace SourceAudit.Tree

/-! ## Sites -/

def recordTitle? : NodeKind → Option String
  | .call => some "CALL"
  | .assign => some "ASSIGN"
  | .ifStatement => some "IF"
  | .forLoop => some "FOR"
  | .whileLoop => some "WHILE"
  | .tryBlock => some "TRY"
  | .function => some "FUNCTION_DEF"
  | .classDefinition => some "CLASS_DEF"
  | _ => none

def importsNames (k : NodeKind) : Prop :=
  k = .importModule ∨ k = .importNames

structure Site where
  place : Place
  number : Nat

def Site.Before (earlier later : Site) : Prop :=
  earlier.place < later.place ∨ earlier.place = later.place ∧ earlier.number < later.number

inductive HasSite (t : Tree) : Site → Prop where
  | single {pl : Place} {nd : Tree} {k : NodeKind} {title : String}
      (hh : t.at? pl = some nd) (hk : nd.kind? = some k)
      (titled : recordTitle? k = some title) : HasSite t ⟨pl, 0⟩
  | imported {pl : Place} {nd x : Tree} {k : NodeKind} {n : Nat}
      (hh : t.at? pl = some nd) (hk : nd.kind? = some k)
      (imports : importsNames k) (hn : (nd.members "names")[n]? = some x) :
      HasSite t ⟨pl, n⟩

/-- The record has a title and says where its node stands. -/
structure Locates (node : Tree) (title : String) (record : Value) : Prop where
  title : record.lookup "type" = .text title
  line : record.lookup "line" = node.lineValue
  column : record.lookup "col_offset" = node.columnValue

inductive Records (t : Tree) : Site → Value → Prop where
  | single {pl : Place} {nd : Tree} {k : NodeKind} {title : String} {record : Value}
      (hh : t.at? pl = some nd) (hk : nd.kind? = some k)
      (titled : recordTitle? k = some title) (located : Locates nd title record) :
      Records t ⟨pl, 0⟩ record
  | imported {pl : Place} {nd x : Tree} {k : NodeKind} {n : Nat} {record : Value}
      (hh : t.at? pl = some nd) (hk : nd.kind? = some k)
      (imports : importsNames k) (hn : (nd.members "names")[n]? = some x)
      (located : Locates nd "IMPORT" record)
      (subject : record.lookup (if k = .importModule then "module" else "name") =
        x.value "name")
      (knownAs : record.lookup "alias" = aliasOf x) :
      Records t ⟨pl, n⟩ record

/-! ## One node -/

section Node

variable {nd : Tree} {k : NodeKind} {title : String}

theorem exists_operationsAt_of_titled (hk : nd.kind? = some k)
    (titled : recordTitle? k = some title) :
    ∃ record, operationsAt nd = [record] ∧ Locates nd title record := by
  rw [operationsAt, hk]
  cases k <;> simp only [recordTitle?, reduceCtorEq, Option.some.injEq] at titled <;>
    subst titled <;> exact ⟨_, rfl, rfl, rfl, rfl⟩

def importRecord (nd : Tree) (k : NodeKind) (x : Tree) : Value :=
  .record ([("type", .text "IMPORT")] ++ (if k = .importModule then [("module", x.value "name")]
      else [("module", (nd.value "module").orElse (.text "")), ("name", x.value "name")]) ++
    [("alias", aliasOf x), ("line", nd.lineValue), ("col_offset", nd.columnValue)])

theorem operationsAt_of_imports (hk : nd.kind? = some k) (imports : importsNames k) :
    operationsAt nd = (nd.members "names").map (importRecord nd k) := by
  rw [operationsAt, hk]
  rcases imports with rfl | rfl <;> rfl

theorem locates_importRecord (nd x : Tree) (k : NodeKind) :
    Locates nd "IMPORT" (importRecord nd k x) := by
  by_cases module : k = .importModule
  · subst module
    exact ⟨rfl, rfl, rfl⟩
  · simp only [importRecord, if_neg module]
    exact ⟨rfl, rfl, rfl⟩

theorem lookup_importRecord (nd x : Tree) (k : NodeKind) :
    (importRecord nd k x).lookup (if k = .importModule then "module" else "name") =
        x.value "name" ∧
      (importRecord nd k x).lookup "alias" = aliasOf x := by
  by_cases module : k = .importModule
  · subst module
    exact ⟨rfl, rfl⟩
  · simp only [importRecord, if_neg module]
    exact ⟨rfl, rfl⟩

theorem operationsAt_eq_nil (hk : nd.kind? = some k) (untitled : recordTitle? k = none)
    (ho : ¬ importsNames k) : operationsAt nd = [] := by
  rw [operationsAt, hk]
  cases k <;> simp_all [recordTitle?, importsNames]

def sitesAt (pl : Place) (nd : Tree) : List Site :=
  (List.range (operationsAt nd).length).map fun n => ⟨pl, n⟩

theorem mem_sitesAt_iff {pl : Place} {site : Site} :
    site ∈ sitesAt pl nd ↔ site.place = pl ∧ site.number < (operationsAt nd).length := by
  simp only [sitesAt, mem_map, mem_range]
  constructor
  · rintro ⟨n, less, rfl⟩
    exact ⟨rfl, less⟩
  · rintro ⟨rfl, less⟩
    exact ⟨site.number, less, rfl⟩

theorem ordered_sitesAt (pl : Place) (nd : Tree) : (sitesAt pl nd).Pairwise Site.Before := by
  rw [sitesAt, pairwise_map]
  apply pairwise_lt_range.imp
  intro earlier later less
  exact Or.inr ⟨rfl, less⟩

variable {t : Tree} {place : Place}

theorem hasSite_iff_of_at? (hh : t.at? place = some nd) (hk : nd.kind? = some k)
    (n : Nat) : HasSite t ⟨place, n⟩ ↔ n < (operationsAt nd).length := by
  constructor
  · intro site
    cases site with
    | single ht hs titled =>
      cases hh.symm.trans ht
      obtain ⟨record, only, _⟩ := exists_operationsAt_of_titled hs titled
      rw [only]
      exact Nat.one_pos
    | imported ht hs imports hn =>
      cases hh.symm.trans ht
      rw [operationsAt_of_imports hs imports, length_map]
      exact (List.getElem?_eq_some_iff.mp hn).1
  · intro less
    cases titled : recordTitle? k with
    | some title =>
      obtain ⟨record, only, _⟩ := exists_operationsAt_of_titled hk titled
      rw [only, length_singleton, Nat.lt_one_iff] at less
      subst less
      exact .single hh hk titled
    | none =>
      by_cases imports : importsNames k
      · rw [operationsAt_of_imports hk imports, length_map] at less
        exact .imported hh hk imports (getElem?_eq_getElem less)
      · rw [operationsAt_eq_nil hk titled imports] at less
        exact absurd less (Nat.not_lt_zero n)

theorem records_operationsAt (hh : t.at? place = some nd) (hk : nd.kind? = some k) :
    Forall₂ (Records t) (sitesAt place nd) (operationsAt nd) := by
  cases titled : recordTitle? k with
  | some title =>
    obtain ⟨record, only, located⟩ := exists_operationsAt_of_titled hk titled
    rw [sitesAt, only]
    exact .cons (.single hh hk titled located) .nil
  | none =>
    by_cases imports : importsNames k
    · rw [sitesAt, operationsAt_of_imports hk imports, length_map,
        forall₂_map_left_iff, forall₂_map_right_iff, forall₂_iff_get]
      refine ⟨length_range, ?_⟩
      intro n _ hi
      rw [get_eq_getElem, get_eq_getElem, getElem_range]
      obtain ⟨subject, knownAs⟩ := lookup_importRecord nd ((nd.members "names").get ⟨n, hi⟩) k
      exact .imported hh hk imports (getElem?_eq_getElem hi)
        (locates_importRecord nd _ k) subject knownAs
    · rw [sitesAt, operationsAt_eq_nil hk titled imports]
      exact .nil

end Node

/-! ## The whole walk -/

def sitesAlong (es : List (Place × Tree)) : List Site :=
  es.flatMap fun e => sitesAt e.1 e.2

theorem operationsOf_eq_flatMap_walk (t : Tree) :
    operationsOf t = t.walk.flatMap fun e => operationsAt e.2 := by
  rw [operationsOf, ← Tree.map_snd_walk, flatMap_map]

theorem exists_kind?_of_mem_walk {t nd : Tree} {pl : Place} (hm : (pl, nd) ∈ t.walk) :
    t.at? pl = some nd ∧ ∃ k, nd.kind? = some k := by
  obtain ⟨hh, hk⟩ := Tree.mem_walk_iff.mp hm
  exact ⟨hh, Option.isSome_iff_exists.mp hk⟩

theorem ordered_sitesAlong (t : Tree) : (sitesAlong t.walk).Pairwise Site.Before := by
  rw [sitesAlong, pairwise_flatMap]
  constructor
  · intro e _
    exact ordered_sitesAt e.1 e.2
  · apply (Tree.ordered_walk t).imp
    intro earlier later less a atEarlier b atLater
    have one := (mem_sitesAt_iff.mp atEarlier).1
    have two := (mem_sitesAt_iff.mp atLater).1
    rw [Site.Before, one, two]
    exact Or.inl less

theorem mem_sitesAlong_iff {t : Tree} {site : Site} :
    site ∈ sitesAlong t.walk ↔ HasSite t site := by
  rw [sitesAlong, mem_flatMap]
  constructor
  · rintro ⟨⟨pl, nd⟩, hm, atNode⟩
    obtain ⟨hh, k, hk⟩ := exists_kind?_of_mem_walk hm
    obtain ⟨rfl, less⟩ := mem_sitesAt_iff.mp atNode
    exact (hasSite_iff_of_at? hh hk site.number).mpr less
  · intro has
    have ht : ∃ nd k, t.at? site.place = some nd ∧ nd.kind? = some k := by
      cases has with
      | single hh hk _ => exact ⟨_, _, hh, hk⟩
      | imported hh hk _ _ => exact ⟨_, _, hh, hk⟩
    obtain ⟨nd, k, hh, hk⟩ := ht
    have met : (site.place, nd) ∈ t.walk := Tree.mem_walk_iff.mpr ⟨hh, by rw [Tree.IsNode, hk]; rfl⟩
    refine ⟨(site.place, nd), met, mem_sitesAt_iff.mpr ⟨rfl, ?_⟩⟩
    exact (hasSite_iff_of_at? hh hk site.number).mp has

theorem records_along {t : Tree} {es : List (Place × Tree)} (nodes : ∀ e ∈ es, e ∈ t.walk) :
    Forall₂ (Records t) (sitesAlong es) (es.flatMap fun e => operationsAt e.2) := by
  induction es with
  | nil => exact .nil
  | cons e tl ih =>
    obtain ⟨h1, others⟩ := forall_mem_cons.mp nodes
    obtain ⟨hh, k, hk⟩ := exists_kind?_of_mem_walk h1
    exact rel_append (records_operationsAt hh hk) (ih others)

/-! ## Control structures -/

def StructureKind.title : StructureKind → String
  | .branch => "IF"
  | .loopOver => "FOR"
  | .loopWhile => "WHILE"
  | .guarded => "TRY"

def controlKind? (record : Value) : Option StructureKind :=
  [.branch, .loopOver, .loopWhile, .guarded].find? fun k =>
    (record.lookup "type").text? == some k.title

def lineNumber : Value → Int
  | .int n => n
  | _ => 0

def controlsAmong (records : List Value) : List (StructureKind × Int) :=
  records.filterMap fun record =>
    (controlKind? record).map fun k => (k, lineNumber (record.lookup "line"))

theorem lineNumber_lineValue (nd : Tree) : lineNumber nd.lineValue = nd.line?.getD 0 := by
  rw [Tree.lineValue]
  cases nd.line? <;> rfl

theorem controlKind?_of_locates {nd : Tree} {title : String} {record : Value}
    (located : Locates nd title record) :
    controlKind? record = [.branch, .loopOver, .loopWhile, .guarded].find?
        fun k => some title == some k.title := by
  rw [controlKind?, located.title]
  rfl

theorem controlsAmong_operationsAt (nd : Tree) :
    controlsAmong (operationsAt nd) = (structureAt nd).map fun f => (f.kind, f.first) := by
  cases hk : nd.kind? with
  | none =>
    rw [operationsAt, structureAt, hk]
    rfl
  | some k =>
    cases titled : recordTitle? k with
    | some title =>
      obtain ⟨record, only, located⟩ := exists_operationsAt_of_titled hk titled
      rw [only, controlsAmong, filterMap_cons, controlKind?_of_locates located,
        located.line, lineNumber_lineValue, structureAt, hk]
      cases k <;> simp only [recordTitle?, reduceCtorEq, Option.some.injEq] at titled <;>
        subst titled <;> rfl
    | none =>
      have hp : structureAt nd = [] := by
        rw [structureAt, hk]
        cases k <;> simp_all [recordTitle?, StructureKind.ofNode?]
      rw [hp]
      by_cases imports : importsNames k
      · rw [operationsAt_of_imports hk imports, controlsAmong, filterMap_map]
        apply filterMap_eq_nil_iff.mpr
        intro x _
        rw [Function.comp_apply, controlKind?_of_locates (locates_importRecord nd x k)]
        rfl
      · rw [operationsAt_eq_nil hk titled imports]
        rfl

/--
The operations of a tree are the records of its sites: there is one record for each of them and no
other, in the order of their places.  The control statements among the operations are the control
structures of the tree, by kind and line and in the same order.
-/
theorem operationsOf_record_sites (tree : Tree) :
    (∃ sites : List Site, sites.Pairwise Site.Before ∧ (∀ site, site ∈ sites ↔ HasSite tree site) ∧
      List.Forall₂ (Records tree) sites (operationsOf tree)) ∧
    controlsAmong (operationsOf tree) =
      (structuresOf tree).map fun found => (found.kind, found.first) := by
  constructor
  · refine ⟨sitesAlong tree.walk, ordered_sitesAlong tree, fun _ => mem_sitesAlong_iff, ?_⟩
    rw [operationsOf_eq_flatMap_walk]
    exact records_along fun _ member => member
  · rw [operationsOf, structuresOf, controlsAmong, List.filterMap_flatMap, List.map_flatMap]
    congr 1
    funext node
    exact controlsAmong_operationsAt node

end SourceAudit.Tree
