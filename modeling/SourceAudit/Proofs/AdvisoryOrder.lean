import Mathlib
import SourceAudit.Dependencies.Advisory
import SourceAudit.Proofs.KeyEquality
import SourceAudit.Proofs.ReplyShapes

/-!
# Advisories in any order

The details of advisories arrive in some order and are looked up again by the identifiers in the
results.
-/

open List Option

namespace SourceAudit.Dependencies

open Outside
open SourceAudit.Outcome

section Steps

variable {α β γ : Type} {xs : List α}

theorem mapM_filterMap {step : α → Outcome (Option β)} {choose : α → Option γ}
    {make : γ → Outcome β} (each : ∀ x ∈ xs, step x = match choose x with
      | none => .ok none
      | some chosen => (make chosen).map some) :
    (xs.mapM step >>= fun f => .ok (f.filterMap id)) = (xs.filterMap choose).mapM make := by
  induction xs with
  | nil => rfl
  | cons x tl ih =>
    obtain ⟨hh, later⟩ := forall_mem_cons.mp each
    rw [mapM_cons, filterMap_cons, hh]
    cases choose x with
    | none =>
      rw [← ih later]
      cases tl.mapM step <;> rfl
    | some chosen =>
      dsimp only
      rw [mapM_cons, ← ih later]
      cases make chosen with
      | error err => rfl
      | ok made => cases tl.mapM step <;> rfl

theorem mapM_flatten {step : α → Outcome (List β)} {choose : α → List γ} {make : γ → Outcome β}
    (each : ∀ x ∈ xs, step x = (choose x).mapM make) :
    (xs.mapM step).map List.flatten = (xs.flatMap choose).mapM make := by
  induction xs with
  | nil => rfl
  | cons x tl ih =>
    obtain ⟨hh, later⟩ := forall_mem_cons.mp each
    rw [mapM_cons, flatMap_cons, mapM_append, hh, ← ih later]
    cases (choose x).mapM make with
    | error err => rfl
    | ok made => cases tl.mapM step <;> rfl

end Steps

variable {advisories : Advisories} {ids arrived res : List Value} {id other : Value}

/-! ## Details by identifier -/

def Unlike (one other : Value) : Prop :=
  one.alike other = false ∧ other.alike one = false

instance : Std.Symm Unlike := ⟨fun _ _ unlike => unlike.symm⟩

/-- Identifiers that may serve as keys and of which no two are alike. -/
structure Distinct (ids : List Value) : Prop where
  hashable : ∀ id ∈ ids, id.unhashable? = none
  unlike : ids.Pairwise Unlike

theorem Distinct.perm (hdis : Distinct ids) (hs : arrived.Perm ids) : Distinct arrived where
  hashable id hm := hdis.hashable id (hs.mem_iff.mp hm)
  unlike := (hs.pairwise_iff fun unlike => unlike.symm).mpr hdis.unlike

theorem Distinct.find?_eq_some_iff (hdis : Distinct ids) :
    ids.find? (·.alike other) = some id ↔ id ∈ ids ∧ id.alike other = true := by
  refine ⟨fun hf => ⟨mem_of_find?_eq_some hf, find?_some (p := (Value.alike · other)) hf⟩, ?_⟩
  rintro ⟨hm, equal⟩
  cases hf : ids.find? (·.alike other) with
  | none => exact absurd equal (find?_eq_none.mp hf id hm)
  | some a =>
    have hi := mem_of_find?_eq_some hf
    have back := Value.alike_symm (hdis.hashable id hm) equal
    have meets := Value.alike_trans (hdis.hashable a hi)
      (find?_some (p := (Value.alike · other)) hf) back
    by_contra different
    have unlike := hdis.unlike.forall hi hm fun hs => different (congrArg some hs)
    rw [unlike.1] at meets
    cases meets

theorem Distinct.find?_perm (hdis : Distinct ids) (hs : arrived.Perm ids) :
    arrived.find? (·.alike other) = ids.find? (·.alike other) := by
  refine Option.ext fun id => ?_
  rw [(hdis.perm hs).find?_eq_some_iff, hdis.find?_eq_some_iff, hs.mem_iff]

theorem gathered?_keepDetail {details : List (Value × Value)} {detail : Value}
    (hhash : id.unhashable? = none) (keys : ∀ e ∈ details, e.1.unhashable? = none) :
    gathered? (keepDetail id detail details) other =
      if id.alike other then some detail else gathered? details other := by
  induction details with
  | nil => cases hf : id.alike other <;> simp [gathered?, keepDetail, hf]
  | cons e tl ih =>
    obtain ⟨hh, later⟩ := forall_mem_cons.mp keys
    rw [keepDetail]
    split
    · next equal =>
      have both : e.1.alike other = id.alike other := by
        rw [Bool.eq_iff_iff]
        exact ⟨Value.alike_trans hhash (Value.alike_symm hh equal), Value.alike_trans hh equal⟩
      cases hf : id.alike other <;> simp [gathered?, both, hf]
    · next different =>
      cases hf : e.1.alike other with
      | false =>
        have passed : ∀ details, gathered? (e :: details) other = gathered? details other :=
          fun _ => by simp [gathered?, hf]
        rw [passed, passed, ih later]
      | true =>
        have unlike : id.alike other = false := Bool.eq_false_iff.mpr fun equal =>
          different (Value.alike_trans hh hf (Value.alike_symm hhash equal))
        simp [gathered?, hf, unlike]

theorem mem_keepDetail {details : List (Value × Value)} {detail : Value} {e : Value × Value}
    (hm : e ∈ keepDetail id detail details) : e.1 = id ∨ ∃ old ∈ details, old.1 = e.1 := by
  induction details with
  | nil => exact Or.inl (congrArg Prod.fst (mem_singleton.mp hm))
  | cons a tl ih =>
    rw [keepDetail] at hm
    split at hm
    · rcases mem_cons.mp hm with rfl | later
      · exact Or.inr ⟨a, mem_cons_self, rfl⟩
      · exact Or.inr ⟨e, mem_cons_of_mem _ later, rfl⟩
    · rcases mem_cons.mp hm with rfl | later
      · exact Or.inr ⟨e, mem_cons_self, rfl⟩
      · refine (ih later).imp_right ?_
        rintro ⟨old, hi, hs⟩
        exact ⟨old, mem_cons_of_mem _ hi, hs⟩

theorem gathered?_gather (hdis : Distinct arrived) :
    (∀ e ∈ gather advisories arrived, e.1 ∈ arrived) ∧
      ∀ other, gathered? (gather advisories arrived) other =
        (arrived.find? (·.alike other)).bind (detail? advisories) := by
  induction arrived using List.reverseRecOn with
  | nil => exact ⟨forall_mem_nil _, fun _ => rfl⟩
  | append_singleton pre id ih =>
    obtain ⟨unlike, _, alone⟩ := pairwise_append.mp hdis.unlike
    obtain ⟨hhash, hh⟩ := forall_mem_append.mp hdis.hashable
    obtain ⟨keys, hk⟩ := ih ⟨hhash, unlike⟩
    have own := hh id (mem_singleton_self id)
    rw [gather, foldl_append, ← gather, foldl_cons, foldl_nil]
    cases fetched : detail? advisories id with
    | none =>
      refine ⟨fun e hm => mem_append_left _ (keys e hm), fun other => ?_⟩
      dsimp only
      rw [hk, find?_append]
      cases pre.find? (·.alike other) with
      | some a => rfl
      | none => cases hf : id.alike other <;> simp [hf, fetched]
    | some detail =>
      refine ⟨fun e hm => ?_, fun other => ?_⟩
      · rcases mem_keepDetail hm with hs | ⟨old, hi, hs⟩
        · rw [hs]
          exact mem_append_right _ (mem_singleton_self id)
        · rw [← hs]
          exact mem_append_left _ (keys old hi)
      · dsimp only
        rw [gathered?_keepDetail own fun e hm => hhash _ (keys e hm), hk, find?_append]
        cases hf : id.alike other with
        | false => cases pre.find? (·.alike other) <;> simp [hf]
        | true =>
          -- nothing before it is alike, or it would be alike to the identifier as well
          have none : pre.find? (·.alike other) = none := by
            refine find?_eq_none.mpr fun a hm equal => ?_
            have meets := Value.alike_trans (hhash a hm) equal (Value.alike_symm own hf)
            rw [(alone a hm id (mem_singleton_self id)).1] at meets
            cases meets
          simp [none, hf, fetched]

/-! ## Identifiers in the results -/

def entriesOf (r : Value) : List Value :=
  (r.lookup "vulns").itemsOrNone

/-- The result lists advisories, each with an identifier that may serve as a key, or with none. -/
structure Legible (result : Value) : Prop where
  listed : result.getD "vulns" (.list []) = .ok (.list (entriesOf result))
  entries : ∀ entry ∈ entriesOf result,
    entry.kind = .record ∧ (entry.lookup "id").unhashable? = none

def listedIds (res : List Value) : List Value :=
  res.flatMap fun r => ((entriesOf r).map (·.lookup "id")).filter (·.truthy)

def fetched (advs : Advisories) (res : List Value) (id : Value) : Option Value :=
  ((listedIds res).find? (·.alike id)).bind (detail? advs)

theorem get_of_kind {doc : Value} (dictionary : doc.kind = .record) (k : String) :
    doc.get k = .ok (doc.lookup k) := by
  cases doc <;> first | rfl | cases dictionary

theorem asKey_eq (hhash : id.unhashable? = none) : id.asKey = .ok id := by
  rw [Value.asKey, hhash]

def noteOnce (known : List Value) (id : Value) : List Value :=
  if id.among known then known else known ++ [id]

theorem identifiers_eq (hleg : ∀ r ∈ res, Legible r) :
    identifiers res = .ok ((listedIds res).foldl noteOnce []) := by
  have each : ∀ r ∈ res, (do
      let f ← (← r.getD "vulns" (.list [])).items let ids ← f.mapM fun e => do
        let id ← e.get "id" if id.truthy then return some (← id.asKey) else return none
      return ids.filterMap id : Outcome (List Value)) =
        .ok (((entriesOf r).map (·.lookup "id")).filter (·.truthy)) := by
    intro r hm
    obtain ⟨hl, entries⟩ := hleg r hm
    have items : (Value.list (entriesOf r)).items = .ok (entriesOf r) := rfl
    rw [bind_ok hl, bind_ok items, bind_ok (mapM_eq_ok_map fun e hi => ?_)]
    · rw [filterMap_map, ← filterMap_eq_filter, filterMap_map]
      rfl
    · obtain ⟨dictionary, hhash⟩ := entries e hi
      rw [bind_ok (get_of_kind dictionary "id"), asKey_eq hhash]
      split <;> rfl
  rw [identifiers, bind_ok (mapM_eq_ok_map each), listedIds]
  rfl

theorem foldl_noteOnce {known xs : List Value} (hdis : Distinct known)
    (hhash : ∀ id ∈ xs, id.unhashable? = none) :
    Distinct (xs.foldl noteOnce known) ∧ ∀ other, (xs.foldl noteOnce known).find? (·.alike other) =
        (known ++ xs).find? (·.alike other) := by
  induction xs generalizing known with
  | nil => exact ⟨hdis, fun other => by rw [append_nil, foldl_nil]⟩
  | cons id tl ih =>
    obtain ⟨hh, later⟩ := forall_mem_cons.mp hhash
    rw [foldl_cons, noteOnce]
    split
    · next among =>
      obtain ⟨kept, hf⟩ := ih hdis later
      refine ⟨kept, fun other => ?_⟩
      obtain ⟨a, hi, equal⟩ := List.any_eq_true.mp among
      rw [hf, find?_append, find?_append]
      cases earlier : known.find? (·.alike other) with
      | some _ => rfl
      | none =>
        have unlike : id.alike other = false := Bool.eq_false_iff.mpr fun meets =>
          find?_eq_none.mp earlier a hi (Value.alike_trans
            (hdis.hashable a hi) (Value.alike_symm hh equal) meets)
        rw [find?_cons, unlike]
    · next fresh =>
      have extended : Distinct (known ++ [id]) := by
        refine ⟨forall_mem_append.mpr ⟨hdis.hashable, forall_mem_singleton.mpr hh⟩,
          pairwise_append.mpr ⟨hdis.unlike, pairwise_singleton .., ?_⟩⟩
        intro a hi last single
        rw [mem_singleton.mp single]
        have unlike : id.alike a = false := Bool.eq_false_iff.mpr fun equal =>
          fresh (List.any_eq_true.mpr ⟨a, hi, equal⟩)
        refine ⟨Bool.eq_false_iff.mpr fun equal => ?_, unlike⟩
        rw [Value.alike_symm (hdis.hashable a hi) equal] at unlike
        cases unlike
      have next := ih extended later
      rwa [append_assoc] at next

theorem gathered?_eq_fetched (hleg : ∀ r ∈ res, Legible r)
    (permuted : arrived.Perm ((listedIds res).foldl noteOnce [])) :
    gathered? (gather advisories arrived) = fetched advisories res := by
  have hhash : ∀ id ∈ listedIds res, id.unhashable? = none := by
    intro id hm
    obtain ⟨r, hi, hm⟩ := mem_flatMap.mp hm
    obtain ⟨e, hl, rfl⟩ := List.mem_map.mp (mem_of_mem_filter hm)
    exact ((hleg r hi).entries e hl).2
  obtain ⟨hdis, hf⟩ := foldl_noteOnce ⟨forall_mem_nil _, .nil⟩ hhash
  funext other
  rw [(gathered?_gather (hdis.perm permuted)).2, hdis.find?_perm permuted, hf]
  rfl

/-! ## Findings -/

def isNumber : Value → Bool
  | .text nm => Str.startsWith "CVE-" nm
  | _ => false

def aliasesIn (detail : Value) : List Value :=
  ((detail.lookup? "aliases").map Value.items).elim [] fun
    | .ok aliases => aliases
    | .error _ => []

def numberIn (detail : Value) : Value :=
  ((aliasesIn detail).find? isNumber).getD (detail.lookup "id")

def severityIn (detail : Value) : String :=
  match (detail.lookup? "database_specific").map (Value.lookup · "severity") with
  | some (.text w) => if w.isEmpty then "medium" else Str.lower w
  | _ => "medium"

theorem held_bind {α : Type} {detail : Value} {k : String} {next : Value → Outcome α}
    {otherwise : Outcome α} (dictionary : detail.kind = .record) :
    (do
      if ← detail.holdsWord k then
        let v ← detail.need k
        next v
      else otherwise) = (detail.lookup? k).elim otherwise next := by
  cases detail with
  | record fs =>
    have held : (Value.record fs).holdsWord k = .ok (Value.field? k fs).isSome := by
      rw [Value.holdsWord, Value.field?, isSome_map, isSome_find?]
    rw [bind_ok held, Value.need, Value.lookup?]
    cases Value.field? k fs <;> rfl
  | table es => rfl
  | _ => cases dictionary

theorem first_number {aliases : List Value} {own n : Value} (hd : (do
      for e in aliases do
        let nm ← e.asText "startswith" if Str.startsWith "CVE-" nm then return e
      return own : Outcome Value) = .ok n) : n = (aliases.find? isNumber).getD own := by
  induction aliases with
  | nil =>
    cases hd
    rfl
  | cons e tl ih =>
    cases e with
    | text nm =>
      have hr : (Value.text nm).asText "startswith" = .ok nm := rfl
      rw [find?_cons, isNumber]
      simp only [forIn_cons, bind_ok hr] at hd
      cases hn : Str.startsWith "CVE-" nm with
      | true =>
        rw [hn] at hd
        cases hd
        rfl
      | false =>
        rw [hn] at hd
        exact ih hd
    | _ => cases hd

theorem eq_numberIn {detail n : Value} (dictionary : detail.kind = .record)
    (hd : numberOf detail = .ok n) : n = numberIn detail := by
  rw [numberOf, bind_ok (get_of_kind dictionary "id"), held_bind dictionary] at hd
  rw [numberIn, aliasesIn]
  generalize detail.lookup? "aliases" = aliased at hd
  cases aliased with
  | none =>
    cases hd
    rfl
  | some v =>
    obtain ⟨aliases, hl, hd⟩ := bind_eq_ok.mp hd
    rw [map_some, hl]
    exact first_number hd

theorem eq_severityIn {detail : Value} {w : String} (dictionary : detail.kind = .record)
    (hd : severityOf detail = .ok w) : w = severityIn detail := by
  rw [severityOf, held_bind dictionary] at hd
  rw [severityIn]
  generalize detail.lookup? "database_specific" = stated at hd
  cases stated with
  | none =>
    cases hd
    rfl
  | some specific =>
    obtain ⟨sev, stated, hd⟩ := bind_eq_ok.mp hd
    have form : specific.kind = .record := by cases specific <;> first | rfl | cases stated
    rw [get_of_kind form, Except.ok.injEq] at stated
    rw [map_some, stated]
    cases sev with
    | text c =>
      rw [Value.truthy] at hd
      dsimp only
      cases empty : c.isEmpty with
      | true =>
        rw [empty] at hd
        cases hd
        rfl
      | false =>
        rw [empty] at hd
        cases hd
        rfl
    | _ =>
      split at hd
      · cases hd
      · cases hd
        rfl

structure Describes (found : Value × Value) (record : Value) : Prop where
  dependency : record.get "dependency" = .ok found.1
  number : record.get "cve_id" = .ok (numberIn found.2)
  severity : record.get "severity" = .ok (.text (severityIn found.2))

theorem describes_finding {dep detail record : Value}
    (hd : finding dep detail = .ok record) : Describes (dep, detail) record := by
  obtain ⟨n, numbered, hd⟩ := bind_eq_ok.mp hd
  obtain ⟨sev, stated, hd⟩ := bind_eq_ok.mp hd
  obtain ⟨sum, _, hd⟩ := bind_eq_ok.mp hd
  split at hd
  -- the description is the summary, or else cut from the details
  on_goal 2 => obtain ⟨_, _, hd⟩ := bind_eq_ok.mp hd
  all_goals
    obtain ⟨desc, _, hd⟩ := bind_eq_ok.mp hd
    obtain ⟨own, hn, hd⟩ := bind_eq_ok.mp hd
    have dictionary : detail.kind = .record := by cases detail <;> first | rfl | cases hn
    cases hd
    rw [eq_numberIn dictionary numbered, eq_severityIn dictionary stated]
    exact ⟨rfl, rfl, rfl⟩

def isSevere (detail : Value) : Bool :=
  Str.lower (severityIn detail) == "high" || Str.lower (severityIn detail) == "critical"

theorem isSevere_of_finding {dep detail record : Value}
    (made : finding dep detail = .ok record) : (do
      let sev ← record.get "severity" if sev.truthy then
        let sev ← sev.lower return sev == "high" || sev == "critical"
      else return false : Outcome Bool) = .ok (isSevere detail) := by
  rw [bind_ok (describes_finding made).severity, Value.truthy, isSevere]
  cases empty : (severityIn detail).isEmpty with
  | true =>
    rw [String.isEmpty_iff.mp empty]
    rfl
  | false => rfl

theorem severeOnly_eq {f : List (Value × Value)} {records : List Value}
    (made : Forall₂ (fun f record => finding f.1 f.2 = .ok record) f records) :
    ∃ kept, severeOnly records = .ok kept ∧
      Forall₂ Describes (f.filter fun f => isSevere f.2) kept := by
  refine ⟨_, Findings.filterM_eq_ok_iff.mpr ⟨?_, rfl⟩, ?_⟩
  · induction made with
    | nil => exact forall_mem_nil _
    | cons hh _ ih =>
      exact forall_mem_cons.mpr ⟨⟨_, isSevere_of_finding hh⟩, ih⟩
  · refine (rel_filter (fun one record hk => ?_) made).imp fun _ _ => describes_finding
    change isSevere one.2 = true ↔ Findings.chosen _ record = true
    rw [Findings.chosen, isSevere_of_finding hk]
    rfl

def listedDetails (detailOf : Value → Option Value) (deps res : List Value) :
    List (Value × Value) :=
  (deps.zip res).flatMap fun (dep, r) =>
    (entriesOf r).filterMap fun e => (detailOf (e.lookup "id")).map (dep, ·)

theorem findingsFor_eq {detailOf : Value → Option Value} {dep r : Value} (hleg : Legible r) :
    findingsFor detailOf dep r = ((entriesOf r).filterMap fun e =>
        (detailOf (e.lookup "id")).map (dep, ·)).mapM fun f =>
          finding f.1 f.2 := by
  obtain ⟨hl, entries⟩ := hleg
  have items : (Value.list (entriesOf r)).items = .ok (entriesOf r) := rfl
  rw [findingsFor, bind_ok hl]
  refine mapM_filterMap fun e hi => ?_
  obtain ⟨dictionary, hhash⟩ := entries e hi
  rw [bind_ok (get_of_kind dictionary "id"), bind_ok (asKey_eq hhash)]
  cases detailOf (e.lookup "id") with
  | none => rfl
  | some detail =>
    cases finding dep detail <;> rfl

theorem findingsOf_eq {detailOf : Value → Option Value} {deps : List Value}
    (hleg : ∀ r ∈ res, Legible r) :
    findingsOf detailOf deps res =
      (listedDetails detailOf deps res).mapM (fun f => finding f.1 f.2) >>= severeOnly := by
  have each : ∀ pair ∈ deps.zip res, findingsFor detailOf pair.1 pair.2 = _ :=
    fun pair hm => findingsFor_eq (hleg pair.2 (of_mem_zip hm).2)
  have walked : findingsOf detailOf deps res =
      (deps.zip res).mapM (fun pair => findingsFor detailOf pair.1 pair.2) >>=
        fun f => severeOnly f.flatten := rfl
  rw [walked, listedDetails, ← mapM_flatten each]
  cases (deps.zip res).mapM fun pair => findingsFor detailOf pair.1 pair.2 <;> rfl

/-! ## The query -/

def isAskable (dep : Value) : Bool :=
  (dep.lookup "name").truthy && (dep.lookup "version").truthy &&
    !(dep.lookup "version").same (.text "unknown")

theorem questions_eq {deps : List Value}
    (dictionaries : ∀ dep ∈ deps, dep.kind = .record) (system : String) :
    ∃ asked, questions system deps = .ok asked ∧
      asked.map Prod.fst = deps.filter isAskable := by
  let question (dep : Value) : Value := .record
    [("package", .record [("name", dep.lookup "name"), ("ecosystem", .text system)]),
      ("version", dep.lookup "version")]
  have each : ∀ dep ∈ deps, (do
      let nm ← dep.get "name"
      let version ← dep.get "version"
      if nm.truthy && version.truthy && !version.same (.text "unknown") then
        return some (dep, Value.record
          [("package", .record [("name", nm), ("ecosystem", .text system)]), ("version", version)])
      else return none : Outcome (Option (Value × Value))) =
        .ok (if isAskable dep then some (dep, question dep) else none) := by
    intro dep hm
    have dictionary := dictionaries dep hm
    rw [bind_ok (get_of_kind dictionary "name"), bind_ok (get_of_kind dictionary "version"),
      isAskable]
    split <;> rfl
  refine ⟨_, bind_ok (mapM_eq_ok_map each), ?_⟩
  rw [filterMap_map, map_filterMap, ← filterMap_eq_filter]
  refine filterMap_congr fun dep _ => ?_
  cases askable : isAskable dep <;> simp [Option.guard]

def answerOf (advs : Advisories) : Outcome Value :=
  match advs.batch with
  | none => .error (.runtime "network down")
  | some reply =>
    if reply.status ≥ 400 then .error (.runtime s!"HTTP {reply.status}")
    else reply.body.getD "results" (.list [])

def resultsOf (advs : Advisories) : List Value :=
  match answerOf advs with
  | .ok answer => answer.itemsOrNone
  | .error _ => []

theorem perform_ask (questions : List Value) (s : Session) :
    (ask questions).perform s = (answerOf s.script.advisories,
      { s with calls := .record [("post", .text batchAddress),
        ("json", .record [("queries", .list questions)])] :: s.calls }) := by
  rw [answerOf]
  change Audit.perform (match s.script.advisories.batch with | none => _ | some _ => _) _ = _
  cases s.script.advisories.batch with
  | none => rfl
  | some reply =>
    dsimp only
    split
    · rfl
    · exact Audit.perform_ofOutcome _ _

theorem perform_assembly {s : Session} {nms fnds : List Value}
    (hf : findingsOf (gathered? (gather s.script.advisories
      (s.script.advisories.arrival ids))) nms res = .ok fnds) :
    (do
      let advs := (← get).script.advisories let details := gather advs (advs.arrival ids)
      Audit.ofOutcome (findingsOf (gathered? details) nms res) :
        Audit (List Value)).perform s = (.ok fnds, s) := by
  rw [← hf]
  exact (Audit.perform_get_bind).trans (Audit.perform_ofOutcome _ _)

/--
A query finds the same in every order in which the details arrive: for each dependency that was asked
for and each advisory in the result for it, in this order, one finding if the detail was fetched and
is severe.
-/
theorem advisories_found_in_any_order {dependencies : List Value} {language : String}
    (dictionaries : ∀ dependency ∈ dependencies, dependency.kind = .record)
    (listed : ∀ answer, answerOf advisories = .ok answer → answer = .list answer.itemsOrNone)
    (legible : ∀ result ∈ resultsOf advisories, Legible result)
    (detailed : ∀ found ∈ listedDetails (fetched advisories (resultsOf advisories))
      (dependencies.filter isAskable) (resultsOf advisories), Succeeds (finding found.1 found.2)) :
    ∃ findings,
      List.Forall₂ Describes ((listedDetails (fetched advisories (resultsOf advisories))
        (dependencies.filter isAskable) (resultsOf advisories)).filter fun found =>
          isSevere found.2) findings ∧
      ∀ (arrival : List Value → List Value) (session : Session),
        (∀ ids, (arrival ids).Perm ids) → session.script.advisories = { advisories with arrival } →
        ∃ after, (query (.list dependencies) (.text language)).perform session =
          (.ok findings, after) := by
  obtain ⟨records, made⟩ := succeeds_mapM.mpr detailed
  obtain ⟨findings, kept, described⟩ := severeOnly_eq (mapM_eq_ok_iff.mp made)
  have found := (findingsOf_eq legible).trans ((bind_ok made).trans kept)
  refine ⟨findings, described, fun arrival session permutes scripted => ?_⟩
  obtain ⟨asked, questioned, names⟩ := questions_eq dictionaries (ecosystem (Str.lower language))
  rw [← names] at found
  have lowered : (Value.text language).lower = .ok (Str.lower language) := rfl
  have items : (Value.list dependencies).items = .ok dependencies := rfl
  rw [query, lowered, Audit.perform_bind_ok (Audit.perform_ofOutcome _ _), items]
  change ∃ after, ((Audit.ofOutcome (questions _ dependencies)) >>= _).perform session = _
  rw [questioned, Audit.perform_bind_ok (Audit.perform_ofOutcome _ _)]
  dsimp only
  split
  · next empty =>
    rw [List.isEmpty_iff.mp empty] at found
    cases found
    exact ⟨_, rfl⟩
  · have tried := Audit.perform_attempt (ask (asked.map Prod.snd)) session
    have answer : answerOf session.script.advisories = answerOf advisories := by
      rw [scripted]
      rfl
    rw [perform_ask, answer] at tried
    rw [Audit.perform_bind_ok tried]
    cases known : answerOf advisories with
    | error fault =>
      rw [resultsOf, known, findingsOf, List.zip_nil_right] at found
      cases found
      exact ⟨_, rfl⟩
    | ok answer =>
      have results : answer.items = .ok (resultsOf advisories) := by
        rw [resultsOf, known, listed answer known]
        rfl
      have gathers : findingsOf (gathered? (gather session.script.advisories
          (session.script.advisories.arrival ((listedIds (resultsOf advisories)).foldl noteOnce []))))
          (asked.map Prod.fst) (resultsOf advisories) = .ok findings := by
        rw [scripted, gathered?_eq_fetched legible (permutes _)]
        exact found
      dsimp only
      rw [results, Audit.perform_bind_ok (Audit.perform_ofOutcome _ _), identifiers_eq legible,
        Audit.perform_bind_ok (Audit.perform_ofOutcome _ _)]
      split
      · exact ⟨_, (Audit.perform_bind_ok rfl).trans (perform_assembly gathers)⟩
      · exact ⟨_, perform_assembly gathers⟩

/-! Two packages share an advisory, and one of them has a milder one as well. -/

def sharedDetail : Value :=
  .record [("id", .text "GO-1"), ("aliases", .list [.text "GHSA-1", .text "CVE-2021-1"]),
    ("database_specific", .record [("severity", .text "HIGH")]), ("summary", .text "s")]

def mildDetail : Value :=
  .record [("id", .text "GO-2"), ("summary", .text "m")]

def sharedAdvisories : Advisories where
  batch := some ⟨200, .record [("results", .list [
    .record [("vulns", .list [.record [("id", .text "GO-1")]])],
    .record [("vulns", .list [.record [("id", .text "GO-2")], .record [("id", .text "GO-1")]])]])]⟩
  details := [("GO-1", ⟨200, sharedDetail⟩), ("GO-2", ⟨200, mildDetail⟩)]

def package (nm ver : String) : Value :=
  .record [("name", .text nm), ("version", .text ver)]

theorem advisories_found_in_any_order_of_shared :
    ∃ findings,
      List.Forall₂ Describes
        [(package "gin" "1.7", sharedDetail), (package "yaml" "2.2", sharedDetail)] findings ∧
      ∀ (arrival : List Value → List Value) (session : Session), (∀ ids, (arrival ids).Perm ids) →
        session.script.advisories = { sharedAdvisories with arrival } →
        ∃ after, (query (.list [package "gin" "1.7", package "toml" "unknown",
          package "yaml" "2.2"]) (.text "go")).perform session = (.ok findings, after) := by
  have details : listedDetails (fetched sharedAdvisories (resultsOf sharedAdvisories))
      ([package "gin" "1.7", package "toml" "unknown", package "yaml" "2.2"].filter isAskable)
      (resultsOf sharedAdvisories) = [(package "gin" "1.7", sharedDetail),
        (package "yaml" "2.2", mildDetail), (package "yaml" "2.2", sharedDetail)] := by cbv
  have severe : [(package "gin" "1.7", sharedDetail), (package "yaml" "2.2", mildDetail),
      (package "yaml" "2.2", sharedDetail)].filter (fun found => isSevere found.2) =
        [(package "gin" "1.7", sharedDetail), (package "yaml" "2.2", sharedDetail)] := rfl
  rw [← severe, ← details]
  refine advisories_found_in_any_order ?_ ?_ ?_ ?_
  · simp [package, Value.kind]
  · rintro answer ⟨⟩
    rfl
  · have results : resultsOf sharedAdvisories = [_, _] := rfl
    rw [results, List.forall_mem_cons, List.forall_mem_singleton]
    exact ⟨⟨rfl, List.forall_mem_singleton.mpr ⟨rfl, rfl⟩⟩,
      ⟨rfl, List.forall_mem_cons.mpr ⟨⟨rfl, rfl⟩, List.forall_mem_singleton.mpr ⟨rfl, rfl⟩⟩⟩⟩
  · rw [details, List.forall_mem_cons, List.forall_mem_cons, List.forall_mem_singleton]
    exact ⟨⟨_, rfl⟩, ⟨_, rfl⟩, ⟨_, rfl⟩⟩

end SourceAudit.Dependencies
