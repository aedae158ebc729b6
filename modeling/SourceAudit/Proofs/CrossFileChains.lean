import SourceAudit.Project.Chain
import SourceAudit.Proofs.ReplyShapes
import SourceAudit.Proofs.SortedValues

/-!
# Chains across files

A project index in which lines are whole numbers and names are texts always has its chains.  They are
numbered from one on, no two have the same key, each lies along a call edge, from a source that no
other source of the calling file is closer to the call than, to the first sink of the called file,
and every edge between a source and a sink has a chain with its key.  A limit cuts the list of all
chains off.
-/

open List

namespace SourceAudit.Outcome

variable {α β : Type} {first : Outcome α} {next : α → Outcome β} {mid : α → Prop} {final : β → Prop}

/-- The step ends with a value of the kind wanted. -/
def Gives (out : Outcome α) (wanted : α → Prop) : Prop :=
  ∃ v, out = .ok v ∧ wanted v

theorem Gives.bind (hb : Gives first mid)
    (he : ∀ v, mid v → Gives (next v) final) : Gives (first >>= next) final := by
  obtain ⟨v, rfl, hk⟩ := hb
  exact he v hk

theorem Gives.mapM {xs : List α} (each : ∀ x ∈ xs, Gives (next x) final) :
    Gives (xs.mapM next) fun vs => ∀ v ∈ vs, final v := by
  induction xs with
  | nil => exact ⟨[], rfl, forall_mem_nil _⟩
  | cons x tl ih =>
    rw [forall_mem_cons] at each
    rw [mapM_cons]
    refine each.1.bind fun v hk => (ih each.2).bind fun vs others => ?_
    exact ⟨v :: vs, rfl, forall_mem_cons.mpr ⟨hk, others⟩⟩

/-- What is left of a list of found values. -/
theorem Gives.found (final : β → Prop) {xs : List α} {step : α → Outcome (Option β)}
    (each : ∀ x ∈ xs, Gives (step x) fun f => ∀ v, f = some v → final v) :
    Gives (xs.mapM step) fun vs => ∀ v ∈ vs.filterMap id, final v := by
  obtain ⟨vs, hd, all⟩ := Gives.mapM each
  refine ⟨vs, hd, fun v hm => ?_⟩
  obtain ⟨f, hl, hs⟩ := mem_filterMap.mp hm
  exact all f hl v hs

end SourceAudit.Outcome

namespace SourceAudit.Project

open Outcome

/-! ## Documents -/

/-- A record with whole numbers and with texts in the fields given, where these are present. -/
structure Formed (numbers texts : List String) (document : Value) : Prop where
  record : document.kind = .record
  number : ∀ key ∈ numbers, document.lookup key = .null ∨ ∃ line, document.lookup key = .int line
  text : ∀ key ∈ texts, document.lookup key = .null ∨ ∃ name, document.lookup key = .text name

/-- A call edge names its files and has a number for its line. -/
structure FormedEdge (edge : Value) : Prop where
  fields : Formed [] ["from_file", "to_file"] edge
  line : ∃ line, edge.getD "line" (.int 0) = .ok (.int line)

/-- The document of a file: flows with the numbers of lines, and matches with the texts of rules. -/
structure FormedFile (info : Value) : Prop where
  record : ∃ fields, info = .record fields
  flows : Gives (listedIn info "taint_flows") fun flows =>
    ∀ flow ∈ flows, Formed ["source_line", "sink_line", "line"] [] flow
  found : Gives (listedIn info "pattern_matches") fun found =>
    ∀ entry ∈ found, Formed ["line"] ["rule_id", "rule_name", "description"] entry

structure FormedIndex (index : Value) (edges : List Value) : Prop where
  files : Gives (index.getD "files" (.record []) >>= Value.fields) fun files =>
    ∀ entry ∈ files, FormedFile entry.2
  listed : (index.getD "call_edges" (.list []) >>= Value.items) = .ok edges
  formed : ∀ edge ∈ edges, FormedEdge edge

section Formed

variable {numbers texts : List String} {document : Value} {k : String}

theorem Formed.get (formed : Formed numbers texts document) (key : String) :
    document.get key = .ok (document.lookup key) := by
  have record := formed.record
  cases document <;> first | rfl | cases record

theorem Formed.gives_number (formed : Formed numbers texts document) (hk : k ∈ numbers) :
    Gives (document.get k) fun ln => ln.truthy = true → ∃ n, ln = .int n := by
  refine ⟨_, formed.get k, fun ht => ?_⟩
  rcases formed.number k hk with absent | hpres
  · rw [absent] at ht
    cases ht
  · exact hpres

theorem Formed.gives_lower (formed : Formed numbers texts document) (hk : k ∈ texts) :
    Gives (do ((← document.get k).orElse (.text "")).lower) fun _ => True := by
  have text : Agent.TextOrAbsent (document.lookup k) := by
    rcases formed.text k hk with absent | ⟨nm, hpres⟩
    · exact fun ht => absurd ht (by rw [absent]; decide)
    · exact fun _ => by rw [hpres]; rfl
  obtain ⟨lowered, hd⟩ := (Agent.succeeds_lower_iff _ "").mpr text
  exact ⟨lowered, bind_eq_ok.mpr ⟨_, formed.get k, hd⟩, trivial⟩

end Formed

/-! ## Ends -/

/-- An end has the name of a file and a number for its line. -/
def Placed (pl : ChainEnd) : Prop :=
  ∃ file ln, pl.file = .text file ∧ pl.line = .int ln

/-- A place that is made where a line is given. -/
theorem gives_place {line : Value} (n : line.truthy = true → ∃ n, line = .int n)
    {made : Outcome (Option ChainEnd)} (file : String)
    (pl : Gives made fun f => ∃ rule, f = some { file := .text file, line, rule }) :
    Gives (if line.truthy = true then made else pure none)
      fun f => ∀ pl, f = some pl → Placed pl := by
  split_ifs with ht
  · obtain ⟨f, hd, rule, rfl⟩ := pl
    obtain ⟨v, rfl⟩ := n ht
    exact ⟨_, hd, fun pl hs => Option.some.inj hs ▸ ⟨file, v, rfl, rfl⟩⟩
  · exact ⟨none, rfl, fun pl hs => by cases hs⟩

theorem chainSources_placed {info : Value} (formed : FormedFile info) (file : String) :
    Gives (chainSources file info) fun srcs => ∀ src ∈ srcs, Placed src := by
  refine formed.flows.bind fun fls all => ?_
  refine (Gives.found Placed fun fl hm => ?_).bind fun f placed => ⟨_, rfl, placed⟩
  refine ((all fl hm).gives_number (.head _)).bind fun ln number => ?_
  exact gives_place number file ⟨_, rfl, .null, rfl⟩

theorem gives_isSinkMatch {f : Value} {ns : List String}
    (formed : Formed ns ["rule_id", "rule_name", "description"] f) :
    Gives (isSinkMatch f) fun _ => True := by
  refine (formed.gives_lower (by simp)).bind fun rl _ => ?_
  refine (formed.gives_lower (by simp)).bind fun nm _ => ?_
  exact (formed.gives_lower (by simp)).bind fun desc _ => ⟨_, rfl, trivial⟩

theorem chainSinks_placed {info : Value} (formed : FormedFile info) (file : String) :
    Gives (chainSinks file info) fun sinks => ∀ sink ∈ sinks, Placed sink := by
  refine formed.flows.bind fun fls all => ?_
  refine (Gives.found Placed fun fl hm => ?_).bind fun ends placed => ?_
  · have own := all fl hm
    have hl : "sink_line" ∈ ["source_line", "sink_line", "line"] := by simp
    refine (own.gives_number hl).bind fun sink hk => ?_
    split_ifs
    · exact gives_place hk file ⟨_, bind_ok (own.get "rule_id"), _, rfl⟩
    · refine (own.gives_number (by simp)).bind fun ln number => gives_place number file ?_
      exact ⟨_, bind_ok (own.get "rule_id"), _, rfl⟩
  refine formed.found.bind fun f each => ?_
  refine (Gives.found Placed fun e hm => ?_).bind fun others also =>
    ⟨_, rfl, fun sink ht => ?_⟩
  · have own := each e hm
    refine (gives_isSinkMatch own).bind fun dangerous _ => ?_
    cases dangerous with
    | false => exact ⟨none, rfl, fun _ hs => by cases hs⟩
    | true =>
      refine (own.gives_number (.head _)).bind fun ln number => gives_place number file ?_
      exact ⟨_, bind_ok (own.get "rule_id"), _, rfl⟩
  · rcases mem_append.mp ht with inFlows | inMatches
    · exact placed sink inFlows
    · exact also sink inMatches

/-- The ends in every file are placed. -/
def PlacedEnds (ends : List ChainEnds) : Prop :=
  ∀ e ∈ ends, ∀ pl ∈ e.sources ++ e.sinks, Placed pl

theorem chainEnds_placed {i : Value} {edges : List Value} (formed : FormedIndex i edges) :
    Gives (chainEnds i) PlacedEnds := by
  obtain ⟨files, hr, all⟩ := formed.files
  obtain ⟨doc, hl, fields⟩ := bind_eq_ok.mp hr
  rw [chainEnds, bind_ok hl, bind_ok fields]
  refine Gives.mapM fun ⟨file, info⟩ hm => ?_
  have own := all _ hm
  obtain ⟨inside, rfl⟩ := own.record
  refine (chainSources_placed own file).bind fun srcs placed => ?_
  refine (chainSinks_placed own file).bind fun sinks also => ⟨_, rfl, fun pl ht => ?_⟩
  rcases mem_append.mp ht with source | sink
  · exact placed pl source
  · exact also pl sink

/-! ## Along an edge -/

def sourcesAt (ends : List ChainEnds) (edge : Value) : List ChainEnd :=
  ((ends.find? fun e => (edge.lookup "from_file").same (.text e.file)).map (·.sources)).getD []

def sinksAt (ends : List ChainEnds) (edge : Value) : List ChainEnd :=
  ((ends.find? fun e => (edge.lookup "to_file").same (.text e.file)).map (·.sinks)).getD []

/-- How far a place is from a line. -/
def gap (pl : ChainEnd) (ln : Value) : Nat :=
  ((pl.line.whole?.getD 0) - (ln.whole?.getD 0)).natAbs

/-- A chain along an edge: from a closest source to the first sink. -/
structure Along (ends : List ChainEnds) (edge : Value) (chain : Chain) : Prop where
  file : chain.callFile = edge.lookup "from_file"
  line : edge.getD "line" (.int 0) = .ok chain.callLine
  call : chain.callName = edge.lookup "call_name"
  source : chain.source ∈ sourcesAt ends edge
  closest : ∀ other ∈ sourcesAt ends edge,
    gap chain.source chain.callLine ≤ gap other chain.callLine
  sink : (sinksAt ends edge).head? = some chain.sink

theorem less_ofNat (one other : Nat) :
    (Value.ofNat one).less "<" (Value.ofNat other) = .ok (decide (one < other)) := by
  rw [Value.ofNat, Value.ofNat, Value.less_eq (Value.rational?_int _) (Value.rational?_int _)]
  simp

theorem firstLeast_spec {α : Type} (size : α → Nat) (best : α) (xs : List α) :
    Gives (firstLeast (best, .ofNat (size best)) (xs.map fun x => (x, .ofNat (size x))))
      fun least => least ∈ best :: xs ∧ ∀ x ∈ best :: xs, size least ≤ size x := by
  induction xs generalizing best with
  | nil => exact ⟨best, rfl, .head _, by simp⟩
  | cons x tl ih =>
    rw [map_cons, firstLeast, less_ofNat, bind_ok rfl]
    by_cases closer : size x < size best
    · rw [decide_eq_true closer, if_pos rfl]
      obtain ⟨least, hd, hm, lower⟩ := ih x
      rw [forall_mem_cons] at lower
      refine ⟨least, hd, .tail _ hm, ?_⟩
      simp only [forall_mem_cons]
      exact ⟨by omega, lower⟩
    · rw [decide_eq_false closer, if_neg Bool.false_ne_true]
      obtain ⟨least, hd, hm, lower⟩ := ih best
      rw [forall_mem_cons] at lower
      refine ⟨least, hd, ?_, ?_⟩
      · rcases mem_cons.mp hm with rfl | later
        · exact .head _
        · exact .tail _ (.tail _ later)
      · simp only [forall_mem_cons]
        exact ⟨lower.1, by omega, lower.2⟩

theorem distance_of_placed {pl : ChainEnd} (placed : Placed pl) (ln : Int) :
    distance pl.line (.int ln) = .ok (.ofNat (gap pl (.int ln))) := by
  obtain ⟨file, own, _, hk⟩ := placed
  rw [gap, hk]
  cases own with
  | ofNat size => cases size <;> rfl
  | negSucc size => rfl

theorem closest?_spec {srcs : List ChainEnd} (placed : ∀ src ∈ srcs, Placed src) (ln : Int) :
    Gives (closest? (fun src : ChainEnd => .ok src.line) srcs (.int ln)) fun f =>
      (f = none ∧ srcs = []) ∨ ∃ src ∈ srcs, f = some src ∧
        ∀ other ∈ srcs, gap src (.int ln) ≤ gap other (.int ln) := by
  have measured : srcs.mapM (fun src => do
        return (src, ← distance (← (.ok src.line : Outcome Value)) (.int ln))) =
      .ok (srcs.map fun src => (src, .ofNat (gap src (.int ln)))) :=
    mapM_eq_ok_map fun src hm => bind_ok (distance_of_placed (placed src hm) ln)
  rw [closest?, bind_ok measured]
  cases srcs with
  | nil => exact ⟨none, rfl, .inl ⟨rfl, rfl⟩⟩
  | cons a tl =>
    refine (firstLeast_spec (gap · (.int ln)) a tl).bind fun src least => ?_
    exact ⟨_, rfl, .inr ⟨src, least.1, rfl, least.2⟩⟩

theorem endsIn_eq {edge : Value} (formed : FormedEdge edge) {k : String}
    (hk : k ∈ ["from_file", "to_file"]) (ends : List ChainEnds) :
    endsIn ends (edge.lookup k) =
      .ok (ends.find? fun e => (edge.lookup k).same (.text e.file)) := by
  rcases formed.fields.text k hk with absent | ⟨nm, hpres⟩
  · rw [absent]
    rfl
  · rw [hpres]
    rfl

theorem PlacedEnds.of_find? {ends : List ChainEnds} (placed : PlacedEnds ends)
    {wanted : ChainEnds → Bool} {select : ChainEnds → List ChainEnd}
    (part : ∀ e, select e ⊆ e.sources ++ e.sinks) :
    ∀ pl ∈ ((ends.find? wanted).map select).getD [], Placed pl := by
  cases hf : ends.find? wanted with
  | none => exact forall_mem_nil _
  | some e =>
    exact fun pl hm => placed e (mem_of_find?_eq_some hf) pl (part e hm)

theorem PlacedEnds.source {ends : List ChainEnds} (placed : PlacedEnds ends) {edge : Value} :
    ∀ src ∈ sourcesAt ends edge, Placed src :=
  placed.of_find? fun _ => subset_append_left _ _

theorem PlacedEnds.sink {ends : List ChainEnds} (placed : PlacedEnds ends) {edge : Value} :
    ∀ sink ∈ sinksAt ends edge, Placed sink :=
  placed.of_find? fun _ => subset_append_right _ _

theorem chainAlong?_spec {ends : List ChainEnds} (placed : PlacedEnds ends) {edge : Value}
    (formed : FormedEdge edge) (n : Nat) :
    Gives (chainAlong? ends n edge) fun f =>
      (f = none ∧ (sourcesAt ends edge = [] ∨ sinksAt ends edge = [])) ∨
        ∃ chain, f = some chain ∧ chain.number = n ∧ Along ends edge chain := by
  obtain ⟨ln, hk⟩ := formed.line
  rw [chainAlong?, bind_ok (formed.fields.get _), bind_ok (formed.fields.get _), bind_ok hk,
    bind_ok (endsIn_eq formed (by simp) ends), bind_ok (endsIn_eq formed (by simp) ends)]
  dsimp only
  split
  · next sinks => exact ⟨none, rfl, .inl ⟨rfl, .inr sinks⟩⟩
  · next sink tl sinks =>
    refine (closest?_spec placed.source ln).bind fun f chosen => ?_
    rcases chosen with ⟨rfl, empty⟩ | ⟨src, hm, rfl, closest⟩
    · exact ⟨none, rfl, .inl ⟨rfl, .inl empty⟩⟩
    · refine ⟨_, bind_ok (formed.fields.get "call_name"), .inr ⟨_, rfl, rfl, ?_⟩⟩
      exact ⟨rfl, hk, rfl, hm, closest, congrArg List.head? sinks⟩

/-! ## Along all edges -/

/-- The key of a chain is made of names and numbers. -/
def Keyed (chain : Chain) : Prop :=
  ∃ src ln sink last call,
    chain.key = .tuple [.text src, .int ln, .text sink, .int last, .int call]

theorem Along.keyed {ends : List ChainEnds} (placed : PlacedEnds ends) {edge : Value}
    (formed : FormedEdge edge) {chain : Chain} (along : Along ends edge chain) : Keyed chain := by
  obtain ⟨src, ln, sourceFile, sourceLine⟩ := placed.source _ along.source
  obtain ⟨sink, last, sinkFile, sinkLine⟩ := placed.sink _ (mem_of_head? along.sink)
  obtain ⟨call, hk⟩ := formed.line
  have callLine : chain.callLine = .int call := Except.ok.inj (along.line.symm.trans hk)
  exact ⟨src, ln, sink, last, call, by
    rw [Chain.key, sourceFile, sourceLine, sinkFile, sinkLine, callLine]⟩

theorem same_int (one other : Int) : (Value.int one).same (.int other) = decide (one = other) := by
  rw [Value.same_eq (Value.rational?_int _) (Value.rational?_int _)]
  simp

theorem Keyed.alike_iff {chain other : Chain} (own : Keyed chain) (also : Keyed other) :
    chain.key.alike other.key = true ↔ chain.key = other.key := by
  obtain ⟨_, _, _, _, _, own⟩ := own
  obtain ⟨_, _, _, _, _, also⟩ := also
  have same_text (one other : String) : (Value.text one).same (.text other) = (one == other) := by
    rw [Value.same]
  rw [own, also, Value.alike, Value.same]
  simp only [Value.sameItems, same_int, same_text, Value.sameNaN, Bool.false_or, Bool.and_eq_true,
    beq_iff_eq, decide_eq_true_eq, Value.tuple.injEq, List.cons.injEq, Value.text.injEq,
    Value.int.injEq]

theorem Keyed.among_iff {chain : Chain} (own : Keyed chain) {f : List Chain}
    (all : ∀ other ∈ f, Keyed other) :
    chain.key.among (f.map (·.key)) = true ↔ chain.key ∈ f.map (·.key) := by
  rw [Value.among, any_map, any_eq_true, mem_map]
  refine exists_congr fun other => and_congr_right fun hm => ?_
  exact (own.alike_iff (all other hm)).trans eq_comm

/-- The chains along the edges done so far. -/
structure Collected (ends : List ChainEnds) (done : List Value) (found : List Chain) : Prop where
  numbers : found.map (·.number) = List.range' 1 found.length
  distinct : (found.map (·.key)).Nodup
  grounded : ∀ chain ∈ found, ∃ edge ∈ done, Along ends edge chain
  covers : ∀ edge ∈ done, sourcesAt ends edge ≠ [] → sinksAt ends edge ≠ [] →
    ∃ chain ∈ found, ∃ own, Along ends edge own ∧ chain.key = own.key

theorem reaches_int (n lim : Nat) : reaches n (.int lim) = .ok (decide (0 < lim ∧ lim ≤ n)) := by
  cases lim with
  | zero => rfl
  | succ lim =>
    have compared : (Value.int n).compareNumbers (.int (lim + 1 : Nat)) =
        some (compare (n : Int) (lim + 1 : Nat)) := by
      simp [Value.compareNumbers, Value.isNaN, Value.infinite?, Value.ratio?]
    change (Value.int n).atLeast (.int (lim + 1 : Nat)) = _
    simp only [Value.atLeast, Value.isNumber, Bool.and_self, if_true, compared]
    rcases lt_trichotomy (n : Int) (lim + 1 : Nat) with less | equal | more
    · rw [compare_lt_iff_lt.mpr less, decide_eq_false (by omega)]
    · rw [compare_eq_iff_eq.mpr equal, decide_eq_true (by omega)]
    · rw [compare_gt_iff_gt.mpr more, decide_eq_true (by omega)]

/-- One more edge without a chain of its own. -/
theorem Collected.skip {ends : List ChainEnds} {done : List Value} {f : List Chain}
    (hcol : Collected ends done f) {edge : Value}
    (covered : sourcesAt ends edge ≠ [] → sinksAt ends edge ≠ [] →
      ∃ chain ∈ f, ∃ own, Along ends edge own ∧ chain.key = own.key) :
    Collected ends (done ++ [edge]) f where
  numbers := hcol.numbers
  distinct := hcol.distinct
  grounded chain hm := by
    obtain ⟨before, ht, along⟩ := hcol.grounded chain hm
    exact ⟨before, mem_append_left _ ht, along⟩
  covers := by
    simp only [forall_mem_append, forall_mem_singleton]
    exact ⟨hcol.covers, covered⟩

/-- One more edge with a chain of its own. -/
theorem Collected.add {ends : List ChainEnds} {done : List Value} {f : List Chain}
    (hcol : Collected ends done f) {edge : Value} {chain : Chain}
    (along : Along ends edge chain) (next : chain.number = f.length + 1)
    (fresh : chain.key ∉ f.map (·.key)) : Collected ends (done ++ [edge]) (f ++ [chain]) where
  numbers := by
    rw [map_append, hcol.numbers, length_append, length_singleton,
      range'_1_concat, map_singleton, next, Nat.add_comm]
  distinct := by
    rw [map_append, map_singleton, nodup_append]
    refine ⟨hcol.distinct, nodup_singleton _, ?_⟩
    rintro k ht _ hs rfl
    exact fresh (mem_singleton.mp hs ▸ ht)
  grounded := by
    simp only [forall_mem_append, forall_mem_singleton]
    refine ⟨fun before hm => ?_, edge, mem_append_right _ (.head _), along⟩
    obtain ⟨other, ht, own⟩ := hcol.grounded before hm
    exact ⟨other, mem_append_left _ ht, own⟩
  covers := by
    simp only [forall_mem_append, forall_mem_singleton]
    refine ⟨fun before hm sources sinks => ?_, fun _ _ => ?_⟩
    · obtain ⟨other, ht, own⟩ := hcol.covers before hm sources sinks
      exact ⟨other, mem_append_left _ ht, own⟩
    · exact ⟨chain, mem_append_right _ (.head _), chain, along, rfl⟩

/-- What one edge adds, and that the limit is met only by what it adds. -/
theorem chainsAlong_step {ends : List ChainEnds} (placed : PlacedEnds ends) {edge : Value}
    (formed : FormedEdge edge) {done : List Value} {f : List Chain}
    (keyed : ∀ chain ∈ f, Keyed chain) (hcol : Collected ends done f) (tl : List Value) :
    ∃ after, f <+: after ∧ after.length ≤ f.length + 1 ∧
      (∀ chain ∈ after, Keyed chain) ∧ Collected ends (done ++ [edge]) after ∧
      ∀ lim : Nat, lim = 0 ∨ f.length < lim →
        chainsAlong ends (.int lim) f (edge :: tl) =
          if 0 < lim ∧ lim ≤ after.length then .ok after
          else chainsAlong ends (.int lim) after tl := by
  obtain ⟨next, step, outcome⟩ := chainAlong?_spec placed formed (f.length + 1)
  rcases outcome with ⟨rfl, hmiss⟩ | ⟨chain, rfl, number, along⟩
  · refine ⟨f, prefix_refl _, Nat.le_succ _, keyed,
      hcol.skip fun sources sinks => (hmiss.elim sources sinks).elim, fun lim short => ?_⟩
    rw [chainsAlong, bind_ok step, if_neg (by omega)]
  · have own := along.keyed placed formed
    have key : chain.key.asKey = .ok chain.key := by
      obtain ⟨_, _, _, _, _, own⟩ := own
      rw [own]
      rfl
    by_cases seen : chain.key ∈ f.map (·.key)
    · obtain ⟨before, ht, hs⟩ := mem_map.mp seen
      refine ⟨f, prefix_refl _, Nat.le_succ _, keyed,
        hcol.skip fun _ _ => ⟨before, ht, chain, along, hs⟩, fun lim short => ?_⟩
      rw [chainsAlong, bind_ok step, if_neg (by omega)]
      dsimp only
      rw [bind_ok key, if_pos ((own.among_iff keyed).mpr seen)]
    · refine ⟨f ++ [chain], prefix_append _ _, by simp,
        forall_mem_append.mpr ⟨keyed, forall_mem_singleton.mpr own⟩,
        hcol.add along number seen, fun lim short => ?_⟩
      rw [chainsAlong, bind_ok step]
      dsimp only
      rw [bind_ok key, if_neg (mt (own.among_iff keyed).mp seen), reaches_int, bind_ok rfl]
      simp only [decide_eq_true_eq]

theorem chainsAlong_spec {ends : List ChainEnds} (placed : PlacedEnds ends) {tl : List Value}
    (formed : ∀ edge ∈ tl, FormedEdge edge) {done : List Value} {f : List Chain}
    (keyed : ∀ chain ∈ f, Keyed chain) (hcol : Collected ends done f) :
    ∃ all, f <+: all ∧ Collected ends (done ++ tl) all ∧
      chainsAlong ends (.int 0) f tl = .ok all ∧
      ∀ lim : Nat, f.length < lim → chainsAlong ends (.int lim) f tl = .ok (all.take lim) := by
  induction tl generalizing done f with
  | nil =>
    refine ⟨f, prefix_refl _, by rwa [append_nil], rfl, fun lim short => ?_⟩
    rw [chainsAlong, take_of_length_le (Nat.le_of_lt short)]
  | cons edge tl ih =>
    rw [forall_mem_cons] at formed
    obtain ⟨after, kept, bounded, hk, through, step⟩ :=
      chainsAlong_step placed formed.1 keyed hcol tl
    obtain ⟨all, grows, whole, he, cut⟩ := ih formed.2 hk through
    rw [append_cons]
    refine ⟨all, kept.trans grows, whole, ?_, fun lim short => ?_⟩
    · exact (step 0 (.inl rfl)).trans he
    · rw [step lim (.inr short)]
      split_ifs with full
      · have last : lim = after.length := by omega
        rw [last, ← prefix_iff_eq_take.mp grows]
      · exact cut lim (by omega)

/--
The chains of a project index are numbered from one on, are distinct by their keys, lie along edges
from a closest source to the first sink, and represent every edge between a source and a sink; and a
limit keeps the first of them.
-/
theorem chains_grounded_and_cut_by_limit {index : Value} {edges : List Value}
    (formed : FormedIndex index edges) :
    ∃ ends all, chainEnds index = .ok ends ∧ chains index (.int 0) = .ok all ∧
      Collected ends edges all ∧
      ∀ limit : Nat, 0 < limit → chains index (.int limit) = .ok (all.take limit) := by
  obtain ⟨ends, read, placed⟩ := chainEnds_placed formed
  obtain ⟨document, there, listed⟩ := bind_eq_ok.mp formed.listed
  have start : Collected ends [] [] :=
    ⟨rfl, List.nodup_nil, List.forall_mem_nil _, List.forall_mem_nil _⟩
  obtain ⟨all, _, collected, done, cut⟩ :=
    chainsAlong_spec placed formed.formed (List.forall_mem_nil _) start
  have chains_eq (limit : Value) : chains index limit = chainsAlong ends limit [] edges := by
    rw [chains, bind_ok there, bind_ok read, bind_ok listed]
  refine ⟨ends, all, read, (chains_eq _).trans done, collected, fun limit positive => ?_⟩
  exact (chains_eq _).trans (cut limit positive)

/-- Two calls from one file into another, with a source in the one and a sink in the other. -/
def twoCalls : Value :=
  .record [("files", .record [
      ("a", .record [("taint_flows", .list [.record [("source_line", .int 1)]])]),
      ("b", .record [("taint_flows", .list [.record [("sink_line", .int 2)]])])]),
    ("call_edges", .list ([3, 4].map fun ln =>
      .record [("from_file", .text "a"), ("to_file", .text "b"), ("line", .int ln)]))]

theorem twoCalls_cut_to_one :
    ∃ all, chains twoCalls (.int 0) = .ok all ∧ all.map (·.number) = List.range' 1 all.length ∧
      chains twoCalls (.int 1) = .ok (all.take 1) := by
  have file {flow : Value} (formed : Formed ["source_line", "sink_line", "line"] [] flow) :
      FormedFile (.record [("taint_flows", .list [flow])]) :=
    ⟨⟨_, rfl⟩, ⟨_, rfl, List.forall_mem_singleton.mpr formed⟩, ⟨_, rfl, List.forall_mem_nil _⟩⟩
  have formed : FormedIndex twoCalls ([3, 4].map fun line =>
      .record [("from_file", .text "a"), ("to_file", .text "b"), ("line", .int line)]) := by
    refine ⟨⟨_, rfl, ?_⟩, rfl, ?_⟩
    · simp only [List.forall_mem_cons]
      exact ⟨file ⟨rfl, by simp [Value.lookup, Value.lookup?, Value.field?], by simp⟩,
        file ⟨rfl, by simp [Value.lookup, Value.lookup?, Value.field?], by simp⟩,
        List.forall_mem_nil _⟩
    · simp only [List.forall_mem_map]
      exact fun line _ =>
        ⟨⟨rfl, by simp, by simp [Value.lookup, Value.lookup?, Value.field?]⟩, line, rfl⟩
  obtain ⟨_, all, _, whole, collected, cut⟩ := chains_grounded_and_cut_by_limit formed
  exact ⟨all, whole, collected.numbers, cut 1 Nat.one_pos⟩

end SourceAudit.Project
