import SourceAudit.Proofs.Computation
import SourceAudit.Source.LineTaint
import Mathlib

/-!
# Taint by lines is reachability

Taint analysis of Go and Java reads a source line by line. This module states, without the
analyser's environment, which variables are tainted after which line, and proves that the analysis
finds exactly what that relation says: a line has a flow if and only if it calls a sink and mentions
either a source or a variable that is tainted after it.
-/

open List

namespace SourceAudit.Source

open Outside

/-! ## Languages analysed by lines -/

inductive Dialect where
  | go
  | java
deriving DecidableEq, Repr

namespace Dialect

def title : Dialect → String
  | .go => "Go"
  | .java => "Java"

def name : Dialect → String
  | .go => "go"
  | .java => "java"

def taintRules : Dialect → TaintRules
  | .go => Go.taintRules
  | .java => Java.taintRules

def taintFlows : Dialect → String → Audit (List LineFlow)
  | .go => Go.taintFlows
  | .java => Java.taintFlows

end Dialect

/-! ## Reachability -/

def codeLines (src : List Char) : List (List Char) :=
  (stripLines (Text.splitNewline src)).map Text.trim

def lineAt? (ls : List (List Char)) : Nat → Option (List Char)
  | 0 => none
  | n + 1 => ls[n]?

/--
A variable is tainted after a line when it was tainted before, or when the line assigns it and
mentions a source, or when the line assigns it a value that mentions a variable tainted before.
-/
inductive TaintedAfter (rs : TaintRules) (ls : List (List Char)) :
    Nat → List Char → Prop where
  | kept {n : Nat} {nm : List Char}
      (before : TaintedAfter rs ls n nm) :
      TaintedAfter rs ls (n + 1) nm
  | source {n : Nat} {nm code : List Char} {asg : Assignment}
      (hh : lineAt? ls (n + 1) = some code)
      (assigns : rs.assignment? code = some asg)
      (target : nm ∈ asg.targets)
      (mentions : rs.hasSource code = true) :
      TaintedAfter rs ls (n + 1) nm
  | copied {n : Nat} {nm other code : List Char} {asg : Assignment}
      (hh : lineAt? ls (n + 1) = some code)
      (assigns : rs.assignment? code = some asg)
      (target : nm ∈ asg.targets)
      (hne : asg.value ≠ [])
      (before : TaintedAfter rs ls n other)
      (mentions : Text.occursWhole other asg.value = true) :
      TaintedAfter rs ls (n + 1) nm

def SinkRule.Calls (rl : SinkRule) (code : List Char) : Prop :=
  (rl.pattern.search? code).isSome = true

def FirstSink (rs : TaintRules) (rl : SinkRule) (code : List Char) : Prop :=
  ∃ earlier later,
    rs.sinks = earlier ++ rl :: later ∧ rl.Calls code ∧
      ∀ other ∈ earlier, ¬ other.Calls code

def Reached (rs : TaintRules) (ls : List (List Char)) (n : Nat) : Prop :=
  ∃ code,
    lineAt? ls n = some code ∧ (∃ rl ∈ rs.sinks, rl.Calls code) ∧
      (rs.hasSource code = true ∨ ∃ nm, TaintedAfter rs ls n nm ∧ Text.occursWhole nm code = true)

structure Licensed (rules : TaintRules) (lines : List (List Char)) (flow : LineFlow) :
    Prop where
  rule : FirstSink rules flow.rule flow.sink.code
  sink : lineAt? lines flow.sink.line = some flow.sink.code
  origin : lineAt? lines flow.origin.line = some flow.origin.code
  positive : 1 ≤ flow.origin.line
  above : flow.origin.line ≤ flow.sink.line
  source : rules.hasSource flow.origin.code = true

/-! ## What the environment knows -/

namespace Environment

def Knows (env : Environment) (nm : List Char) : Prop :=
  ∃ origin, (nm, origin) ∈ env

variable {env : Environment} {nm : List Char} {origin : Origin}

theorem mem_taint {e : List Char × Origin} (hm : e ∈ env.taint nm origin) :
    e.2 = origin ∨ e ∈ env := by
  induction env with
  | nil =>
    have equal : e = (nm, origin) := by simpa [taint] using hm
    exact Or.inl (by rw [equal])
  | cons head tl ih =>
    rw [taint] at hm
    split_ifs at hm with same
    · rcases mem_cons.mp hm with equal | old
      · exact Or.inl (by rw [equal])
      · exact Or.inr (mem_cons_of_mem _ old)
    · rcases mem_cons.mp hm with equal | later
      · exact Or.inr (by rw [equal]; exact mem_cons_self)
      · rcases ih later with new | old
        · exact Or.inl new
        · exact Or.inr (mem_cons_of_mem _ old)

theorem knows_cons {head : List Char × Origin} {tl : Environment} :
    Knows (head :: tl) nm ↔ nm = head.1 ∨ Knows tl nm := by
  constructor
  · rintro ⟨origin, hm⟩
    rcases mem_cons.mp hm with equal | later
    · exact Or.inl (by rw [← equal])
    · exact Or.inr ⟨origin, later⟩
  · rintro (equal | ⟨origin, later⟩)
    · exact ⟨head.2, by rw [equal]; exact mem_cons_self⟩
    · exact ⟨origin, mem_cons_of_mem _ later⟩

theorem knows_taint {other : List Char} :
    (env.taint nm origin).Knows other ↔ other = nm ∨ env.Knows other := by
  induction env with
  | nil => simp [taint, Knows]
  | cons head tl ih =>
    rw [taint]
    split_ifs with hs
    · rw [knows_cons, knows_cons, hs]
      simp only [or_self_left]
    · rw [knows_cons, knows_cons, ih]
      exact or_left_comm

theorem mem_taintAll {nms : List (List Char)} {e : List Char × Origin}
    (hm : e ∈ env.taintAll nms origin) : e.2 = origin ∨ e ∈ env := by
  induction nms generalizing env with
  | nil => exact Or.inr hm
  | cons nm nms ih =>
    rcases ih hm with new | old
    · exact Or.inl new
    · exact mem_taint old

theorem knows_taintAll {nms : List (List Char)} {other : List Char} :
    (env.taintAll nms origin).Knows other ↔ other ∈ nms ∨ env.Knows other := by
  induction nms generalizing env with
  | nil => simp [taintAll]
  | cons nm nms ih =>
    change ((env.taint nm origin).taintAll nms origin).Knows other ↔ _
    rw [ih, knows_taint, mem_cons, or_left_comm, or_assoc]

theorem mem_of_origin? {t : List Char} (hf : env.origin? t = some origin) :
    ∃ nm, (nm, origin) ∈ env ∧ Text.occursWhole nm t = true := by
  obtain ⟨e, h1, rfl⟩ := Option.map_eq_some_iff.mp hf
  have mentions : Text.occursWhole e.1 t = true :=
    find?_some (p := fun known : List Char × Origin => Text.occursWhole known.1 t) h1
  exact ⟨e.1, mem_of_find?_eq_some h1, mentions⟩

theorem not_mentions_of_origin? {t : List Char} (hmiss : env.origin? t = none)
    (hk : env.Knows nm) : Text.occursWhole nm t ≠ true := by
  obtain ⟨origin, hm⟩ := hk
  exact find?_eq_none.mp (Option.map_eq_none_iff.mp hmiss) _ hm

end Environment

/-! ## The invariant along the lines -/

structure Tracks (rules : TaintRules) (lines : List (List Char)) (number : Nat)
    (environment : Environment) : Prop where
  knows : ∀ name, environment.Knows name ↔ TaintedAfter rules lines number name
  origins : ∀ entry ∈ environment,
    entry.2.line ≤ number ∧ lineAt? lines entry.2.line = some entry.2.code ∧
      rules.hasSource entry.2.code = true

variable {ls : List (List Char)} {n : Nat} {code : List Char}

theorem lineAt?_positive (hh : lineAt? ls n = some code) : 1 ≤ n := by
  cases n with
  | zero => simp [lineAt?] at hh
  | succ n => exact Nat.le_add_left 1 n

variable {rs : TaintRules}

theorem taintedAfter_zero {nm : List Char} : ¬ TaintedAfter rs ls 0 nm := by
  intro tainted
  cases tainted

theorem taintedAfter_succ_iff {nm : List Char} (hh : lineAt? ls (n + 1) = some code) :
    TaintedAfter rs ls (n + 1) nm ↔
      TaintedAfter rs ls n nm ∨
        ∃ asg, rs.assignment? code = some asg ∧ nm ∈ asg.targets ∧ (rs.hasSource code = true ∨
            ∃ other, TaintedAfter rs ls n other ∧ Text.occursWhole other asg.value = true) := by
  constructor
  · intro tainted
    cases tainted with
    | kept before => exact Or.inl before
    | source ht assigns target mentions =>
      rw [hh] at ht
      cases ht
      exact Or.inr ⟨_, assigns, target, Or.inl mentions⟩
    | copied ht assigns target hne before mentions =>
      rw [hh] at ht
      cases ht
      exact Or.inr ⟨_, assigns, target, Or.inr ⟨_, before, mentions⟩⟩
  · rintro (before | ⟨asg, assigns, target, mentions | ⟨other, before, mentions⟩⟩)
    · exact .kept before
    · exact .source hh assigns target mentions
    · have hne : asg.value ≠ [] := by
        intro empty
        simp [empty, Text.occursWhole, Text.occursWholeAfter] at mentions
      exact .copied hh assigns target hne before mentions

variable {env : Environment}

theorem Tracks.keep (tracks : Tracks rs ls n env)
    (nothing : ∀ nm, TaintedAfter rs ls (n + 1) nm →
      TaintedAfter rs ls n nm) :
    Tracks rs ls (n + 1) env where
  knows nm := (tracks.knows nm).trans ⟨.kept, nothing nm⟩
  origins e hm :=
    have origin := tracks.origins e hm
    ⟨Nat.le_succ_of_le origin.1, origin.2⟩

theorem Tracks.taintAll {nms : List (List Char)} {origin : Origin} (tracks : Tracks rs ls n env)
    (grown : ∀ nm, TaintedAfter rs ls (n + 1) nm ↔
      nm ∈ nms ∨ TaintedAfter rs ls n nm) (above : origin.line ≤ n + 1)
    (ht : lineAt? ls origin.line = some origin.code) (source : rs.hasSource origin.code = true) :
    Tracks rs ls (n + 1) (env.taintAll nms origin) where
  knows nm := by
    rw [Environment.knows_taintAll, grown, tracks.knows]
  origins e hm := by
    rcases Environment.mem_taintAll hm with new | old
    · rw [new]
      exact ⟨above, ht, source⟩
    · have hk := tracks.origins e old
      exact ⟨Nat.le_succ_of_le hk.1, hk.2⟩

theorem Tracks.step (tracks : Tracks rs ls n env) (hh : lineAt? ls (n + 1) = some code) :
    Tracks rs ls (n + 1) (rs.step env { line := n + 1, code }) := by
  have after : ∀ nm, TaintedAfter rs ls (n + 1) nm ↔ _ := fun nm => taintedAfter_succ_iff hh
  rw [TaintRules.step]
  cases assigned : rs.assignment? code with
  | none =>
    apply tracks.keep
    intro nm tainted
    rcases (after nm).mp tainted with before | ⟨_, assigns, _⟩
    · exact before
    · rw [assigned] at assigns
      cases assigns
  | some asg =>
    have grows : ∀ nm, TaintedAfter rs ls (n + 1) nm ↔ TaintedAfter rs ls n nm ∨ nm ∈ asg.targets ∧
          (rs.hasSource code = true ∨ ∃ other, TaintedAfter rs ls n other ∧
              Text.occursWhole other asg.value = true) := by
      intro nm
      rw [after nm, assigned]
      simp
    dsimp only
    split_ifs with empty mentions
    · apply tracks.keep
      intro nm tainted
      rcases (grows nm).mp tainted with before | ⟨target, _⟩
      · exact before
      · rw [List.isEmpty_iff.mp empty] at target
        cases target
    · refine tracks.taintAll ?_ (Nat.le_refl _) hh mentions
      intro nm
      rw [grows nm]
      simp [mentions, or_comm]
    · cases hf : env.origin? asg.value with
      | none =>
        apply tracks.keep
        intro nm tainted
        rcases (grows nm).mp tainted with before | ⟨_, source | ⟨other, hk, mention⟩⟩
        · exact before
        · exact absurd source mentions
        · exact absurd mention
            (Environment.not_mentions_of_origin? hf ((tracks.knows other).mpr hk))
      | some origin =>
        obtain ⟨other, hm, mention⟩ := Environment.mem_of_origin? hf
        have hk := (tracks.knows other).mp ⟨origin, hm⟩
        obtain ⟨above, ht, source⟩ := tracks.origins _ hm
        refine tracks.taintAll ?_ (Nat.le_succ_of_le above) ht source
        intro nm
        have copies : ∃ other, TaintedAfter rs ls n other ∧
            Text.occursWhole other asg.value = true :=
          ⟨other, hk, mention⟩
        rw [grows nm]
        simp [copies, or_comm]

/-! ## The flows of a line -/

variable {rule : SinkRule}

theorem firstSink_of_sink? {f : String} (taken : rs.sink? code = some (rule, f)) :
    FirstSink rs rule code := by
  obtain ⟨earlier, a, later, split, matched, before⟩ := findSome?_eq_some_iff.mp taken
  obtain ⟨pl, searched, equal⟩ := Option.map_eq_some_iff.mp matched
  cases equal
  refine ⟨earlier, later, split, by rw [SinkRule.Calls, searched]; rfl, ?_⟩
  intro other hm calls
  have missed := Option.map_eq_none_iff.mp (before other hm)
  rw [SinkRule.Calls, missed] at calls
  cases calls

theorem FirstSink.mem (h1 : FirstSink rs rule code) : rule ∈ rs.sinks := by
  obtain ⟨earlier, later, split, _⟩ := h1
  rw [split]
  exact mem_append_right _ mem_cons_self

theorem sink?_ne_none (hm : rule ∈ rs.sinks) (calls : rule.Calls code) : rs.sink? code ≠ none := by
  intro hmiss
  have missed := Option.map_eq_none_iff.mp (findSome?_eq_none_iff.mp hmiss rule hm)
  rw [SinkRule.Calls, missed] at calls
  cases calls

variable {fl : LineFlow}

theorem mem_flowsAt_iff {pl : Origin} :
    fl ∈ rs.flowsAt env pl ↔
      rs.sink? pl.code = some (fl.rule, fl.found) ∧ fl.sink = pl ∧
        ((rs.hasSource pl.code = true ∧ fl.origin = pl ∧ fl.carrier = LineFlow.direct) ∨
          ((fl.carrier, fl.origin) ∈ env ∧
            Text.occursWhole fl.carrier pl.code = true ∧ fl.isDirect = false)) := by
  rw [TaintRules.flowsAt]
  cases taken : rs.sink? pl.code with
  | none => simp
  | some call =>
    rw [mem_append]
    constructor
    · rintro (own | carried)
      · split_ifs at own with mentions
        · rw [mem_singleton.mp own]
          exact ⟨rfl, rfl, Or.inl ⟨mentions, rfl, rfl⟩⟩
        · cases own
      · obtain ⟨hi, indirect⟩ := mem_filter.mp carried
        obtain ⟨e, selected, rfl⟩ := List.mem_map.mp hi
        obtain ⟨hk, mentioned⟩ := mem_filter.mp selected
        exact ⟨rfl, rfl, Or.inr ⟨hk, mentioned, by simpa using indirect⟩⟩
    · obtain ⟨origin, sink, carrier, rl, f⟩ := fl
      rintro ⟨hs, ht, ⟨mentions, hh, direct⟩ | ⟨hk, mentioned, indirect⟩⟩
      · cases hs
        cases ht
        cases hh
        cases direct
        rw [if_pos mentions]
        exact Or.inl mem_cons_self
      · cases hs
        cases ht
        refine Or.inr (mem_filter.mpr ⟨List.mem_map.mpr ⟨(carrier, origin), ?_, rfl⟩, ?_⟩)
        · exact mem_filter.mpr ⟨hk, mentioned⟩
        · simpa using indirect

theorem Tracks.licensed (tracks : Tracks rs ls n env) (hh : lineAt? ls n = some code)
    (hm : fl ∈ rs.flowsAt env { line := n, code }) : fl.sink.line = n ∧ Licensed rs ls fl := by
  obtain ⟨taken, sink, from_⟩ := mem_flowsAt_iff.mp hm
  have h1 : FirstSink rs fl.rule fl.sink.code := by
    rw [sink]
    exact firstSink_of_sink? taken
  have ht : lineAt? ls fl.sink.line = some fl.sink.code := by
    rw [sink]
    exact hh
  have origin : fl.origin.line ≤ fl.sink.line ∧ lineAt? ls fl.origin.line = some fl.origin.code ∧
        rs.hasSource fl.origin.code = true := by
    rw [sink]
    rcases from_ with ⟨mentions, own, _⟩ | ⟨hk, _⟩
    · rw [own]
      exact ⟨Nat.le_refl _, hh, mentions⟩
    · exact tracks.origins _ hk
  exact ⟨by rw [sink],
    { rule := h1, sink := ht, origin := origin.2.1
      positive := lineAt?_positive origin.2.1, above := origin.1, source := origin.2.2 }⟩

theorem Tracks.exists_mem_flowsAt_iff (tracks : Tracks rs ls n env)
    (hh : lineAt? ls n = some code) :
    (∃ fl, fl ∈ rs.flowsAt env { line := n, code }) ↔ Reached rs ls n := by
  constructor
  · rintro ⟨fl, hm⟩
    obtain ⟨taken, _, from_⟩ := mem_flowsAt_iff.mp hm
    have a := firstSink_of_sink? taken
    obtain ⟨_, _, _, calls, _⟩ := id a
    refine ⟨code, hh, ⟨fl.rule, a.mem, calls⟩, ?_⟩
    rcases from_ with ⟨mentions, _⟩ | ⟨hk, mentioned, _⟩
    · exact Or.inl mentions
    · exact Or.inr ⟨fl.carrier, (tracks.knows _).mp ⟨fl.origin, hk⟩, mentioned⟩
  · rintro ⟨same, ht, ⟨rl, hm, calls⟩, reach⟩
    rw [hh] at ht
    cases ht
    obtain ⟨⟨a, found⟩, taken⟩ := Option.ne_none_iff_exists'.mp (sink?_ne_none hm calls)
    by_cases mentions : rs.hasSource code = true
    · exact ⟨{ origin := ⟨n, code⟩, sink := ⟨n, code⟩, carrier := LineFlow.direct,
               rule := a, found }, mem_flowsAt_iff.mpr ⟨taken, rfl, Or.inl ⟨mentions, rfl, rfl⟩⟩⟩
    · rcases reach with source | ⟨nm, tainted, mentioned⟩
      · exact absurd source mentions
      · obtain ⟨origin, hk⟩ := (tracks.knows nm).mpr tainted
        obtain ⟨_, ht, source⟩ := tracks.origins _ hk
        -- an origin in this very line would be a source here
        have elsewhere : origin.line ≠ n := by
          intro equal
          rw [equal, hh] at ht
          cases ht
          exact mentions source
        refine ⟨{ origin, sink := ⟨n, code⟩, carrier := nm, rule := a, found },
          mem_flowsAt_iff.mpr ⟨taken, rfl, Or.inr ⟨hk, mentioned, ?_⟩⟩⟩
        simp [LineFlow.isDirect, elsewhere]

/-! ## The whole source -/

def environmentAfter (rs : TaintRules) (ls : List (List Char)) : Nat → Environment
  | 0 => []
  | n + 1 =>
    match ls[n]? with
    | some code =>
      rs.step (environmentAfter rs ls n) { line := n + 1, code }
    | none => environmentAfter rs ls n

theorem tracks_environmentAfter (rs : TaintRules) (ls : List (List Char)) (n : Nat) :
    Tracks rs ls n (environmentAfter rs ls n) := by
  induction n with
  | zero =>
    refine { knows := fun nm => ⟨?_, ?_⟩, origins := ?_ }
    · rintro ⟨_, hm⟩
      cases hm
    · intro tainted
      exact (taintedAfter_zero tainted).elim
    · intro e hm
      cases hm
  | succ n ih =>
    rw [environmentAfter]
    cases hh : ls[n]? with
    | some code => exact ih.step hh
    | none =>
      apply ih.keep
      intro nm tainted
      cases tainted with
      | kept before => exact before
      | source ht => rw [lineAt?, hh] at ht; cases ht
      | copied ht => rw [lineAt?, hh] at ht; cases ht

structure TaintRules.Quiet (rules : TaintRules) : Prop where
  assignment : rules.assignment? [] = none
  sink : rules.sink? [] = none

theorem TaintRules.Quiet.flowsFrom_cons (quiet : rs.Quiet) (env : Environment)
    (n : Nat) (ln : List Char) (tl : List (List Char)) :
    rs.flowsFrom env n (ln :: tl) =
      rs.flowsAt (rs.step env { line := n, code := Text.trim ln })
          { line := n, code := Text.trim ln } ++
        rs.flowsFrom (rs.step env { line := n, code := Text.trim ln }) (n + 1) tl := by
  rw [TaintRules.flowsFrom]
  dsimp only
  split_ifs with empty
  · rw [List.isEmpty_iff.mp empty]
    simp [TaintRules.step, TaintRules.flowsAt, quiet.assignment, quiet.sink]
  · rfl

theorem TaintRules.Quiet.mem_flowsFrom_iff (quiet : rs.Quiet) {tl : List (List Char)}
    (left : ls.drop n = tl.map Text.trim) :
    fl ∈ rs.flowsFrom (environmentAfter rs ls n) (n + 1) tl ↔
      ∃ later code, n < later ∧ lineAt? ls later = some code ∧
        fl ∈ rs.flowsAt (environmentAfter rs ls later) { line := later, code } := by
  induction tl generalizing n with
  | nil =>
    have short : ls.length ≤ n := drop_eq_nil_iff.mp left
    constructor
    · intro hm
      cases hm
    · rintro ⟨later, code, behind, ht, _⟩
      cases later with
      | zero => cases behind
      | succ later =>
        have hi := (List.getElem?_eq_some_iff.mp ht).1
        omega
  | cons ln tl ih =>
    have hh : ls[n]? = some (Text.trim ln) := by
      rw [← head?_drop, left]
      rfl
    have behind : ls.drop (n + 1) = tl.map Text.trim := by
      rw [← tail_drop, left]
      rfl
    have next : rs.step (environmentAfter rs ls n) { line := n + 1, code := Text.trim ln } =
        environmentAfter rs ls (n + 1) := by
      rw [environmentAfter, hh]
    rw [quiet.flowsFrom_cons, next, mem_append, ih behind]
    constructor
    · rintro (now | ⟨later, code, after, ht, hm⟩)
      · exact ⟨n + 1, Text.trim ln, Nat.lt_succ_self _, hh, now⟩
      · exact ⟨later, code, Nat.lt_of_succ_lt after, ht, hm⟩
    · rintro ⟨later, code, after, ht, hm⟩
      by_cases h1 : later = n + 1
      · subst h1
        rw [lineAt?, hh] at ht
        cases ht
        exact Or.inl hm
      · exact Or.inr ⟨later, code, by omega, ht, hm⟩

theorem TaintRules.Quiet.mem_flows_iff (quiet : rs.Quiet) {src : List Char} :
    fl ∈ rs.flows src ↔
      ∃ n code, lineAt? (codeLines src) n = some code ∧
        fl ∈ rs.flowsAt (environmentAfter rs (codeLines src) n) { line := n, code } := by
  have whole : (codeLines src).drop 0 = (stripLines (Text.splitNewline src)).map Text.trim := rfl
  refine (quiet.mem_flowsFrom_iff whole).trans ?_
  constructor
  · rintro ⟨n, code, _, hh, hm⟩
    exact ⟨n, code, hh, hm⟩
  · rintro ⟨n, code, hh, hm⟩
    exact ⟨n, code, lineAt?_positive hh, hh, hm⟩

theorem Go.taintRules_quiet : Go.taintRules.Quiet where
  assignment := rfl
  sink := by decide +kernel

theorem Java.taintRules_quiet : Java.taintRules.Quiet where
  assignment := rfl
  sink := by decide +kernel

namespace Dialect

theorem taintRules_quiet (d : Dialect) : d.taintRules.Quiet := by
  cases d with
  | go => exact Go.taintRules_quiet
  | java => exact Java.taintRules_quiet

theorem taintFlows_eq (d : Dialect) (p : String) :
    d.taintFlows p = (do
      match ← Audit.attempt (readStrict d.title p) with
      | .ok t => return d.taintRules.flows t.toList
      | .error _ => return []) := by
  cases d with
  | go => rfl
  | java => rfl

theorem perform_taintFlows (d : Dialect) {p t : String} {s s' : Session}
    (readable : (readStrict d.title p).perform s = (.ok t, s')) :
    (d.taintFlows p).perform s = (.ok (d.taintRules.flows t.toList), s') := by
  rw [taintFlows_eq, Audit.perform_attempt_bind readable]
  rfl

/--
Taint analysis by lines is sound and complete.  In every file that can be read, the lines with a
flow are exactly the reached ones, and every flow is licensed by the lines of the file.
-/
theorem taintFlows_sound_and_complete
    (dialect : Dialect) {path text : String} {session after : Session}
    (readable : (readStrict dialect.title path).perform session = (.ok text, after)) :
    ∃ flows, (dialect.taintFlows path).perform session = (.ok flows, after) ∧
        (∀ number, (∃ flow ∈ flows, flow.sink.line = number) ↔
          Reached dialect.taintRules (codeLines text.toList) number) ∧
          ∀ flow ∈ flows, Licensed dialect.taintRules (codeLines text.toList) flow := by
  have member_iff : ∀ flow, flow ∈ dialect.taintRules.flows text.toList ↔ _ :=
    fun flow => dialect.taintRules_quiet.mem_flows_iff
  have tracks := tracks_environmentAfter dialect.taintRules (codeLines text.toList)
  refine ⟨_, dialect.perform_taintFlows readable, ?_, ?_⟩
  · intro number
    constructor
    · rintro ⟨flow, member, sink⟩
      obtain ⟨place, code, here, found⟩ := (member_iff flow).mp member
      have same : place = number := ((tracks place).licensed here found).1.symm.trans sink
      rw [← same]
      exact ((tracks place).exists_mem_flowsAt_iff here).mp ⟨flow, found⟩
    · intro reached
      obtain ⟨code, here, _⟩ := id reached
      obtain ⟨flow, found⟩ := ((tracks number).exists_mem_flowsAt_iff here).mpr reached
      exact ⟨flow, (member_iff flow).mpr ⟨number, code, here, found⟩,
        ((tracks number).licensed here found).1⟩
  · intro flow member
    obtain ⟨number, code, here, found⟩ := (member_iff flow).mp member
    exact ((tracks number).licensed here found).2

def sampleBytes : List UInt8 :=
  [0x78, 0x20, 0x3A, 0x3D, 0x20, 0x6F, 0x73, 0x2E, 0x41, 0x72, 0x67, 0x73, 0x5B, 0x31, 0x5D, 0x0A,
    0x65, 0x78, 0x65, 0x63, 0x2E, 0x43, 0x6F, 0x6D, 0x6D, 0x61, 0x6E, 0x64, 0x28, 0x78, 0x29]

theorem taintFlows_of_sample :
    (readStrict "Go" "m.go").perform (.holding "m.go" sampleBytes) =
        (.ok "x := os.Args[1]\nexec.Command(x)", .holding "m.go" sampleBytes) ∧
      ∃ flows, (Go.taintFlows "m.go").perform (.holding "m.go" sampleBytes) =
            (.ok flows, .holding "m.go" sampleBytes) ∧
          (∀ number, (∃ flow ∈ flows, flow.sink.line = number) ↔ Reached Go.taintRules
              (codeLines "x := os.Args[1]\nexec.Command(x)".toList) number) ∧
            ∀ flow ∈ flows,
              Licensed Go.taintRules (codeLines "x := os.Args[1]\nexec.Command(x)".toList) flow :=
  ⟨rfl, Dialect.go.taintFlows_sound_and_complete rfl⟩

end Dialect

end SourceAudit.Source
