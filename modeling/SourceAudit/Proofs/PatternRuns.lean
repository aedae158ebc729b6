import SourceAudit.Pattern.Parser
import SourceAudit.Proofs.TextCutting
import Mathlib.Tactic.SplitIfs

/-!
# Runs of a pattern

How the matcher gets through a text that is known to fit. A word is read character by character or
refused at once; a greedy repetition of a class takes the longest run of its characters, and is done
when the rest of the pattern succeeds behind that run.
-/

open List

namespace SourceAudit.Pattern

deriving instance DecidableEq for Node

/-! ## Places -/

namespace Place

def behind (pl : Place) (t tl : List Char) : Place :=
  { pl with
    before := t.reverse ++ pl.before
    rest := tl
    position := pl.position + t.length }

@[simp]
theorem behind_rest (pl : Place) (t tl : List Char) : (pl.behind t tl).rest = tl := rfl

theorem behind_nil {pl : Place} {tl : List Char} (ahead : pl.rest = tl) : pl.behind [] tl = pl := by
  subst ahead
  rfl

theorem behind_behind (pl : Place) (a b between tl : List Char) :
    (pl.behind a between).behind b tl = pl.behind (a ++ b) tl := by
  simp [behind, Nat.add_assoc]

theorem advance_cons {pl : Place} {c : Char} {tl : List Char} (ahead : pl.rest = c :: tl) :
    pl.advance = some (c, pl.behind [c] tl) := by
  rw [advance, ahead]
  rfl

structure Within (place : Place) (whole : List Char) : Prop where
  shape : whole = place.before.reverse ++ place.rest
  counted : place.position = place.before.length

theorem within_start (t : List Char) : (start t).Within t := { shape := rfl, counted := rfl }

namespace Within

variable {pl : Place} {whole t tl : List Char}

theorem behind (within : pl.Within whole) (ahead : pl.rest = t ++ tl) :
    (pl.behind t tl).Within whole where
  shape := by
    rw [within.shape, ahead]
    simp [Place.behind]
  counted := by
    simp [Place.behind, within.counted, Nat.add_comm]

theorem record (within : pl.Within whole) (i a last : Nat) : (pl.record i a last).Within whole :=
  { shape := within.shape, counted := within.counted }

theorem slice (within : pl.Within whole) (ahead : pl.rest = t ++ tl) :
    (whole.drop pl.position).take (pl.position + t.length - pl.position) = t := by
  have hc : pl.position = pl.before.reverse.length := by
    rw [within.counted, length_reverse]
  rw [within.shape, hc, ahead, Nat.add_sub_cancel_left, drop_left, take_left]

end Within

end Place

/-! ## Words -/

def Node.word : List Char → Node → Node
  | [], nd => nd
  | c :: w, nd => .seq (.char c .exact) (Node.word w nd)

namespace Node

variable {pl : Place} {next : Continuation}

theorem run_char (c : Char) (next : Continuation) (pl : Place) :
    (Node.char c .exact).run next pl =
      match Text.after? [c] pl.rest with
      | some tl => next (pl.behind [c] tl)
      | none => none := by
  rw [Node.run, stepWhere]
  cases ahead : pl.rest with
  | nil =>
    rw [Place.advance, ahead]
    rfl
  | cons d tl =>
    rw [Place.advance_cons ahead]
    by_cases hs : c = d
    · simp [hs, Text.after?, Folding.same, Folding.small]
    · simp [hs, Text.after?, Folding.same, Folding.small]

theorem run_word (w : List Char) (nd : Node) (next : Continuation) (pl : Place) :
    (Node.word w nd).run next pl =
      match Text.after? w pl.rest with
      | some tl => nd.run next (pl.behind w tl)
      | none => none := by
  induction w generalizing pl with
  | nil =>
    rw [Node.word, Text.after?]
    dsimp only
    rw [Place.behind_nil rfl]
  | cons c w ih =>
    rw [Node.word, Node.run, run_char]
    cases ahead : pl.rest with
    | nil => rfl
    | cons d tl =>
      by_cases hs : c = d
      · subst hs
        simp only [Text.after?, if_true]
        rw [ih, Place.behind_rest]
        cases Text.after? w tl with
        | none => rfl
        | some others =>
          dsimp only
          rw [Place.behind_behind]
          rfl
      · simp [Text.after?, hs]

theorem run_spelled {w pre : List Char} {last : Char} (spelled : w = pre ++ [last])
    (next : Continuation) (pl : Place) :
    (Node.word pre (.char last .exact)).run next pl =
      match Text.after? w pl.rest with
      | some tl => next (pl.behind w tl)
      | none => none := by
  rw [run_word, spelled, Text.after?_of_append]
  cases Text.after? pre pl.rest with
  | none => rfl
  | some behind =>
    dsimp only [Option.bind_some]
    rw [run_char, Place.behind_rest]
    cases Text.after? [last] behind with
    | none => rfl
    | some tl =>
      dsimp only
      rw [Place.behind_behind]

end Node

/-! ## Greedy runs -/

section

variable {test : Char → Bool} {next : Continuation} {pl r : Place} {t tl : List Char}

def Refused (test : Char → Bool) (t : List Char) : Bool :=
  t.head?.all fun c => !test c

theorem stepWhere_refused (refused : Refused test pl.rest = true) :
    stepWhere test next pl = none := by
  rw [stepWhere, Place.advance]
  cases ahead : pl.rest with
  | nil => rfl
  | cons c tl =>
    rw [ahead] at refused
    have fails : test c = false := by simpa [Refused] using refused
    simp [fails]

theorem stepWhere_cons {c : Char} (ahead : pl.rest = c :: tl) (passes : test c = true) :
    stepWhere test next pl = next (pl.behind [c] tl) := by
  rw [stepWhere, Place.advance_cons ahead]
  simp [passes]

theorem rounds_greedy {least fuel n : Nat} {last : Option Nat}
    (ahead : pl.rest = t ++ tl) (hi : t.all test = true)
    (refused : Refused test tl = true) (enough : least ≤ n + t.length)
    (fueled : t.length ≤ fuel) (earlier : ∀ pos ∈ last, pos < pl.position)
    (hd : next (pl.behind t tl) = some r) :
    rounds (stepWhere test) least none .greedy next (fuel + 1) n last pl = some r := by
  induction t generalizing pl fuel n last with
  | nil =>
    rw [length_nil] at enough
    rw [nil_append] at ahead
    rw [Place.behind_nil ahead] at hd
    rw [rounds, if_neg (by omega)]
    dsimp only
    rw [stepWhere_refused (by rw [ahead]; exact refused), ite_self]
    exact hd
  | cons c t ih =>
    rw [cons_append] at ahead
    rw [all_cons, Bool.and_eq_true] at hi
    rw [length_cons] at enough fueled
    obtain ⟨fuel, rfl⟩ : ∃ more, fuel = more + 1 := ⟨fuel - 1, by omega⟩
    have later : next ((pl.behind [c] (t ++ tl)).behind t tl) = some r := by
      rw [Place.behind_behind]
      exact hd
    have round (last : Option Nat) (before : ∀ pos ∈ last, pos < pl.position + 1) :
        rounds (stepWhere test) least none .greedy next (fuel + 1) (n + 1) last
          (pl.behind [c] (t ++ tl)) = some r :=
      ih rfl hi.2 (by omega) (by omega) before later
    rw [rounds, stepWhere_cons ahead hi.1]
    split_ifs
    · apply round
      intro pos hm
      exact Nat.lt_succ_of_lt (earlier pos hm)
    · have moved : (last != some pl.position) = true := by
        rw [bne_iff_ne]
        rintro rfl
        exact absurd (earlier _ rfl) (Nat.lt_irrefl _)
      dsimp only
      rw [moved, Option.all_none, Bool.true_and, if_pos rfl, stepWhere_cons ahead hi.1]
      rw [round (some pl.position)]
      · rfl
      · intro pos hm
        cases hm
        exact Nat.lt_succ_self _

end

namespace Node

def oneOrMore (negated : Bool) (xs : List SetItem) : Node :=
  .repetition (.set negated xs .exact) 1 none .greedy

def passes (negated : Bool) (xs : List SetItem) (c : Char) : Bool :=
  (xs.any fun x => x.holds .exact c) != negated

variable {negated : Bool} {xs : List SetItem} {next : Continuation} {pl r : Place}
  {t tl : List Char}

theorem run_oneOrMore_eq (negated : Bool) (xs : List SetItem) (next : Continuation) (pl : Place) :
    (oneOrMore negated xs).run next pl =
      rounds (stepWhere (passes negated xs)) 1 none .greedy next (1 + pl.rest.length + 2) 0
        none pl := by
  have body : (fun next pl => (Node.set negated xs .exact).run next pl) =
      stepWhere (passes negated xs) := by
    funext next pl
    rw [Node.run]
    rfl
  rw [oneOrMore, Node.run, body]
  intro hs
  cases hs

theorem run_oneOrMore_refused (refused : Refused (passes negated xs) pl.rest = true) :
    (oneOrMore negated xs).run next pl = none := by
  rw [run_oneOrMore_eq, rounds, if_pos Nat.one_pos, stepWhere_refused refused]

/-! ## Ways through a pattern -/

def Leads (nd : Node) (pl after : Place) : Prop :=
  ∀ next r, next after = some r → nd.run next pl = some r

section

variable {nd a b body : Node} {mid after : Place} {w : List Char}

theorem Leads.seq (begins : a.Leads pl mid) (ends : b.Leads mid after) :
    (Node.seq a b).Leads pl after := by
  intro next r hd
  rw [Node.run]
  apply begins
  exact ends next r hd

theorem Leads.group (leads : body.Leads pl after) (i : Nat) :
    (Node.group i body).Leads pl (after.record i pl.position after.position) := by
  intro next r hd
  rw [Node.run]
  apply leads
  exact hd

theorem leads_word (ahead : pl.rest = w ++ tl)
    (leads : nd.Leads (pl.behind w tl) after) : (Node.word w nd).Leads pl after := by
  intro next r hd
  rw [run_word, ahead, Text.after?_append]
  exact leads next r hd

theorem leads_set {c : Char} (ahead : pl.rest = c :: tl) (hi : passes negated xs c = true) :
    (Node.set negated xs .exact).Leads pl (pl.behind [c] tl) := by
  intro next r hd
  rw [Node.run]
  exact (stepWhere_cons ahead hi).trans hd

theorem leads_oneOrMore (ahead : pl.rest = t ++ tl)
    (hi : t.all (passes negated xs) = true) (hne : t ≠ [])
    (refused : Refused (passes negated xs) tl = true) :
    (oneOrMore negated xs).Leads pl (pl.behind t tl) := by
  intro next r hd
  have length : pl.rest.length = t.length + tl.length := by
    rw [ahead, length_append]
  have hpos : 0 < t.length := length_pos_iff.mpr hne
  rw [run_oneOrMore_eq]
  apply rounds_greedy ahead hi refused _ _ _ hd
  · omega
  · omega
  · intro pos hm
    cases hm

end

end Node

/-! ## Matches -/

/-- The group of the place holds the text. -/
def Place.Holds (pl : Place) (whole : List Char) (i : Nat) (t : List Char) : Prop :=
  ∃ a last, pl.span? i = some (a, last) ∧
    (whole.drop a).take (last - a) = t

/-- The place behind a text, which the group holds if there is one. -/
def Place.past (pl : Place) (i : Option Nat) (t tl : List Char) : Place :=
  match i with
  | some i => (pl.behind t tl).record i pl.position (pl.position + t.length)
  | none => pl.behind t tl

section

variable {pl : Place} {whole t tl : List Char} {i : Nat} {other : Option Nat}

@[simp]
theorem Place.past_rest : (pl.past other t tl).rest = tl := by
  cases other <;> rfl

theorem Place.Within.past (within : pl.Within whole) (ahead : pl.rest = t ++ tl) :
    (pl.past other t tl).Within whole := by
  cases other with
  | none => exact within.behind ahead
  | some i => exact (within.behind ahead).record _ _ _

theorem Place.Within.holds_past (within : pl.Within whole) (ahead : pl.rest = t ++ tl) :
    (pl.past (some i) t tl).Holds whole i t :=
  ⟨_, _, by simp [Place.span?, Place.past, Place.record], within.slice ahead⟩

theorem Place.Holds.past (holds : pl.Holds whole i t) (differs : i ∉ other)
    (pre tl : List Char) : (pl.past other pre tl).Holds whole i t := by
  obtain ⟨start, stop, spanned, slice⟩ := holds
  refine ⟨start, stop, ?_, slice⟩
  rw [← spanned]
  cases other with
  | none => rfl
  | some other =>
    have apart : other ≠ i := by simpa using differs
    simp [Place.span?, Place.past, Place.record, Place.behind, apart]

def Match.of (whole : List Char) (pl after : Place) : Match :=
  { start := pl.position, stop := after.position, groups := after.groups
    text := pl.rest.take (after.position - pl.position), whole }

theorem Place.Holds.group? (holds : pl.Holds whole i t) (numbered : i ≠ 0)
    (start : Place) : (Match.of whole start pl).group? i = some (.ofList t) := by
  obtain ⟨a, last, spanned, slice⟩ := holds
  rw [Match.group?, if_neg numbered, show (Match.of whole start pl).span? i = _ from spanned,
    ← slice]
  rfl

theorem Place.Holds.group (holds : pl.Holds whole i t) (numbered : i ≠ 0)
    (start : Place) : (Match.of whole start pl).group i = .ofList t := by
  rw [Match.group, holds.group? numbered]
  rfl

theorem matchAt_of_leads {pat : Pattern} {after : Place}
    (leads : pat.node.Leads { pl with groups := [] } after) (whole : List Char) :
    pat.matchAt whole false pl = some (.of whole pl after) :=
  congrArg (Option.map _) (leads some after rfl)

theorem matchStart?_of_leads {pat : Pattern} {after : Place}
    (leads : pat.node.Leads (Place.start t) after) :
    pat.matchStart? t = some (.of t (Place.start t) after) :=
  matchAt_of_leads leads t

end

theorem Match.group_eq {f : Match} {i a last : Nat} {t : List Char}
    (numbered : i ≠ 0) (spanned : f.span? i = some (a, last))
    (slice : (f.whole.drop a).take (last - a) = t) : f.group i = .ofList t := by
  rw [Match.group, Match.group?, if_neg numbered, spanned, ← slice]
  rfl

theorem exists_search?_of_leads {pat : Pattern} {t : List Char} {after : Place}
    (leads : pat.node.Leads (Place.start t) after) :
    ∃ f, pat.search? t = some f ∧ f.groups = after.groups ∧ f.whole = t := by
  refine ⟨.of t (Place.start t) after, ?_, rfl, rfl⟩
  rw [Pattern.search?]
  cases t with
  | nil =>
    rw [Pattern.searchFrom, matchAt_of_leads leads]
    rfl
  | cons c t =>
    rw [Pattern.searchFrom, matchAt_of_leads leads]
    rfl

end SourceAudit.Pattern
