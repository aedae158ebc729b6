import SourceAudit.Project.Evidence
import SourceAudit.Proofs.ReplyShapes
import SourceAudit.Proofs.KeyEquality

/-!
# Evidence that the project bears out

Findings are checked against the index of a project. This module says which evidence is left: it
names a file of the index, its line is in the file, and what it quotes stands around that line.
-/

open List

namespace SourceAudit

namespace Project

open Outcome

/-! ## Lines of a file -/

def InFile (count : Nat) (ln : Value) : Prop :=
  ln.isNaN = true ∨ ∃ n, ln.rational? = some n ∧ 0 < n ∧ n ≤ count

variable {count : Nat} {line : Value}

theorem inFile_iff_of_compared {low high : Bool} (one : line.atMost (.int 0) = .ok low)
    (two : line.greater (.ofNat count) = .ok high) :
    InFile count line ↔ low = false ∧ high = false := by
  have number := Value.isNumber_of_atMost one
  rcases Value.number_cases number with
    undefined | ⟨defined, ⟨up, infinite⟩, none⟩ | ⟨defined, _, above, below, ratio, _⟩
  · have incomparable (r : Value) : line.compareNumbers r = none := by
      rw [Value.compareNumbers, undefined]
      rfl
    rw [Value.atMost_of_isNumber number rfl, incomparable] at one
    rw [Value.greater_of_isNumber number rfl, incomparable] at two
    cases one
    cases two
    simp [InFile, undefined]
  · have far (r : Int) : line.compareNumbers (.int r) = some (if up then .gt else .lt) := by
      rw [Value.compareNumbers, defined, infinite]
      rfl
    rw [Value.atMost_of_isNumber number rfl, far] at one
    rw [Value.ofNat, Value.greater_of_isNumber number rfl, far] at two
    cases up <;> cases one <;> cases two <;> simp [InFile, defined, none]
  · have finite : line.rational? = some (above / below : ℚ) := by rw [Value.rational?, ratio]; rfl
    rw [Value.atMost_eq finite (Value.rational?_int 0)] at one
    rw [Value.ofNat, Value.greater_eq finite (Value.rational?_int (Int.ofNat count))] at two
    cases one
    cases two
    simp [InFile, defined, finite]

variable {n : Double}

theorem rational?_of_isZero (zero : n.isZero = true) : (Value.float n).rational? = some 0 := by
  rw [Double.isZero, Bool.and_eq_true, beq_iff_eq, beq_iff_eq] at zero
  obtain ⟨exponent, fraction⟩ := zero
  have parts : n.parts = (0, -1074) := by rw [Double.parts, if_pos exponent, fraction]
  have quotient : n.quotient.1 = 0 := by
    rw [Double.quotient, parts]
    rfl
  have ratio : n.ratio.1 = 0 := by
    rw [Double.ratio]
    dsimp only
    rw [quotient]
    split_ifs <;> rfl
  simp [Value.rational?, Value.ratio?, Double.isNaN, Double.isInfinite, exponent, ratio]

theorem truthy_of_inFile (inside : InFile count line) : line.truthy = true := by
  have number : line.isNumber = true := by
    rcases inside with undefined | ⟨_, is, _⟩
    · cases line with
      | float number => rfl
      | _ => cases undefined
    · exact Value.isNumber_of_rational? is
  by_contra empty
  rw [Bool.not_eq_true] at empty
  have zero : line.rational? = some 0 := by
    cases line with
    | bool flag =>
      cases flag with
      | true => cases empty
      | false => exact Value.rational?_of_whole? rfl
    | int whole =>
      rw [Value.truthy, bne_eq_false_iff_eq] at empty
      rw [empty]
      exact Value.rational?_of_whole? rfl
    | float number =>
      rw [Value.truthy, Bool.not_eq_false'] at empty
      exact rational?_of_isZero empty
    | _ => cases number
  obtain ⟨_, _, _, _, _, _, defined, _⟩ := Value.ratio?_of_rational? zero
  rcases inside with undefined | ⟨_, is, positive, _⟩
  · rw [defined] at undefined
    cases undefined
  · rw [zero] at is
    cases is
    exact lt_irrefl _ positive

theorem not_inFile_of_atMost (low : line.atMost (.int 0) = .ok true) : ¬ InFile count line := by
  intro inside
  have high := Value.greater_of_isNumber (Value.isNumber_of_atMost low)
    (show (Value.ofNat count).isNumber = true from rfl)
  cases ((inFile_iff_of_compared low high).mp inside).1

/-! ## The lines around a line -/

def near (ln : Value) (ls : List Value) : List Value :=
  match ln.whole? with
  | some n => linesFromTo (n - 1) (n + 1) ls
  | none => ls

theorem raisedTo_int (n least : Int) : (Value.int n).raisedTo least = .ok (max n least) := by
  rw [Value.raisedTo, bind_ok (Value.greater_eq (Value.rational?_int n) (Value.rational?_int least))]
  rcases lt_or_ge least n with above | below
  · rw [decide_eq_true (by exact_mod_cast above), max_eq_left above.le]
    rfl
  · rw [decide_eq_false (by exact_mod_cast not_lt.mpr below), max_eq_right below]
    rfl

theorem loweredTo_int (n most : Int) : (Value.int n).loweredTo most = .ok (min n most) := by
  rw [Value.loweredTo, bind_ok (Value.less_eq (Value.rational?_int n) (Value.rational?_int most) "<")]
  rcases lt_or_ge n most with below | above
  · rw [decide_eq_true (by exact_mod_cast below), min_eq_left below.le]
    rfl
  · rw [decide_eq_false (by exact_mod_cast not_lt.mpr above), min_eq_right above]
    rfl

theorem raisedTo_float {least bound : Int}
    (hd : (Value.float n).raisedTo least = .ok bound) : bound = least := by
  obtain ⟨above, _, hd⟩ := bind_eq_ok.mp hd
  cases above with
  | true => cases hd
  | false => exact (Except.ok.inj hd).symm

theorem loweredTo_float {most bound : Int}
    (hd : (Value.float n).loweredTo most = .ok bound) : bound = most := by
  obtain ⟨below, _, hd⟩ := bind_eq_ok.mp hd
  cases below with
  | true => cases hd
  | false => exact (Except.ok.inj hd).symm

variable {lines : Value}

theorem items_of_length (counted : lines.length = .ok count) :
    ∃ items, lines.items = .ok items ∧ items.length = count := by
  cases lines with
  | list items => exact ⟨_, rfl, Except.ok.inj counted⟩
  | tuple items => exact ⟨_, rfl, Except.ok.inj counted⟩
  | text content => exact ⟨_, rfl, by rw [length_map]; exact Except.ok.inj counted⟩
  | bytes content => exact ⟨_, rfl, by rw [length_map]; exact Except.ok.inj counted⟩
  | record fields => exact ⟨_, rfl, by rw [length_map]; exact Except.ok.inj counted⟩
  | table entries => exact ⟨_, rfl, by rw [length_map]; exact Except.ok.inj counted⟩
  | _ => cases counted

theorem linesFromTo_all {α : Type} (xs : List α) :
    linesFromTo (0 + 1) (Int.ofNat xs.length) xs = xs := by
  rw [linesFromTo, take_of_length_le (by simp)]
  rfl

theorem linesFromTo_clipped {α : Type} (a last : Int) (xs : List α) :
    linesFromTo (max (a - 1) 0 + 1) (min last (Int.ofNat xs.length)) xs =
      linesFromTo a last xs := by
  rw [linesFromTo, linesFromTo, Int.ofNat_eq_natCast]
  rw [show (max (a - 1) 0 + 1 - 1).toNat = (a - 1).toNat by omega]
  rcases le_total last xs.length with short | long
  · rw [min_eq_left short]
  · rw [take_of_length_le (by omega), take_of_length_le (by omega)]

variable {items : List Value}

theorem window_eq_near {around : List Value} (counted : lines.length = .ok count)
    (listed : lines.items = .ok items) (done : window lines line = .ok around) :
    around = near line items := by
  obtain ⟨_, found, rfl⟩ := items_of_length counted
  rw [listed] at found
  cases found
  obtain ⟨start, minus, done⟩ := bind_eq_ok.mp done
  obtain ⟨first, raised, done⟩ := bind_eq_ok.mp done
  obtain ⟨stop, plus, done⟩ := bind_eq_ok.mp done
  obtain ⟨_, again, done⟩ := bind_eq_ok.mp done
  rw [counted] at again
  cases again
  obtain ⟨last, lowered, done⟩ := bind_eq_ok.mp done
  rw [bind_ok listed] at done
  cases done
  have whole {number : Int} (is : line.whole? = some number) :
      linesFromTo (first + 1) last items = near line items := by
    rw [Value.minus, Value.combine, is] at minus
    rw [Value.plus, Value.combine, is] at plus
    cases minus
    cases plus
    rw [raisedTo_int] at raised
    rw [loweredTo_int] at lowered
    cases raised
    cases lowered
    rw [near, is]
    dsimp only
    rw [← linesFromTo_clipped (number - 1), show number - 1 - 1 = number - 2 by ring]
  cases line with
  | int number => exact whole rfl
  | bool flag => exact whole rfl
  | float number =>
    cases minus
    cases plus
    rw [raisedTo_float raised, loweredTo_float lowered, linesFromTo_all]
    rfl
  | _ => cases minus

/-! ## Items of evidence -/

def Quoted (ls : List Value) (ln snip : Value) : Prop :=
  snip.truthy = false ∨ snip.holdsWord blackout = .ok true ∨
    ∃ words t, snip = .text words ∧ Value.joinTexts "\n" (near ln ls) = .ok t ∧
      Str.occurs (Str.trim words) t = true

structure Found (files : Value) (evidence : Evidence) : Prop where
  named : evidence.file.truthy = true
  located : ∃ info lines count items, files.entry evidence.file = .ok info ∧ info.truthy = true ∧
    info.getD "lines" (.list []) = .ok lines ∧ lines.length = .ok count ∧ lines.items = .ok items ∧
    InFile count evidence.line ∧ Quoted items evidence.line evidence.snippet

def stated (fnd x : Value) : Outcome Evidence := do
  let named ← x.get "file"
  let file ← if named.truthy then pure named else fnd.get "source_file"
  let numbered ← x.get "line"
  let line ← if numbered.truthy then pure numbered else x.get "line_number"
  let snippet ← x.getD "snippet" (.text "")
  return { file, line, snippet }

def inspect (files : Value) (evidence : Evidence) : Outcome (Option Evidence) := do
  if !evidence.file.truthy || !evidence.line.truthy then return none
  let info ← files.entry evidence.file
  if !info.truthy then return none
  let ls ← info.getD "lines" (.list [])
  if ← evidence.line.atMost (.int 0) then return none
  if ← evidence.line.greater (.ofNat (← ls.length)) then return none
  if evidence.snippet.truthy && !(← quotes ls evidence.line evidence.snippet) then return none
  return some evidence

theorem checkItem_eq (files fnd x : Value) :
    checkItem files fnd x = stated fnd x >>= inspect files := by
  rw [stated, bind_assoc]
  refine bind_congr fun named => ?_
  by_cases own : named.truthy = true
  all_goals
    simp only [own, if_true, if_false, Bool.false_eq_true, bind_assoc, pure_bind]
  · refine bind_congr fun numbered => ?_
    by_cases given : numbered.truthy = true
    · simp only [given, if_true, bind_assoc, pure_bind, inspect, own]
    · simp only [given, Bool.false_eq_true, if_false, bind_assoc, pure_bind, inspect, own]
  · refine bind_congr fun file => bind_congr fun numbered => ?_
    by_cases given : numbered.truthy = true
    · simp only [given, if_true, bind_assoc, pure_bind, inspect]
    · simp only [given, Bool.false_eq_true, if_false, bind_assoc, pure_bind, inspect]

variable {v : Value}

theorem strip_eq_ok {trimmed : String} (hd : v.strip = .ok trimmed) :
    ∃ words, v = .text words ∧ trimmed = Str.trim words := by
  cases v with
  | text words => exact ⟨words, rfl, (Except.ok.inj hd).symm⟩
  | _ => cases hd

theorem quotes_eq_ok {snippet : Value} {flag : Bool} (counted : lines.length = .ok count)
    (listed : lines.items = .ok items) (inside : InFile count line)
    (done : quotes lines line snippet = .ok flag) : flag = true ↔ Quoted items line snippet := by
  rw [quotes] at done
  by_cases present : snippet.truthy = true
  · rw [present, Bool.not_true] at done
    obtain ⟨black, held, done⟩ := bind_eq_ok.mp done
    cases black with
    | true =>
      cases done
      exact ⟨fun _ => .inr (.inl held), fun _ => rfl⟩
    | false =>
      obtain ⟨low, one, done⟩ := bind_eq_ok.mp done
      cases low with
      | true => exact absurd inside (not_inFile_of_atMost one)
      | false =>
        obtain ⟨_, again, done⟩ := bind_eq_ok.mp done
        rw [counted] at again
        cases again
        obtain ⟨high, two, done⟩ := bind_eq_ok.mp done
        obtain ⟨_, rfl⟩ := (inFile_iff_of_compared one two).mp inside
        obtain ⟨around, shown, done⟩ := bind_eq_ok.mp done
        obtain ⟨text, joined, done⟩ := bind_eq_ok.mp done
        obtain ⟨_, stripped, done⟩ := bind_eq_ok.mp done
        obtain ⟨words, rfl, rfl⟩ := strip_eq_ok stripped
        cases done
        rw [window_eq_near counted listed shown] at joined
        constructor
        · intro occurs
          exact .inr (.inr ⟨words, text, rfl, joined, occurs⟩)
        · rintro (absent | black | ⟨_, other, same, again, occurs⟩)
          · rw [present] at absent
            cases absent
          · rw [held] at black
            cases black
          · cases same
            rw [joined] at again
            cases again
            exact occurs
  · rw [Bool.not_eq_true] at present
    rw [present, Bool.not_false] at done
    cases done
    exact ⟨fun _ => .inl present, fun _ => rfl⟩

variable {files : Value} {evidence : Evidence}

theorem inspect_eq_ok {r : Option Evidence} (hd : inspect files evidence = .ok r) :
    r = some evidence ∧ Found files evidence ∨ r = none ∧ ¬ Found files evidence := by
  rw [inspect] at hd
  split at hd
  · next absent =>
    cases hd
    refine .inr ⟨rfl, fun hf => ?_⟩
    obtain ⟨hn, _, _, _, _, _, _, _, _, _, hi, _⟩ := hf
    rw [hn, truthy_of_inFile hi] at absent
    cases absent
  · next hpres =>
    rw [Bool.or_eq_true, not_or, Bool.not_eq_true', Bool.not_eq_false] at hpres
    obtain ⟨info, hk, hd⟩ := bind_eq_ok.mp hd
    have shown {ls : Value} {count : Nat} {xs : List Value} (hf : Found files evidence)
      (has : info.getD "lines" (.list []) = .ok ls) (hc : ls.length = .ok count)
      (hl : ls.items = .ok xs) :
        InFile count evidence.line ∧ Quoted xs evidence.line evidence.snippet := by
      obtain ⟨_, _, _, _, _, one, _, two, three, four, hi, quoted⟩ := hf
      rw [hk] at one
      cases one
      rw [has] at two
      cases two
      rw [hc] at three
      cases three
      rw [hl] at four
      cases four
      exact ⟨hi, quoted⟩
    split at hd
    · next empty =>
      cases hd
      refine .inr ⟨rfl, fun hf => ?_⟩
      obtain ⟨_, _, _, _, _, one, some, _⟩ := hf
      rw [hk] at one
      cases one
      rw [some] at empty
      cases empty
    · next some =>
      rw [Bool.not_eq_true', Bool.not_eq_false] at some
      obtain ⟨ls, has, hd⟩ := bind_eq_ok.mp hd
      obtain ⟨low, one, hd⟩ := bind_eq_ok.mp hd
      cases low with
      | true =>
        cases hd
        refine .inr ⟨rfl, fun hf => ?_⟩
        obtain ⟨_, _, _, _, _, _, _, _, _, _, hi, _⟩ := hf
        exact not_inFile_of_atMost one hi
      | false =>
        obtain ⟨count, hc, hd⟩ := bind_eq_ok.mp hd
        obtain ⟨high, two, hd⟩ := bind_eq_ok.mp hd
        obtain ⟨xs, hl, _⟩ := items_of_length hc
        cases high with
        | true =>
          cases hd
          refine .inr ⟨rfl, fun hf => ?_⟩
          cases ((inFile_iff_of_compared one two).mp (shown hf has hc hl).1).2
        | false =>
          have hi := (inFile_iff_of_compared one two).mpr ⟨rfl, rfl⟩
          obtain ⟨flag, quoted, hd⟩ := bind_eq_ok.mp hd
          have exactly := quotes_eq_ok hc hl hi quoted
          cases flag with
          | true =>
            rw [Bool.not_true, Bool.and_false] at hd
            cases hd
            exact .inl ⟨rfl, hpres.1, info, ls, count, xs, hk, some, has, hc,
              hl, hi, exactly.mp rfl⟩
          | false =>
            have not : ¬ Quoted xs evidence.line evidence.snippet := by
              rw [← exactly]
              exact Bool.false_ne_true
            have stands : evidence.snippet.truthy = true := by
              rw [← Bool.not_eq_false]
              exact fun absent => not (.inl absent)
            rw [stands] at hd
            cases hd
            exact .inr ⟨rfl, fun hf => not (shown hf has hc hl).2⟩

/-! ## Line numbers -/

structure Rising (lines numbers : List Value) : Prop where
  members : ∀ number ∈ numbers, number ∈ lines
  covers : ∀ line ∈ lines, line ∈ numbers ∨ ∃ number ∈ numbers, line.same number = true
  rises : (∀ line ∈ lines, line.isNaN = false) →
    numbers.Pairwise fun left right => left.less "<" right = .ok true

def met (known vs : List Value) : List Value :=
  vs.foldl (fun known v => if v.among known then known else known ++ [v]) known

theorem met_cons (known : List Value) (v : Value) (vs : List Value) :
    met known (v :: vs) = met (if v.among known then known else known ++ [v]) vs := rfl

variable {known vs : List Value}

theorem mem_met_of_known (hm : v ∈ known) : v ∈ met known vs := by
  induction vs generalizing known with
  | nil => exact hm
  | cons next tl ih =>
    rw [met_cons]
    split
    · exact ih hm
    · exact ih (mem_append_left _ hm)

theorem mem_of_met (hm : v ∈ met known vs) : v ∈ known ∨ v ∈ vs := by
  induction vs generalizing known with
  | nil => exact .inl hm
  | cons next tl ih =>
    rw [met_cons] at hm
    rcases ih hm with old | later
    · split at old
      · exact .inl old
      · rcases mem_append.mp old with old | hs
        · exact .inl old
        · exact .inr (mem_cons.mpr (.inl (mem_singleton.mp hs)))
    · exact .inr (mem_cons_of_mem _ later)

theorem met_covers (hm : v ∈ vs) :
    v ∈ met known vs ∨ ∃ other ∈ met known vs, v.same other = true := by
  induction vs generalizing known with
  | nil => cases hm
  | cons next tl ih =>
    rw [met_cons]
    rcases mem_cons.mp hm with rfl | later
    · split
      · next old =>
        obtain ⟨other, ht, alike⟩ := any_eq_true.mp old
        rw [Value.alike, Bool.or_eq_true] at alike
        rcases alike with twins | hs
        · rw [Value.eq_of_sameNaN twins]
          exact .inl (mem_met_of_known ht)
        · exact .inr ⟨other, mem_met_of_known ht, hs⟩
      · exact .inl (mem_met_of_known (mem_append_right _ (mem_singleton_self _)))
    · exact ih later

theorem pairwise_met (apart : known.Pairwise fun l r => r.same l = false) :
    (met known vs).Pairwise fun l r => r.same l = false := by
  induction vs generalizing known with
  | nil => exact apart
  | cons next tl ih =>
    rw [met_cons]
    split
    · exact ih apart
    · next fresh =>
      rw [Value.among, Bool.not_eq_true, any_eq_false] at fresh
      refine ih (pairwise_append.mpr ⟨apart, pairwise_singleton _ _, ?_⟩)
      intro l old r hs
      rw [mem_singleton.mp hs]
      exact Bool.eq_false_iff.mpr fun equal => fresh l old (Value.alike_of_same equal)

theorem rising_of_sorted {ls ns : List Value} (hi : ∀ ln ∈ ls, ∃ count, InFile count ln)
    (hd : Value.sorted (distinct ls) = .ok ns) : Rising ls ns := by
  have perm := Sorting.perm_of_sort hd
  have members : ∀ n ∈ ns, n ∈ ls := by
    intro n hm
    rcases mem_of_met (perm.mem_iff.mp hm) with none | hl
    · cases none
    · exact hl
  have covers : ∀ ln ∈ ls, ln ∈ ns ∨ ∃ n ∈ ns, ln.same n = true := by
    intro ln hm
    have kept : ln ∈ met [] ls ∨ ∃ other ∈ met [] ls, ln.same other = true := met_covers hm
    rcases kept with kept | ⟨other, kept, hs⟩
    · exact .inl (perm.mem_iff.mpr kept)
    · exact .inr ⟨other, perm.mem_iff.mpr kept, hs⟩
  refine ⟨members, covers, fun defined => ?_⟩
  have finite : ∀ ln ∈ ns, ∃ n, ln.rational? = some n := by
    intro ln hm
    obtain ⟨count, ht⟩ := hi ln (members ln hm)
    rcases ht with undefined | ⟨n, is, _⟩
    · rw [defined ln (members ln hm)] at undefined
      cases undefined
    · exact ⟨n, is⟩
  have domain : ∀ ln ∈ distinct ls, ln.rational?.isSome = true := by
    intro ln hm
    obtain ⟨n, is⟩ := finite ln (perm.mem_iff.mpr hm)
    rw [is]
    rfl
  have order := (Value.ranks_rational? "<").order_sort domain hd
  have apart : ns.Pairwise fun l r => r.same l = false ∨ l.same r = false :=
    (perm.pairwise_iff fun {_ _} => Or.symm).mpr ((pairwise_met List.Pairwise.nil).imp Or.inl)
  refine (order.and apart).imp_of_mem ?_
  rintro l r one two ⟨below, differ⟩
  obtain ⟨a, firstIs⟩ := finite l one
  obtain ⟨b, secondIs⟩ := finite r two
  rw [firstIs, secondIs, Option.getD_some, Option.getD_some] at below
  rw [Value.same_eq secondIs firstIs, Value.same_eq firstIs secondIs, decide_eq_false_iff_not,
    decide_eq_false_iff_not, eq_comm, or_self] at differ
  rw [Value.less_eq firstIs secondIs "<", decide_eq_true (lt_of_le_of_ne below differ)]

/-! ## Findings -/

def itemsOf (fnd : Value) : Outcome (List Value) := do
  ((← fnd.getD "evidence" (.list [])).orElse (.list [])).items

def report (k : Value) (sev : String) (desc src : Value) (ns : List Value)
    (ev : List Evidence) (conf chain : Value) : Value :=
  .record [("threat_type", k), ("severity", .text sev), ("description", desc),
    ("source_file", src), ("line_numbers", .list ns),
    ("evidence", .list (ev.map (·.toValue))), ("ai_generated", .bool true),
    ("confidence", conf), ("chain_id", chain)]

structure Reads (finding : Value) (evidence : List Evidence) (kind : Value) (severity : String)
    (description source confidence chain : Value) : Prop where
  kind : ∃ given, finding.get "threat_type" = .ok given ∧ kind = given.orElse (.text "Unknown")
  severity : severityOf finding = .ok severity
  description : ∃ summary given, finding.get "summary" = .ok summary ∧
    (if summary.truthy then pure summary else finding.get "description") = .ok given ∧
    description = given.orElse (.text "")
  source : ∃ given, finding.get "source_file" = .ok given ∧
    source = given.orElse ((evidence.head?.map (·.file)).getD (.text ""))
  confidence : finding.getD "confidence" (.float (.ofNat 0)) = .ok confidence
  chain : finding.get "chain_id" = .ok chain

variable {fnd : Value} {required : Bool} {r : Option Value}

theorem checkFinding_eq_ok_iff {f : List (Option Evidence)} (hl : itemsOf fnd = .ok items)
    (hchk : items.mapM (checkItem files fnd) = .ok f) :
    checkFinding files required fnd = .ok r ↔
      if required && (f.filterMap id).isEmpty then r = none
      else ∃ k sev desc src ns conf chain,
        Reads fnd (f.filterMap id) k sev desc src conf chain ∧
          Value.sorted (distinct ((f.filterMap id).map (·.line))) = .ok ns ∧
          r = some (report k sev desc src ns (f.filterMap id) conf chain) := by
  obtain ⟨given, has, shown⟩ := bind_eq_ok.mp hl
  rw [checkFinding, bind_ok has, bind_ok shown, bind_ok hchk]
  dsimp only
  split_ifs
  · exact ⟨fun hd => (Except.ok.inj hd).symm, fun none => congrArg Except.ok none.symm⟩
  · constructor
    · intro hd
      obtain ⟨sev, one, hd⟩ := bind_eq_ok.mp hd
      obtain ⟨sum, two, hd⟩ := bind_eq_ok.mp hd
      obtain ⟨desc, three, hd⟩ := bind_eq_ok.mp
        ((apply_ite (fun act : Outcome Value => act >>= _) _ _ _).trans hd)
      obtain ⟨src, four, hd⟩ := bind_eq_ok.mp hd
      obtain ⟨k, five, hd⟩ := bind_eq_ok.mp hd
      obtain ⟨ns, sorted, hd⟩ := bind_eq_ok.mp hd
      obtain ⟨conf, six, hd⟩ := bind_eq_ok.mp hd
      obtain ⟨chain, seven, hd⟩ := bind_eq_ok.mp hd
      exact ⟨_, sev, _, _, ns, conf, chain, ⟨⟨k, five, rfl⟩, one,
        ⟨sum, desc, two, three, rfl⟩, ⟨src, four, rfl⟩, six, seven⟩, sorted,
        (Except.ok.inj hd).symm⟩
    · rintro ⟨_, sev, _, _, ns, conf, chain, ⟨⟨k, five, rfl⟩, one,
        ⟨sum, desc, two, three, rfl⟩, ⟨src, four, rfl⟩, six, seven⟩, sorted, rfl⟩
      rw [bind_ok one, bind_ok two]
      refine (apply_ite (fun act : Outcome Value => act >>= _) _ _ _).symm.trans ?_
      rw [bind_ok three, bind_ok four, bind_ok five, bind_ok sorted, bind_ok six, bind_ok seven]
      rfl

theorem exists_items (hd : checkFinding files required fnd = .ok r) :
    ∃ xs f, itemsOf fnd = .ok xs ∧ xs.mapM (checkItem files fnd) = .ok f := by
  obtain ⟨given, has, hd⟩ := bind_eq_ok.mp hd
  obtain ⟨xs, shown, hd⟩ := bind_eq_ok.mp hd
  obtain ⟨f, hchk, _⟩ := bind_eq_ok.mp hd
  exact ⟨xs, f, by rw [itemsOf, bind_ok has, shown], hchk⟩

theorem checkItem_eq_some {x : Value} (hd : checkItem files fnd x = .ok (some evidence)) :
    stated fnd x = .ok evidence ∧ inspect files evidence = .ok (some evidence) ∧
      Found files evidence := by
  rw [checkItem_eq] at hd
  obtain ⟨said, states, inspected⟩ := bind_eq_ok.mp hd
  rcases inspect_eq_ok inspected with ⟨hs, hh⟩ | ⟨hs, _⟩
  · cases hs
    exact ⟨states, inspected, hh⟩
  · cases hs

theorem mem_found {f : List (Option Evidence)} (hchk : items.mapM (checkItem files fnd) = .ok f) :
    evidence ∈ f.filterMap id ↔
      ∃ x ∈ items, stated fnd x = .ok evidence ∧ Found files evidence := by
  rw [mem_found_iff hchk]
  refine exists_congr fun x => and_congr_right fun hm => ?_
  constructor
  · intro hd
    obtain ⟨states, _, hh⟩ := checkItem_eq_some hd
    exact ⟨states, hh⟩
  · rintro ⟨states, hh⟩
    obtain ⟨r, hd⟩ := succeeds_mapM.mp ⟨f, hchk⟩ x hm
    rw [checkItem_eq, bind_ok states] at hd ⊢
    rcases inspect_eq_ok hd with ⟨hs, _⟩ | ⟨_, hmiss⟩
    · rw [hd, hs]
    · exact absurd hh hmiss

/-! ## A second check -/

theorem orElse_orElse (v other : Value) : (v.orElse other).orElse other = v.orElse other := by
  simp only [Value.orElse]
  split_ifs <;> rfl

theorem checkItem_toValue (finding : Value) (kept : inspect files evidence = .ok (some evidence))
    (found : Found files evidence) :
    checkItem files finding evidence.toValue = .ok (some evidence) := by
  obtain ⟨named, _, _, _, _, _, _, _, _, _, inside, _⟩ := found
  have states : stated finding evidence.toValue = .ok evidence := by
    have file : evidence.toValue.get "file" = .ok evidence.file := rfl
    have line : evidence.toValue.get "line" = .ok evidence.line := rfl
    have snippet : evidence.toValue.getD "snippet" (.text "") = .ok evidence.snippet := rfl
    simp only [stated, bind_ok file, bind_ok line, named, truthy_of_inFile inside]
    rfl
  rw [checkItem_eq, bind_ok states, kept]

theorem mem_severities_of_severityOf {sev : String}
    (hd : severityOf fnd = .ok sev) : sev ∈ severities := by
  obtain ⟨given, _, hd⟩ := bind_eq_ok.mp hd
  obtain ⟨small, _, hd⟩ := bind_eq_ok.mp hd
  cases hd
  split
  · next hk => exact contains_iff_mem.mp hk
  · decide

theorem severityOf_of_mem {sev : String}
    (given : fnd.get "severity" = .ok (.text sev)) (hk : sev ∈ severities) :
    severityOf fnd = .ok sev := by
  rw [severityOf, bind_ok given]
  simp only [severities, mem_cons, not_mem_nil, or_false] at hk
  rcases hk with rfl | rfl | rfl | rfl <;> rfl

theorem checkFinding_again {kept : Value} (hd : checkFinding files required fnd = .ok (some kept)) :
    checkFinding files required kept = .ok (some kept) := by
  obtain ⟨xs, f, hl, hchk⟩ := exists_items hd
  have found_of {ev : Evidence} (hm : ev ∈ f.filterMap id) :
      inspect files ev = .ok (some ev) ∧ Found files ev := by
    obtain ⟨x, _, single⟩ := (mem_found_iff hchk).mp hm
    exact (checkItem_eq_some single).2
  rw [checkFinding_eq_ok_iff hl hchk] at hd
  generalize f.filterMap id = ev at hd found_of
  split_ifs at hd with empty
  obtain ⟨k, sev, desc, src, ns, conf, chain, reads, sorted, hs⟩ := hd
  cases hs
  have again : itemsOf (report k sev desc src ns ev conf chain) = .ok (ev.map (·.toValue)) := by
    have has : (report k sev desc src ns ev conf chain).getD
      "evidence" (.list []) = .ok (.list (ev.map (·.toValue))) := rfl
    rw [itemsOf, bind_ok has, Value.orElse]
    split_ifs with some
    · rfl
    · rw [Value.truthy, Bool.not_eq_true, Bool.not_eq_false', List.isEmpty_iff] at some
      rw [some]
      rfl
  have kept (rep : Value) : (ev.map (·.toValue)).mapM (checkItem files rep) =
      .ok (ev.map some) := by
    rw [mapM_eq_ok_iff, forall₂_map_left_iff, forall₂_map_right_iff, forall₂_same]
    intro single hm
    exact checkItem_toValue rep (found_of hm).1 (found_of hm).2
  have all : (ev.map some).filterMap id = ev := by simp
  rw [checkFinding_eq_ok_iff again (kept _), all, if_neg empty]
  obtain ⟨⟨_, _, rfl⟩, graded, ⟨_, _, _, _, rfl⟩, ⟨_, _, rfl⟩, _, _⟩ := reads
  exact ⟨_, sev, _, _, ns, conf, chain, ⟨⟨_, rfl, (orElse_orElse _ _).symm⟩,
      severityOf_of_mem rfl (mem_severities_of_severityOf graded),
      ⟨.null, _, rfl, rfl, (orElse_orElse _ _).symm⟩, ⟨_, rfl, (orElse_orElse _ _).symm⟩, rfl, rfl⟩,
    sorted, rfl⟩

/-! ## All findings -/

/-- What becomes of a finding: it is dropped when evidence is required and none is found, and else
it is kept with the evidence that was found and the lines of that evidence. -/
structure Checked (files : Value) (required : Bool) (finding : Value) (result : Option Value)
    (evidence : List Evidence) : Prop where
  found : ∃ items, itemsOf finding = .ok items ∧ ∀ single, single ∈ evidence ↔
    ∃ item ∈ items, stated finding item = .ok single ∧ Found files single
  dropped : result = none ↔ required = true ∧ evidence = []
  kept : ∀ kept, result = some kept → kept.lookup "evidence" = .list (evidence.map (·.toValue)) ∧
    ∃ numbers, kept.lookup "line_numbers" = .list numbers ∧ Rising (evidence.map (·.line)) numbers

theorem checked_of_checkFinding (hd : checkFinding files required fnd = .ok r) :
    ∃ ev, Checked files required fnd r ev := by
  obtain ⟨xs, f, hl, hchk⟩ := exists_items hd
  have hi : ∀ ln ∈ (f.filterMap id).map (·.line), ∃ count, InFile count ln := by
    intro ln hm
    obtain ⟨ev, ht, rfl⟩ := mem_map.mp hm
    obtain ⟨_, _, _, hh⟩ := (mem_found hchk).mp ht
    obtain ⟨_, _, _, count, _, _, _, _, _, _, hi, _⟩ := hh
    exact ⟨count, hi⟩
  rw [checkFinding_eq_ok_iff hl hchk] at hd
  refine ⟨f.filterMap id, ⟨xs, hl, fun single => mem_found hchk⟩, ?_, ?_⟩
  · split_ifs at hd with empty
    · rw [Bool.and_eq_true, List.isEmpty_iff] at empty
      exact ⟨fun _ => empty, fun _ => hd⟩
    · obtain ⟨_, _, _, _, _, _, _, _, _, rfl⟩ := hd
      rw [Bool.and_eq_true, List.isEmpty_iff] at empty
      exact ⟨nofun, fun both => absurd both empty⟩
  · intro kept hs
    split_ifs at hd with empty
    · rw [hd] at hs
      cases hs
    · obtain ⟨_, _, _, _, ns, _, _, _, sorted, shape⟩ := hd
      rw [hs] at shape
      cases shape
      exact ⟨rfl, ns, rfl, rising_of_sorted hi sorted⟩

/--
Every finding is treated as `Checked` says, in turn, so that all evidence that is left is in the
project, and a second check returns what the first one returned.
-/
theorem validate_sound_and_idempotent {findings index : Value} {required : Bool} {kept : List Value}
    (done : validate findings index required = .ok kept) :
    (∃ files given results, index.getD "files" (.record []) = .ok files ∧
      findings.items = .ok given ∧ kept = results.filterMap id ∧
      List.Forall₂ (fun finding result => ∃ evidence, Checked files required finding result evidence)
        given results) ∧
      validate (.list kept) index required = .ok kept := by
  obtain ⟨files, has, done⟩ := bind_eq_ok.mp done
  obtain ⟨given, listed, done⟩ := bind_eq_ok.mp done
  obtain ⟨results, checked, done⟩ := bind_eq_ok.mp done
  cases done
  refine ⟨⟨files, given, results, has, listed, rfl, ?_⟩, ?_⟩
  · exact (mapM_eq_ok_iff.mp checked).imp fun _ _ single => checked_of_checkFinding single
  · have again : (results.filterMap id).mapM (checkFinding files required) =
        .ok ((results.filterMap id).map some) := by
      rw [mapM_eq_ok_iff, List.forall₂_map_right_iff, List.forall₂_same]
      intro single member
      obtain ⟨finding, _, first⟩ := (mem_found_iff checked).mp member
      exact checkFinding_again first
    rw [validate, bind_ok has]
    refine (bind_ok (show (Value.list (results.filterMap id)).items = .ok _ from rfl)).trans ?_
    rw [bind_ok again]
    refine congrArg Except.ok ?_
    simp

def commandIndex : Value :=
  .record [("files", .record [("a.py", .record [("lines", .list [.text "os.system(cmd)"])])])]

def half : Value := .float ⟨0x3FE0000000000000⟩

def commandFinding : Value :=
  .record [("severity", .text "HIGH"), ("summary", .text "runs a command"),
    ("source_file", .text "a.py"), ("evidence", .list
      [.record [("line", half), ("snippet", .text " os.system(cmd)\n")],
        .record [("line_number", .int 2)]])]

def keptFinding : Value :=
  report (.text "Unknown") "high" (.text "runs a command") (.text "a.py") [half]
    [⟨.text "a.py", half, .text " os.system(cmd)\n"⟩] (.float (.ofNat 0)) .null

/-- A half is kept as a line, and it is still there after the second check. -/
theorem commandFinding_kept :
    validate (.list [commandFinding]) commandIndex true = .ok [keptFinding] ∧
      half.less "<" (.int 1) = .ok true ∧
      validate (.list [keptFinding]) commandIndex true = .ok [keptFinding] := by
  have done : validate (.list [commandFinding]) commandIndex true = .ok [keptFinding] := rfl
  exact ⟨done, rfl, (validate_sound_and_idempotent done).2⟩

end Project

end SourceAudit
