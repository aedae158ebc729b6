import Mathlib
import SourceAudit.Proofs.Computation
import SourceAudit.Value.Arithmetic

/-!
# The sort is a sort

Sorting takes the run at the head of a list and inserts the other items by halving.
-/

open List Option

namespace SourceAudit

namespace Sorting

variable {α : Type} {less : α → α → Outcome Bool}

/-! ## Keys -/

section Keys

variable {β : Type} [LinearOrder β] (k : α → β)

theorem key_trans (one two three : α) (h1 : decide (k one ≤ k two) = true)
    (h2 : decide (k two ≤ k three) = true) : decide (k one ≤ k three) = true :=
  decide_eq_true ((of_decide_eq_true h1).trans (of_decide_eq_true h2))

theorem key_total (one two : α) : (decide (k one ≤ k two) || decide (k two ≤ k one)) = true := by
  rw [Bool.or_eq_true, decide_eq_true_iff, decide_eq_true_iff]
  exact le_total _ _

theorem pairwise_mergeSort_key (xs : List α) :
    (xs.mergeSort fun one two => decide (k one ≤ k two)).Pairwise (k · ≤ k ·) :=
  (pairwise_mergeSort (key_trans k) (key_total k) xs).imp of_decide_eq_true

end Keys

/-! ## Nothing is lost -/

variable {prev : α} {xs run others : List α}

theorem append_of_fallingRun (hd : fallingRun less prev xs = .ok (run, others)) :
    xs = run ++ others := by
  induction xs generalizing prev run others with
  | nil =>
    cases hd
    rfl
  | cons x tl ih =>
    obtain ⟨falls, _, hd⟩ := Outcome.bind_eq_ok.mp hd
    cases falls with
    | false =>
      cases hd
      rfl
    | true =>
      obtain ⟨⟨more, behind⟩, inner, hd⟩ := Outcome.bind_eq_ok.mp hd
      cases hd
      rw [ih inner, cons_append]

def putAt (pl : Nat) (pivot : α) (xs : List α) : List α :=
  xs.take pl ++ pivot :: xs.drop pl

theorem perm_putAt (pl : Nat) (pivot : α) (xs : List α) :
    (putAt pl pivot xs).Perm (pivot :: xs) := by
  refine perm_middle.trans (List.Perm.cons pivot ?_)
  rw [take_append_drop]

theorem toList_inserted (pl : Nat) (pivot : α) (sorted : Array α) :
    ((sorted.extract 0 pl).push pivot ++ sorted.extract pl sorted.size).toList =
      putAt pl pivot sorted.toList := by
  simp [putAt]

variable {sorted : Array α}

theorem perm_of_insertAll {r : Array α} (hd : insertAll less sorted xs = .ok r) :
    r.toList.Perm (sorted.toList ++ xs) := by
  induction xs generalizing sorted with
  | nil =>
    cases hd
    rw [append_nil]
  | cons pivot tl ih =>
    obtain ⟨pl, _, hd⟩ := Outcome.bind_eq_ok.mp hd
    have inserted := ih hd
    rw [toList_inserted] at inserted
    refine inserted.trans (((perm_putAt pl pivot sorted.toList).append_right tl).trans ?_)
    exact perm_middle.symm

variable {r : List α}

theorem risingRun_eq_fallingRun (prev : α) (xs : List α) :
    risingRun less prev xs = fallingRun (fun l r => do return !(← less l r)) prev xs := by
  induction xs generalizing prev with
  | nil => rfl
  | cons x tl ih =>
    rw [risingRun, fallingRun]
    cases less x prev with
    | error err => rfl
    | ok flag =>
      cases flag with
      | true => rfl
      | false =>
        rw [ih x]
        rfl

theorem sort_cons_cons (a b : α) (tl : List α) :
    sort less (a :: b :: tl) = (less b a >>= fun falls =>
        (if falls then fallingRun less a (b :: tl)
          else risingRun less a (b :: tl)) >>= fun taken =>
            insertAll less
              (if falls then (a :: taken.1).reverse else a :: taken.1).toArray taken.2 >>=
                fun sorted => .ok sorted.toList) := by
  rw [sort, fallingRun, risingRun]
  cases less b a with
  | error err => rfl
  | ok falls =>
    cases falls with
    | true =>
      cases fallingRun less b tl <;> rfl
    | false =>
      cases risingRun less b tl <;> rfl

theorem exists_run_of_sort {a b : α} {tl : List α} (hd : sort less (a :: b :: tl) = .ok r) :
    ∃ (falls : Bool) (run others : List α) (inserted : Array α),
      (if falls then fallingRun less a (b :: tl)
        else risingRun less a (b :: tl)) = .ok (run, others) ∧
        insertAll less (if falls then (a :: run).reverse else a :: run).toArray others =
          .ok inserted ∧ r = inserted.toList := by
  rw [sort_cons_cons] at hd
  obtain ⟨falls, _, hd⟩ := Outcome.bind_eq_ok.mp hd
  obtain ⟨⟨run, others⟩, taken, hd⟩ := Outcome.bind_eq_ok.mp hd
  obtain ⟨inserted, he, hs⟩ := Outcome.bind_eq_ok.mp hd
  cases hs
  exact ⟨falls, run, others, inserted, taken, he, rfl⟩

theorem append_of_run {falls : Bool}
    (taken : (if falls then fallingRun less prev xs else risingRun less prev xs) =
      .ok (run, others)) : xs = run ++ others := by
  cases falls with
  | true => exact append_of_fallingRun taken
  | false =>
    rw [risingRun_eq_fallingRun] at taken
    exact append_of_fallingRun taken

theorem perm_run (falls : Bool) (xs : List α) : (if falls then xs.reverse else xs).Perm xs := by
  cases falls with
  | true => exact reverse_perm xs
  | false => rfl

theorem perm_of_sort (hd : sort less xs = .ok r) : r.Perm xs := by
  match xs, hd with
  | [], hd =>
    cases hd
    rfl
  | [single], hd =>
    cases hd
    rfl
  | a :: b :: tl, hd =>
    obtain ⟨falls, run, others, inserted, taken, he, rfl⟩ := exists_run_of_sort hd
    rw [append_of_run taken]
    exact (perm_of_insertAll he).trans ((perm_run falls _).append_right others)

/-! ## What can be compared can be sorted -/

section Decides

variable {domain : α → Prop}

def Decides (less : α → α → Outcome Bool) (domain : α → Prop) : Prop :=
  ∀ l r, domain l → domain r → ∃ flag, less l r = .ok flag

variable (decides : Decides less domain)

include decides

theorem Decides.fallingRun (start : domain prev) (all : ∀ x ∈ xs, domain x) :
    ∃ taken, Sorting.fallingRun less prev xs = .ok taken := by
  induction xs generalizing prev with
  | nil => exact ⟨_, rfl⟩
  | cons x tl ih =>
    obtain ⟨hh, behind⟩ := forall_mem_cons.mp all
    obtain ⟨flag, compared⟩ := decides x prev hh start
    rw [Sorting.fallingRun, Outcome.bind_ok compared]
    cases flag with
    | false => exact ⟨_, rfl⟩
    | true =>
      obtain ⟨taken, hd⟩ := ih hh behind
      exact ⟨_, Outcome.bind_ok hd⟩

theorem Decides.takeRun (falls : Bool) (start : domain prev) (all : ∀ x ∈ xs, domain x) :
    ∃ taken, (if falls then Sorting.fallingRun less prev xs
      else risingRun less prev xs) = .ok taken := by
  cases falls with
  | true => exact decides.fallingRun start all
  | false =>
    have opposite : Decides (fun l r => do return !(← less l r)) domain := by
      intro l r leftIn rightIn
      obtain ⟨flag, compared⟩ := decides l r leftIn rightIn
      exact ⟨!flag, Outcome.bind_ok compared⟩
    rw [risingRun_eq_fallingRun]
    exact opposite.fallingRun start all

theorem Decides.placeOf {pivot : α} (start : domain pivot) (all : ∀ x ∈ sorted, domain x)
    (fuel low high : Nat) : ∃ pl, Sorting.placeOf less pivot sorted fuel low high = .ok pl := by
  induction fuel generalizing low high with
  | zero => exact ⟨low, rfl⟩
  | succ fuel ih =>
    rw [Sorting.placeOf]
    split
    · dsimp only
      split
      · exact ⟨low, rfl⟩
      · next x hf =>
        obtain ⟨flag, compared⟩ := decides pivot x start (all x (Array.mem_of_getElem? hf))
        rw [Outcome.bind_ok compared]
        cases flag with
        | true => exact ih _ _
        | false => exact ih _ _
    · exact ⟨low, rfl⟩

theorem Decides.insertAll (before : ∀ x ∈ sorted, domain x) (all : ∀ x ∈ xs, domain x) :
    ∃ inserted, Sorting.insertAll less sorted xs = .ok inserted := by
  induction xs generalizing sorted with
  | nil => exact ⟨sorted, rfl⟩
  | cons pivot tl ih =>
    obtain ⟨hh, behind⟩ := forall_mem_cons.mp all
    obtain ⟨pl, hf⟩ := decides.placeOf hh before (sorted.size + 1) 0 sorted.size
    rw [Sorting.insertAll, Outcome.bind_ok hf]
    refine ih (fun x hm => ?_) behind
    rw [← Array.mem_toList_iff, toList_inserted, (perm_putAt pl pivot _).mem_iff,
      mem_cons, Array.mem_toList_iff] at hm
    rcases hm with rfl | old
    · exact hh
    · exact before x old

theorem Decides.sort (all : ∀ x ∈ xs, domain x) : ∃ r, Sorting.sort less xs = .ok r := by
  match xs, all with
  | [], _ => exact ⟨[], rfl⟩
  | [single], _ => exact ⟨[single], rfl⟩
  | a :: b :: tl, all =>
    obtain ⟨start, behind⟩ := forall_mem_cons.mp all
    obtain ⟨falls, compared⟩ := decides b a (behind b mem_cons_self) start
    obtain ⟨⟨run, others⟩, taken⟩ := decides.takeRun falls start behind
    rw [append_of_run taken, forall_mem_append] at behind
    have headIn : ∀ x ∈ (if falls then (a :: run).reverse else a :: run).toArray,
        domain x := by
      intro x hm
      exact forall_mem_cons.mpr ⟨start, behind.1⟩ x
        ((perm_run falls _).mem_iff.mp (List.mem_toArray.mp hm))
    obtain ⟨inserted, he⟩ := decides.insertAll headIn behind.2
    rw [sort_cons_cons, Outcome.bind_ok compared, Outcome.bind_ok taken]
    exact ⟨_, Outcome.bind_ok he⟩

end Decides

/-! ## Order -/

variable {κ : Type} [LinearOrder κ] {rank : α → κ} {domain : α → Prop}

def Ranks (less : α → α → Outcome Bool) (rank : α → κ) (domain : α → Prop) : Prop :=
  ∀ l r, domain l → domain r →
    less l r = .ok (decide (rank l < rank r))

theorem pairwise_of_fallingRun {relation : α → α → Prop} [IsTrans α relation]
    (shows : ∀ l r, domain l → domain r → less r l = .ok true →
      relation l r) (start : domain prev) (all : ∀ x ∈ xs, domain x)
    (hd : fallingRun less prev xs = .ok (run, others)) : (prev :: run).Pairwise relation := by
  induction xs generalizing prev run others with
  | nil =>
    cases hd
    exact pairwise_singleton _ _
  | cons x tl ih =>
    obtain ⟨hh, behind⟩ := forall_mem_cons.mp all
    obtain ⟨falls, compared, hd⟩ := Outcome.bind_eq_ok.mp hd
    cases falls with
    | false =>
      cases hd
      exact pairwise_singleton _ _
    | true =>
      obtain ⟨⟨more, _⟩, inner, hs⟩ := Outcome.bind_eq_ok.mp hd
      cases hs
      have related := shows prev x start hh compared
      have chain := ih hh behind inner
      refine pairwise_cons.mpr ⟨?_, chain⟩
      intro other hm
      rcases mem_cons.mp hm with rfl | later
      · exact related
      · exact IsTrans.trans _ _ _ related ((pairwise_cons.mp chain).1 other later)

theorem Ranks.order_run (ranks : Ranks less rank domain) {a : α} {falls : Bool}
    (start : domain a) (all : ∀ x ∈ xs, domain x)
    (taken : (if falls then fallingRun less a xs else risingRun less a xs) =
      .ok (run, others)) :
    (if falls then (a :: run).reverse else a :: run).Pairwise fun l r => rank l ≤ rank r := by
  cases falls with
  | true =>
    rw [if_pos rfl, pairwise_reverse]
    refine pairwise_of_fallingRun (fun l r one two shown => ?_) start all taken
    rw [ranks r l two one, Except.ok.injEq, decide_eq_true_iff] at shown
    exact shown.le
  | false =>
    rw [risingRun_eq_fallingRun] at taken
    refine pairwise_of_fallingRun (fun l r one two shown => ?_) start all taken
    rw [ranks r l two one] at shown
    exact not_lt.mp (by simpa [bind, Except.bind, pure, Except.pure] using shown)

def Parts (rank : α → κ) (pivot : α) (xs : List α) (low high : Nat) : Prop :=
  (∀ i x, i < low → xs[i]? = some x → rank x ≤ rank pivot) ∧
    ∀ i x, high ≤ i → xs[i]? = some x → rank pivot < rank x

theorem le_of_getElem? (sorted : xs.Pairwise fun l r => rank l ≤ rank r)
    {i other : Nat} {l r : α} (before : i ≤ other)
    (h1 : xs[i]? = some l) (h2 : xs[other]? = some r) : rank l ≤ rank r := by
  rcases Nat.lt_or_eq_of_le before with below | rfl
  · obtain ⟨hi, rfl⟩ := List.getElem?_eq_some_iff.mp h1
    obtain ⟨alsoInside, rfl⟩ := List.getElem?_eq_some_iff.mp h2
    exact pairwise_iff_getElem.mp sorted i other hi alsoInside below
  · rw [h1] at h2
    cases h2
    exact le_rfl

theorem Ranks.parts_placeOf (ranks : Ranks less rank domain) {pivot : α} (start : domain pivot)
    (all : ∀ x ∈ sorted, domain x) (order : sorted.toList.Pairwise fun l r => rank l ≤ rank r)
    {fuel low high pl : Nat} (enough : high - low < fuel) (bounded : high ≤ sorted.size)
    (parts : Parts rank pivot sorted.toList low high) (within : low ≤ high)
    (hd : placeOf less pivot sorted fuel low high = .ok pl) :
    Parts rank pivot sorted.toList pl pl := by
  induction fuel generalizing low high with
  | zero => omega
  | succ fuel ih =>
    rw [placeOf] at hd
    split at hd
    · next open_ =>
      dsimp only at hd
      generalize middle_eq : low + (high - low) / 2 = mid at hd
      have hi : mid < sorted.size := by omega
      have hf : sorted.toList[mid]? = some sorted[mid] := by
        rw [Array.getElem?_toList, Array.getElem?_eq_getElem hi]
      rw [Array.getElem?_eq_getElem hi] at hd
      dsimp only at hd
      rw [Outcome.bind_ok (ranks pivot _ start (all _ (Array.getElem_mem hi)))] at hd
      by_cases below : rank pivot < rank sorted[mid]
      · rw [decide_eq_true below] at hd
        refine ih (by omega) (by omega) ⟨parts.1, ?_⟩ (by omega) hd
        intro i x behind ht
        exact below.trans_le (le_of_getElem? order behind hf ht)
      · rw [decide_eq_false below] at hd
        refine ih (by omega) bounded ⟨?_, parts.2⟩ (by omega) hd
        intro i x before ht
        exact (le_of_getElem? order (by omega) ht hf).trans (not_lt.mp below)
    · next closed =>
      have hh : low = pl := Except.ok.inj hd
      have hs : low = high := by omega
      rw [← hs, hh] at parts
      exact parts

theorem pairwise_putAt {pivot : α} {pl : Nat} (order : xs.Pairwise fun l r => rank l ≤ rank r)
    (parts : Parts rank pivot xs pl pl) :
    (putAt pl pivot xs).Pairwise fun l r => rank l ≤ rank r := by
  have before : ∀ x ∈ xs.take pl, rank x ≤ rank pivot := by
    intro x hm
    obtain ⟨i, hi, rfl⟩ := mem_iff_getElem.mp hm
    rw [length_take] at hi
    refine parts.1 i _ (by omega) ?_
    rw [getElem_take, getElem?_eq_getElem]
  have behind : ∀ x ∈ xs.drop pl, rank pivot ≤ rank x := by
    intro x hm
    obtain ⟨i, hi, rfl⟩ := mem_iff_getElem.mp hm
    refine (parts.2 (pl + i) _ (by omega) ?_).le
    rw [getElem_drop, getElem?_eq_getElem]
  rw [putAt, pairwise_append, pairwise_cons]
  refine ⟨order.sublist (take_sublist _ _), ⟨behind, order.sublist (drop_sublist _ _)⟩, ?_⟩
  intro l inFront r hm
  rcases mem_cons.mp hm with rfl | later
  · exact before l inFront
  · exact (before l inFront).trans (behind r later)

theorem Ranks.order_insertAll (ranks : Ranks less rank domain) {result : Array α}
    (before : ∀ x ∈ sorted, domain x) (all : ∀ x ∈ xs, domain x)
    (order : sorted.toList.Pairwise fun l r => rank l ≤ rank r)
    (hd : insertAll less sorted xs = .ok result) :
    result.toList.Pairwise fun l r => rank l ≤ rank r := by
  induction xs generalizing sorted with
  | nil =>
    cases hd
    exact order
  | cons pivot tl ih =>
    obtain ⟨hh, later⟩ := forall_mem_cons.mp all
    obtain ⟨pl, hf, hd⟩ := Outcome.bind_eq_ok.mp hd
    have nothing : Parts rank pivot sorted.toList 0 sorted.size := by
      refine ⟨fun i x below => absurd below (Nat.not_lt_zero i), ?_⟩
      intro i x behind ht
      obtain ⟨hi, _⟩ := List.getElem?_eq_some_iff.mp ht
      rw [Array.length_toList] at hi
      omega
    have parts := ranks.parts_placeOf hh before order (by omega) le_rfl nothing (by omega) hf
    refine ih ?_ later ?_ hd
    · intro x hm
      rw [← Array.mem_toList_iff, toList_inserted, (perm_putAt pl pivot _).mem_iff] at hm
      rcases mem_cons.mp hm with rfl | old
      · exact hh
      · exact before x (Array.mem_toList_iff.mp old)
    · rw [toList_inserted]
      exact pairwise_putAt order parts

theorem Ranks.order_sort (ranks : Ranks less rank domain) (all : ∀ x ∈ xs, domain x)
    (hd : sort less xs = .ok r) : r.Pairwise fun l right => rank l ≤ rank right := by
  match xs, all, hd with
  | [], _, hd =>
    cases hd
    exact List.Pairwise.nil
  | [single], _, hd =>
    cases hd
    exact pairwise_singleton _ _
  | a :: b :: tl, all, hd =>
    obtain ⟨falls, run, others, inserted, taken, he, rfl⟩ := exists_run_of_sort hd
    obtain ⟨start, behind⟩ := forall_mem_cons.mp all
    have parted := behind
    rw [append_of_run taken, forall_mem_append] at parted
    refine ranks.order_insertAll ?_ parted.2 (ranks.order_run start behind taken) he
    intro x hm
    have hl := (perm_run falls _).mem_iff.mp (List.mem_toArray.mp hm)
    exact forall_mem_cons.mpr ⟨start, parted.1⟩ x hl

end Sorting

namespace Value

/-! ## Numbers among the values -/

def rational? (v : Value) : Option ℚ :=
  v.ratio?.map fun ratio => ratio.1 / ratio.2

variable {value : Value}

theorem rational?_of_whole? {n : Int} (is : value.whole? = some n) :
    value.rational? = some (n : ℚ) := by
  cases value with
  | int whole =>
    cases is
    simp [rational?, ratio?]
  | bool flag =>
    cases is
    simp [rational?, ratio?]
  | _ => cases is

theorem rational?_int (n : Int) : (int n).rational? = some (n : ℚ) := rational?_of_whole? rfl

theorem ratio_pos (n : Double) : 0 < n.ratio.2 := by
  rw [Double.ratio, Double.quotient]
  dsimp only
  split_ifs
  · exact Nat.one_pos
  · exact Nat.pow_pos Nat.two_pos

theorem number_cases (number : value.isNumber = true) :
    value.isNaN = true ∨ value.isNaN = false ∧ (∃ up, value.infinite? = some up) ∧
        value.rational? = none ∨
      value.isNaN = false ∧ value.infinite? = none ∧
        ∃ above below, value.ratio? = some (above, below) ∧ 0 < below := by
  cases value with
  | bool flag => exact .inr (.inr ⟨rfl, rfl, _, _, rfl, Nat.one_pos⟩)
  | int whole => exact .inr (.inr ⟨rfl, rfl, _, _, rfl, Nat.one_pos⟩)
  | float double =>
    cases undefined : double.isNaN with
    | true => exact .inl undefined
    | false =>
      right
      cases infinite : double.isInfinite with
      | true => simp [isNaN, infinite?, rational?, ratio?, undefined, infinite]
      | false =>
        refine .inr ⟨undefined, ?_, double.ratio.1, double.ratio.2, ?_, ratio_pos double⟩
        · simp [infinite?, infinite]
        · simp [ratio?, undefined, infinite]
  | _ => cases number

theorem ratio?_of_rational? {exact : ℚ} (is : value.rational? = some exact) :
    ∃ above below, value.ratio? = some (above, below) ∧ 0 < below ∧ (above / below : ℚ) = exact ∧
      value.isNumber = true ∧ value.isNaN = false ∧ value.infinite? = none := by
  have number : value.isNumber = true := by
    cases value with
    | bool flag => rfl
    | int whole => rfl
    | float double => rfl
    | _ => cases is
  rcases number_cases number with undefined | ⟨_, _, none⟩ | ⟨defined, finite, above, below, ratio, hpos⟩
  · cases value <;> simp_all [isNaN, rational?, ratio?]
  · rw [none] at is
    cases is
  · rw [rational?, ratio, map_some, Option.some.injEq] at is
    exact ⟨above, below, ratio, hpos, is, number, defined, finite⟩

variable {l right : Value} {first second : ℚ}

theorem compareNumbers_eq (one : l.rational? = some first) (two : right.rational? = some second) :
    l.compareNumbers right = some (compare first second) := by
  obtain ⟨a, b, leftIs, b_pos, rfl, _, leftNumber, leftFinite⟩ := ratio?_of_rational? one
  obtain ⟨c, d, rightIs, d_pos, rfl, _, rightNumber, rightFinite⟩ := ratio?_of_rational? two
  rw [compareNumbers, leftNumber, rightNumber, leftFinite, rightFinite, leftIs, rightIs]
  have b_size : (0 : ℚ) < b := by exact_mod_cast b_pos
  have d_size : (0 : ℚ) < d := by exact_mod_cast d_pos
  refine congrArg some ?_
  simp only [Int.ofNat_eq_natCast]
  rcases lt_trichotomy (a * (d : ℤ)) (c * b) with below | hs | above
  · rw [compare_lt_iff_lt.mpr below, eq_comm, compare_lt_iff_lt, div_lt_div_iff₀ b_size d_size]
    exact_mod_cast below
  · rw [compare_eq_iff_eq.mpr hs, eq_comm, compare_eq_iff_eq, div_eq_div_iff b_size.ne' d_size.ne']
    exact_mod_cast hs
  · rw [compare_gt_iff_gt.mpr above, eq_comm, compare_gt_iff_gt, div_lt_div_iff₀ d_size b_size]
    exact_mod_cast above

theorem isNumber_of_rational? (one : l.rational? = some first) : l.isNumber = true := by
  obtain ⟨_, _, _, _, _, number, _⟩ := ratio?_of_rational? one
  exact number

section

variable (one : l.isNumber = true) (two : right.isNumber = true)
include one two

theorem less_of_isNumber (op : String) :
    l.less op right = .ok (l.compareNumbers right == some .lt) := by
  cases l <;> cases one <;> cases right <;> cases two <;> rfl

theorem greater_of_isNumber : l.greater right = .ok (l.compareNumbers right == some .gt) := by
  cases l <;> cases one <;> cases right <;> cases two <;> rfl

theorem atMost_of_isNumber :
    l.atMost right = .ok (l.compareNumbers right == some .lt ||
      l.compareNumbers right == some .eq) := by
  have both : (l.isNumber && right.isNumber) = true := by rw [one, two]; rfl
  unfold atMost
  split
  · cases one
  · rw [if_pos both]
    cases l.compareNumbers right with
    | none => rfl
    | some order => cases order <;> rfl

theorem same_of_isNumber : l.same right = (l.compareNumbers right == some .eq) := by
  cases l <;> cases one <;> cases right <;> cases two <;> simp [same, isNumber]

end

theorem isNumber_of_atMost {bound : Int} {flag : Bool}
    (hd : l.atMost (.int bound) = .ok flag) : l.isNumber = true := by
  cases l with
  | bool flag => rfl
  | int whole => rfl
  | float double => rfl
  | _ => cases hd

section

variable (one : l.rational? = some first) (two : right.rational? = some second)
include one two

theorem less_eq (op : String) : l.less op right = .ok (decide (first < second)) := by
  rw [less_of_isNumber (isNumber_of_rational? one) (isNumber_of_rational? two),
    compareNumbers_eq one two]
  refine congrArg Except.ok ?_
  rw [Bool.eq_iff_iff, beq_iff_eq, decide_eq_true_iff, Option.some.injEq, compare_lt_iff_lt]

theorem greater_eq : l.greater right = .ok (decide (second < first)) := by
  rw [greater_of_isNumber (isNumber_of_rational? one) (isNumber_of_rational? two),
    compareNumbers_eq one two]
  refine congrArg Except.ok ?_
  rw [Bool.eq_iff_iff, beq_iff_eq, decide_eq_true_iff, Option.some.injEq, compare_gt_iff_gt]

theorem atMost_eq : l.atMost right = .ok (decide (first ≤ second)) := by
  rw [atMost_of_isNumber (isNumber_of_rational? one) (isNumber_of_rational? two),
    compareNumbers_eq one two]
  refine congrArg Except.ok ?_
  rw [Bool.eq_iff_iff, Bool.or_eq_true, beq_iff_eq, beq_iff_eq, decide_eq_true_iff,
    Option.some.injEq, Option.some.injEq, compare_lt_iff_lt, compare_eq_iff_eq, le_iff_lt_or_eq]

theorem same_eq : l.same right = decide (first = second) := by
  rw [same_of_isNumber (isNumber_of_rational? one) (isNumber_of_rational? two),
    compareNumbers_eq one two, Bool.eq_iff_iff, beq_iff_eq, decide_eq_true_iff, Option.some.injEq,
    compare_eq_iff_eq]

end

theorem ranks_rational? (op : String) :
    Sorting.Ranks (fun l r : Value => l.less op r)
      (fun v => v.rational?.getD 0) fun v => v.rational?.isSome = true := by
  intro l r one two
  obtain ⟨a, one⟩ := isSome_iff_exists.mp one
  obtain ⟨b, two⟩ := isSome_iff_exists.mp two
  refine (less_eq one two op).trans (congrArg Except.ok (decide_eq_decide.mpr ?_))
  simp only [one, two, getD_some]

end Value

end SourceAudit
