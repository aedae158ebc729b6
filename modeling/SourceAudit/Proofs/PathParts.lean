import SourceAudit.Files.Path
import SourceAudit.Proofs.TextCutting

/-!
# The parts of paths

A path names its target by its parts: the texts between the slashes, without single dots, and with
double dots resolved.
-/

open List

namespace SourceAudit.Text

theorem splitOn_append_cons (c : Char) (pre tl : List Char) :
    splitOn [c] (pre ++ c :: tl) = splitOn [c] pre ++ splitOn [c] tl := by
  have hne : [c] ≠ [] := cons_ne_nil c []
  by_cases hi : c ∈ pre
  · obtain ⟨before, behind, shape, absent⟩ := eq_append_cons_of_mem hi
    have shorter : behind.length < pre.length := by
      rw [shape, length_append, length_cons]
      omega
    rw [shape, append_assoc, cons_append, splitOn_of_cut? hne (cut?_singleton absent _),
      splitOn_of_cut? hne (cut?_singleton absent _), splitOn_append_cons c behind tl, cons_append]
  · have hmiss := cut?_eq_none_of_notMem (mem_singleton_self c) hi
    rw [splitOn_of_cut? hne (cut?_singleton hi tl), splitOn_of_missing hne hmiss]
    rfl
termination_by pre.length

theorem splitOn_of_notMem {c : Char} {t : List Char} (absent : c ∉ t) : splitOn [c] t = [t] :=
  splitOn_of_missing (cons_ne_nil c []) (cut?_eq_none_of_notMem (mem_singleton_self c) absent)

theorem notMem_of_mem_splitOn (c : Char) (t : List Char) {piece : List Char}
    (hm : piece ∈ splitOn [c] t) : c ∉ piece := by
  by_cases hi : c ∈ t
  · obtain ⟨before, behind, shape, absent⟩ := eq_append_cons_of_mem hi
    rw [shape, splitOn_append_cons, splitOn_of_notMem absent] at hm
    rcases mem_append.mp hm with h1 | later
    · rw [mem_singleton.mp h1]
      exact absent
    · have shorter : behind.length < t.length := by
        rw [shape, length_append, length_cons]
        omega
      exact notMem_of_mem_splitOn c behind later
  · rw [splitOn_of_notMem hi] at hm
    rw [mem_singleton.mp hm]
    exact hi
termination_by t.length

end SourceAudit.Text

namespace SourceAudit.Path

structure IsName (name : String) : Prop where
  unslashed : '/' ∉ name.toList
  nonempty : name ≠ ""
  here : name ≠ "."
  above : name ≠ ".."

variable {p nm : String}

/-! ## Slashes -/

theorem splitOn_slash (pre back : String) :
    Str.splitOn "/" (pre ++ "/" ++ back) = Str.splitOn "/" pre ++ Str.splitOn "/" back := by
  have shape : (pre ++ "/" ++ back).toList = pre.toList ++ '/' :: back.toList := by
    simp [String.toList_append]
  rw [Str.splitOn, shape, show "/".toList = ['/'] from rfl, Text.splitOn_append_cons, map_append]
  rfl

theorem splitOn_unslashed {t : String} (unslashed : '/' ∉ t.toList) : Str.splitOn "/" t = [t] := by
  rw [Str.splitOn, show "/".toList = ['/'] from rfl, Text.splitOn_of_notMem unslashed]
  simp

theorem splitOn_intercalate {pieces : List String} (hne : pieces ≠ [])
    (unslashed : ∀ piece ∈ pieces, '/' ∉ piece.toList) :
    Str.splitOn "/" ("/".intercalate pieces) = pieces := by
  induction pieces with
  | nil => exact absurd rfl hne
  | cons a tl ih =>
    obtain ⟨hp, others⟩ := forall_mem_cons.mp unslashed
    cases tl with
    | nil =>
      rw [String.intercalate_singleton]
      exact splitOn_unslashed hp
    | cons next tl =>
      rw [String.intercalate_cons_cons, splitOn_slash, splitOn_unslashed hp,
        ih (cons_ne_nil next tl) others]
      rfl

/-! ## Resolving -/

def pushPart (isAbsolute : Bool) (resolved : List String) (part : String) : List String :=
  if part == "" || part == "." then resolved
  else if part == ".." then
    match resolved with
    | [] => if isAbsolute then [] else [".."]
    | last :: others => if last == ".." then ".." :: resolved else others
  else part :: resolved

theorem resolveParts_eq (isAbsolute : Bool) (resolved pieces : List String) :
    resolveParts isAbsolute resolved pieces =
      (pieces.foldl (pushPart isAbsolute) resolved).reverse := by
  induction pieces generalizing resolved with
  | nil => rw [resolveParts, foldl_nil]
  | cons part tl ih =>
    rw [foldl_cons, ← ih, resolveParts.eq_def, pushPart.eq_def]
    dsimp only
    split
    · rfl
    · split
      · cases resolved with
        | nil => rfl
        | cons last others =>
          dsimp only
          split
          · rfl
          · rfl
      · rfl

theorem pushPart_cases (isAbsolute : Bool) (resolved : List String) (part : String) :
    pushPart isAbsolute resolved part = resolved ∨
      (pushPart isAbsolute resolved part = part :: resolved ∧ part ≠ "") ∨
        ∃ last, resolved = last :: pushPart isAbsolute resolved part := by
  rw [pushPart.eq_def]
  split
  · exact Or.inl rfl
  · next kept =>
    have hfl : part ≠ "" := by
      rintro rfl
      exact kept rfl
    split
    · next back =>
      obtain rfl := eq_of_beq back
      cases resolved with
      | nil =>
        cases isAbsolute with
        | true => exact Or.inl rfl
        | false => exact Or.inr (Or.inl ⟨rfl, hfl⟩)
      | cons last others =>
        dsimp only
        split
        · exact Or.inr (Or.inl ⟨rfl, hfl⟩)
        · exact Or.inr (Or.inr ⟨last, rfl⟩)
    · exact Or.inr (Or.inl ⟨rfl, hfl⟩)

theorem pushPart_name (hn : IsName nm) (isAbsolute : Bool) (resolved : List String) :
    pushPart isAbsolute resolved nm = nm :: resolved := by
  simp [pushPart, hn.nonempty, hn.here, hn.above]

def Settled (isAbsolute : Bool) (resolved : List String) : Prop :=
  ∀ tail, tail <:+ resolved → tail.reverse.foldl (pushPart isAbsolute) [] = tail

theorem Settled.pushPart {isAbsolute : Bool} {resolved : List String}
    (settled : Settled isAbsolute resolved) (part : String) :
    Settled isAbsolute (pushPart isAbsolute resolved part) := by
  rcases pushPart_cases isAbsolute resolved part with hs | ⟨pushed, _⟩ | ⟨last, popped⟩
  · rw [hs]
    exact settled
  · rw [pushed]
    intro tail suffix
    rcases suffix_cons_iff.mp suffix with rfl | further
    · rw [reverse_cons, foldl_append, settled resolved (suffix_refl resolved),
        foldl_cons, foldl_nil, pushed]
    · exact settled tail further
  · intro tail suffix
    apply settled tail
    rw [popped]
    exact suffix.trans (suffix_cons last _)

theorem Settled.foldl {isAbsolute : Bool} {resolved : List String}
    (settled : Settled isAbsolute resolved) (pieces : List String) :
    Settled isAbsolute (pieces.foldl (Path.pushPart isAbsolute) resolved) := by
  induction pieces generalizing resolved with
  | nil => exact settled
  | cons part tl ih => exact ih (settled.pushPart part)

theorem resolveParts_parts (p : String) : resolveParts (isAbsolute p) [] (parts p) = parts p := by
  have empty : Settled (isAbsolute p) [] := by
    intro tail suffix
    rw [suffix_nil.mp suffix]
    rfl
  have settled := empty.foldl (Str.splitOn "/" p) _ (suffix_refl _)
  rw [parts, resolveParts_eq, resolveParts_eq, settled]

theorem mem_foldl_pushPart {isAbsolute : Bool} {part : String} {resolved pieces : List String}
    (hm : part ∈ pieces.foldl (pushPart isAbsolute) resolved) :
    part ∈ resolved ∨ part ∈ pieces ∧ part ≠ "" := by
  induction pieces generalizing resolved with
  | nil => exact Or.inl hm
  | cons piece tl ih =>
    rcases ih hm with before | ⟨hi, hfl⟩
    · rcases pushPart_cases isAbsolute resolved piece with
        hs | ⟨pushed, hfl⟩ | ⟨last, popped⟩
      · rw [hs] at before
        exact Or.inl before
      · rw [pushed] at before
        rcases mem_cons.mp before with rfl | earlier
        · exact Or.inr ⟨mem_cons_self, hfl⟩
        · exact Or.inl earlier
      · rw [popped]
        exact Or.inl (mem_cons_of_mem last before)
    · exact Or.inr ⟨mem_cons_of_mem piece hi, hfl⟩

theorem mem_parts {p part : String} (hm : part ∈ parts p) : '/' ∉ part.toList ∧ part ≠ "" := by
  rw [parts, resolveParts_eq, mem_reverse] at hm
  rcases mem_foldl_pushPart hm with none | ⟨hi, hfl⟩
  · cases none
  · rw [Str.splitOn, mem_map] at hi
    obtain ⟨piece, among, rfl⟩ := hi
    refine ⟨?_, hfl⟩
    rw [String.toList_ofList]
    exact Text.notMem_of_mem_splitOn '/' _ among

/-! ## The full path -/

theorem isAbsolute_append {pre : String} (hfl : pre ≠ "") (back : String) :
    isAbsolute (pre ++ back) = isAbsolute pre := by
  have hne : pre.toList ≠ [] := by
    rw [ne_eq, String.toList_eq_nil_iff]
    exact hfl
  obtain ⟨c, tl, shape⟩ := exists_cons_of_ne_nil hne
  rw [isAbsolute, isAbsolute, String.toList_append, shape]
  rfl

theorem IsName.not_isAbsolute (hn : IsName nm) : isAbsolute nm = false := by
  rw [Bool.eq_false_iff]
  intro slashed
  apply hn.unslashed
  exact mem_of_mem_head? (beq_iff_eq.mp slashed)

theorem splitOn_slash_cons (t : String) : Str.splitOn "/" ("/" ++ t) = "" :: Str.splitOn "/" t := by
  have empty : Str.splitOn "/" "" = [""] := splitOn_unslashed not_mem_nil
  have split := splitOn_slash "" t
  rw [String.empty_append, empty] at split
  exact split

theorem parts_slashed {start : String} (slashed : start = "//" ∨ start = "/") (t : String) :
    parts (start ++ t) = resolveParts true [] (Str.splitOn "/" t) := by
  rcases slashed with rfl | rfl
  · have shape : "//" ++ t = "/" ++ ("/" ++ t) := by simp [← String.append_assoc]
    rw [parts, isAbsolute_append (by decide), shape, splitOn_slash_cons, splitOn_slash_cons]
    rfl
  · rw [parts, isAbsolute_append (by decide), splitOn_slash_cons]
    rfl

theorem resolveParts_intercalate (p : String) :
    resolveParts (isAbsolute p) [] (Str.splitOn "/" ("/".intercalate (parts p))) = parts p := by
  by_cases empty : parts p = []
  · rw [empty, String.intercalate_nil, splitOn_unslashed not_mem_nil]
    rfl
  · rw [splitOn_intercalate empty fun piece hm => (mem_parts hm).1]
    exact resolveParts_parts p

theorem not_isAbsolute_intercalate (p : String) :
    isAbsolute ("/".intercalate (parts p)) = false := by
  cases shape : parts p with
  | nil => rfl
  | cons a tl =>
    obtain ⟨unslashed, hfl⟩ := mem_parts (shape ▸ mem_cons_self : a ∈ parts p)
    have relative : isAbsolute a = false := by
      rw [Bool.eq_false_iff]
      intro slashed
      exact unslashed (mem_of_mem_head? (beq_iff_eq.mp slashed))
    cases tl with
    | nil => rw [String.intercalate_singleton, relative]
    | cons next tl =>
      rw [String.intercalate_cons_cons, String.append_assoc, isAbsolute_append hfl, relative]

def slashesOf (p : String) : String :=
  let slashes := (p.toList.takeWhile (· == '/')).length
  if slashes == 0 then "" else if slashes == 2 then "//" else "/"

theorem slashesOf_relative (relative : isAbsolute p = false) : slashesOf p = "" := by
  rw [isAbsolute] at relative
  rw [slashesOf]
  cases shape : p.toList with
  | nil => rfl
  | cons c tl =>
    rw [shape] at relative
    have ho : (c == '/') = false := by simpa using relative
    simp [ho]

theorem slashesOf_absolute (absolute : isAbsolute p = true) :
    slashesOf p = "//" ∨ slashesOf p = "/" := by
  rw [isAbsolute] at absolute
  rw [slashesOf]
  cases shape : p.toList with
  | nil =>
    rw [shape] at absolute
    cases absolute
  | cons c tl =>
    rw [shape] at absolute
    have slash : c = '/' := by simpa using absolute
    have count : ((c :: tl).takeWhile (· == '/')).length ≠ 0 := by simp [slash]
    rw [if_neg (by simpa using count)]
    split
    · exact Or.inl rfl
    · exact Or.inr rfl

theorem normalize_absolute (absolute : isAbsolute p = true) :
    normalize p = slashesOf p ++ "/".intercalate (parts p) := by
  have filled : p.isEmpty = false := by
    rw [Bool.eq_false_iff, ne_eq, String.isEmpty_iff]
    rintro rfl
    cases absolute
  have hfl : (slashesOf p ++ "/".intercalate (parts p)).isEmpty = false := by
    rcases slashesOf_absolute absolute with double | single
    · simp [double]
    · simp [single]
  rw [normalize, filled, if_neg Bool.false_ne_true]
  exact if_neg (Bool.eq_false_iff.mp hfl)

theorem parts_normalize (p : String) : parts (normalize p) = parts p := by
  have joined := resolveParts_intercalate p
  cases absolute : isAbsolute p with
  | true =>
    rw [absolute] at joined
    rw [normalize_absolute absolute, parts_slashed (slashesOf_absolute absolute), joined]
  | false =>
    have relative := not_isAbsolute_intercalate p
    rw [absolute] at joined
    rw [normalize]
    change parts (if p.isEmpty then "." else
      if (slashesOf p ++ "/".intercalate (parts p)).isEmpty then "."
      else slashesOf p ++ "/".intercalate (parts p)) = _
    rw [slashesOf_relative absolute, String.empty_append]
    generalize "/".intercalate (parts p) = t at joined relative
    split
    · next empty =>
      rw [String.isEmpty_iff.mp empty]
      decide
    · split
      · next empty =>
        rw [String.isEmpty_iff.mp empty, splitOn_unslashed not_mem_nil] at joined
        rw [← joined]
        decide
      · rw [← joined, parts, relative]

theorem getLast?_append {pre back : String} (hfl : back ≠ "") :
    (pre ++ back).toList.getLast? = back.toList.getLast? := by
  have hne : back.toList ≠ [] := by
    rw [ne_eq, String.toList_eq_nil_iff]
    exact hfl
  rw [String.toList_append, List.getLast?_append, getLast?_eq_some_getLast hne]
  rfl

theorem resolveParts_name (hn : IsName nm) (isAbsolute : Bool) (pre : String) :
    resolveParts isAbsolute [] (Str.splitOn "/" (pre ++ "/" ++ nm)) =
      resolveParts isAbsolute [] (Str.splitOn "/" pre) ++ [nm] := by
  rw [splitOn_slash, splitOn_unslashed hn.unslashed, resolveParts_eq, resolveParts_eq,
    foldl_append, foldl_cons, foldl_nil, pushPart_name hn, reverse_cons]

theorem resolveParts_slash (isAbsolute : Bool) (pre : String) :
    resolveParts isAbsolute [] (Str.splitOn "/" (pre ++ "/")) =
      resolveParts isAbsolute [] (Str.splitOn "/" pre) := by
  have split := splitOn_slash pre ""
  rw [String.append_empty, splitOn_unslashed (show '/' ∉ "".toList from not_mem_nil)] at split
  rw [split, resolveParts_eq, resolveParts_eq, foldl_append]
  rfl

theorem isEmpty_eq_false {t : String} (hfl : t ≠ "") : t.isEmpty = false := by
  rw [Bool.eq_false_iff, ne_eq, String.isEmpty_iff]
  exact hfl

theorem parts_join (hn : IsName nm) {dir : String} (hfl : dir ≠ "") :
    parts (join dir nm) = parts dir ++ [nm] := by
  rw [join, hn.not_isAbsolute, isEmpty_eq_false hfl, if_neg Bool.false_ne_true, Bool.false_or]
  split
  · next slashed =>
    obtain ⟨before, shape⟩ := getLast?_eq_some_iff.mp (beq_iff_eq.mp slashed)
    have he : dir = String.ofList before ++ "/" := by
      rw [← String.toList_inj, shape]
      simp [String.toList_append]
    rw [parts, isAbsolute_append hfl, parts, he, resolveParts_name hn, resolveParts_slash]
  · rw [parts, String.append_assoc, isAbsolute_append hfl, ← String.append_assoc,
      resolveParts_name hn, parts]

theorem exists_join_front (here : String) :
    ∃ pre, ∀ p, isAbsolute p = false → join here p = pre ++ p := by
  by_cases he : (here.isEmpty || here.toList.getLast? == some '/') = true
  · refine ⟨here, fun p relative => ?_⟩
    rw [join, relative, if_neg Bool.false_ne_true, if_pos he]
  · refine ⟨here ++ "/", fun p relative => ?_⟩
    rw [join, relative, if_neg Bool.false_ne_true, if_neg he]

theorem isAbsolute_join (hn : IsName nm) {dir : String} (hfl : dir ≠ "") :
    isAbsolute (join dir nm) = isAbsolute dir := by
  rw [join, hn.not_isAbsolute, if_neg Bool.false_ne_true]
  split
  · exact isAbsolute_append hfl nm
  · rw [String.append_assoc]
    exact isAbsolute_append hfl _

theorem join_append (hn : IsName nm) {dir : String} (hfl : dir ≠ "")
    (pre : String) : join (pre ++ dir) nm = pre ++ join dir nm := by
  have whole : pre ++ dir ≠ "" := by
    intro empty
    exact hfl (String.append_eq_empty_iff.mp empty).2
  rw [join, join, hn.not_isAbsolute, isEmpty_eq_false hfl, isEmpty_eq_false whole,
    getLast?_append hfl, if_neg Bool.false_ne_true, if_neg Bool.false_ne_true, Bool.false_or]
  split
  · exact String.append_assoc
  · rw [String.append_assoc, String.append_assoc, String.append_assoc]

theorem parts_absolute_join (hn : IsName nm) {dir : String} (hfl : dir ≠ "") (here : String) :
    parts (absolute here (join dir nm)) = parts (absolute here dir) ++ [nm] := by
  rw [absolute, absolute, parts_normalize, parts_normalize, isAbsolute_join hn hfl]
  cases relative : isAbsolute dir with
  | true =>
    rw [if_pos rfl, if_pos rfl]
    exact parts_join hn hfl
  | false =>
    obtain ⟨pre, fronted⟩ := exists_join_front here
    have whole : pre ++ dir ≠ "" := by
      intro empty
      exact hfl (String.append_eq_empty_iff.mp empty).2
    have hi : isAbsolute (join dir nm) = false := by
      rw [isAbsolute_join hn hfl, relative]
    rw [if_neg Bool.false_ne_true, if_neg Bool.false_ne_true, fronted _ hi,
      fronted _ relative, ← join_append hn hfl]
    exact parts_join hn whole

end SourceAudit.Path
