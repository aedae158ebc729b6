import SourceAudit.Source.Comments
import Mathlib

/-!
# Comments as a scanner sees them

A scanner reads a text from left to right in three regions: code, block comments, which run on over
the ends of lines, and line comments, which end with their line.
-/

open List Option

namespace SourceAudit.Source

open SourceAudit.Text (cut? cut?_eq_some after?)

/-! ## The scanner -/

inductive Region where
  | code
  | block
  | remark
deriving DecidableEq, Repr

def scanLine : Region → List Char → List Char × Region
  | rg, [] => ([], rg)
  | .code, '/' :: '*' :: t => scanLine .block t
  | .code, '/' :: '/' :: t => scanLine .remark t
  | .code, c :: t => (c :: (scanLine .code t).1, (scanLine .code t).2)
  | .block, '*' :: '/' :: t => scanLine .code t
  | .block, _ :: t => scanLine .block t
  | .remark, _ :: t => scanLine .remark t

def Region.nextLine : Region → Region
  | .block => .block
  | _ => .code

def scanFrom : Region → List (List Char) → List (List Char)
  | _, [] => []
  | rg, ln :: tl =>
    (scanLine rg ln).1 :: scanFrom (scanLine rg ln).2.nextLine tl

def scanLines (ls : List (List Char)) : List (List Char) :=
  scanFrom .code ls

def remark? : Region → List Char → Option (List Char)
  | _, [] => none
  | .code, '/' :: '*' :: t => remark? .block t
  | .code, '/' :: '/' :: t => some ('/' :: '/' :: t)
  | .code, _ :: t => remark? .code t
  | .block, '*' :: '/' :: t => remark? .code t
  | .block, _ :: t => remark? .block t
  | .remark, _ :: _ => none

def remarksFrom : Region → List (List Char) → List (List Char)
  | _, [] => []
  | rg, ln :: tl =>
    (remark? rg ln).toList ++ remarksFrom (scanLine rg ln).2.nextLine tl

def remarks (ls : List (List Char)) : List (List Char) :=
  remarksFrom .code ls

/-! ## Blocks that are cut out and joined -/

def scanJoined : (inside : Bool) → (kept : List Char) → List Char → List Char × Bool
  | inside, kept, [] => (kept.reverse, inside)
  | true, kept, '*' :: '/' :: t => scanJoined false kept t
  | true, kept, _ :: t => scanJoined true kept t
  | false, '/' :: kept, '*' :: t => scanJoined true kept t
  | false, kept, c :: t => scanJoined false (c :: kept) t

def Inert (remark : List Char) : Prop :=
  dropLineComment (scanJoined false [] remark).1 = [] ∧ (scanJoined false [] remark).2 = false

instance (remark : List Char) : Decidable (Inert remark) := inferInstanceAs (Decidable (_ ∧ _))

theorem cut?_pair_cons (a b c : Char) (t : List Char) :
    cut? [a, b] (c :: t) =
      if c = a ∧ t.head? = some b then some ([], t.tail)
      else (cut? [a, b] t).map fun parts => (c :: parts.1, parts.2) := by
  rw [cut?]
  cases t with
  | nil => by_cases equal : a = c <;> simp [after?]
  | cons d t =>
    simp only [after?]
    grind

variable {c a b : Char} {t : List Char}

theorem head?_ne_of_never (never : ∀ tl, c = a → t = b :: tl → False) :
    c = a → t.head? ≠ some b := by
  intro hs head
  obtain ⟨tl, shape⟩ := head?_eq_some_iff.mp head
  exact never tl hs shape

theorem scanJoined_nil (inside : Bool) (kept : List Char) :
    scanJoined inside kept [] = (kept.reverse, inside) := rfl

theorem scanJoined_join (kept t : List Char) :
    scanJoined false ('/' :: kept) ('*' :: t) = scanJoined true kept t := by
  rw [scanJoined]

theorem scanJoined_close (kept t : List Char) :
    scanJoined true kept ('*' :: '/' :: t) = scanJoined false kept t := rfl

variable {kept : List Char}

theorem scanJoined_push (apart : kept.head? = some '/' → c ≠ '*') :
    scanJoined false kept (c :: t) = scanJoined false (c :: kept) t := by
  rw [scanJoined]
  intro tl shape equal
  rw [shape] at apart
  exact apart rfl equal

theorem scanJoined_open (kept t : List Char) :
    scanJoined false kept ('/' :: '*' :: t) = scanJoined true kept t := by
  rw [scanJoined_push (fun _ => by decide), scanJoined_join]

theorem scanJoined_skip (apart : c = '*' → t.head? ≠ some '/') :
    scanJoined true kept (c :: t) = scanJoined true kept t := by
  rw [scanJoined]
  intro tl equal shape
  rw [shape] at apart
  exact apart equal rfl

theorem scanJoined_of_unclosed (hmiss : cut? blockEnd t = none) :
    scanJoined true kept t = (kept.reverse, true) := by
  induction t with
  | nil => rfl
  | cons c t ih =>
    rw [blockEnd, cut?_pair_cons] at hmiss
    split_ifs at hmiss with ends
    have apart : c = '*' → t.head? ≠ some '/' := fun star slash => ends ⟨star, slash⟩
    rw [scanJoined_skip apart]
    exact ih (map_eq_none_iff.mp hmiss)

variable {tl : List Char}

theorem scanJoined_of_closed {inner : List Char} (hf : cut? blockEnd t = some (inner, tl)) :
    scanJoined true kept t = scanJoined false kept tl := by
  induction t generalizing inner with
  | nil => cases hf
  | cons c t ih =>
    rw [blockEnd, cut?_pair_cons] at hf
    split_ifs at hf with ends
    · obtain ⟨rfl, slash⟩ := ends
      cases t with
      | nil => cases slash
      | cons d t =>
        cases slash
        cases hf
        exact scanJoined_close kept t
    · obtain ⟨⟨inner, tl⟩, later, equal⟩ := map_eq_some_iff.mp hf
      cases equal
      have apart : c = '*' → t.head? ≠ some '/' := fun star slash => ends ⟨star, slash⟩
      rw [scanJoined_skip apart]
      exact ih later

variable {pre : List Char}

theorem scanJoined_append (bare : cut? blockStart pre = none)
    (apart : kept.head? = some '/' → pre.head? ≠ some '*') :
    scanJoined false kept (pre ++ t) = scanJoined false (pre.reverse ++ kept) t := by
  induction pre generalizing kept with
  | nil => rfl
  | cons c pre ih =>
    rw [blockStart, cut?_pair_cons] at bare
    split_ifs at bare with starts
    have unjoined : kept.head? = some '/' → c ≠ '*' := by
      intro slash star
      exact apart slash (by rw [star]; rfl)
    rw [cons_append, scanJoined_push unjoined]
    rw [ih (map_eq_none_iff.mp bare), reverse_cons, append_assoc]
    · rfl
    · intro slash star
      exact starts ⟨Option.some.inj slash, star⟩

theorem cut?_pair_front (hf : cut? [a, b] t = some (pre, tl)) : cut? [a, b] pre = none := by
  induction t generalizing pre with
  | nil => cases hf
  | cons c t ih =>
    rw [cut?_pair_cons] at hf
    split_ifs at hf with hh
    · cases hf
      rfl
    · obtain ⟨⟨inner, tl⟩, later, equal⟩ := map_eq_some_iff.mp hf
      cases equal
      rw [cut?_pair_cons, ih later]
      cases inner with
      | nil => simp
      | cons d inner =>
        -- the head of what stands before the mark is the head of the whole
        have shape := cut?_eq_some later
        have head : t.head? = some d := by rw [shape]; rfl
        rw [head] at hh
        exact if_neg hh

theorem scanJoined_of_bare (bare : cut? blockStart pre = none) (t : List Char) :
    scanJoined false [] (pre ++ t) = scanJoined false pre.reverse t := by
  have unjoined : ([] : List Char).head? = some '/' → pre.head? ≠ some '*' := by
    intro slash
    cases slash
  rw [scanJoined_append bare unjoined, append_nil]

theorem scanJoined_of_start {ln : List Char} (hf : cut? blockStart ln = some (pre, tl)) :
    scanJoined false [] ln = scanJoined true pre.reverse tl := by
  rw [cut?_eq_some hf, append_assoc, scanJoined_of_bare (cut?_pair_front hf)]
  exact scanJoined_open _ _

theorem dropBlocks_eq_scanJoined (inside : Bool) (ln : List Char) :
    dropBlocks inside ln = scanJoined inside [] ln := by
  fun_induction dropBlocks inside ln with
  | case1 ln hmiss =>
    rw [scanJoined_of_unclosed hmiss]
    rfl
  | case2 ln inner tl hf ih =>
    rw [ih, scanJoined_of_closed hf]
  | case3 inside ln outside hmiss =>
    rw [Bool.eq_false_iff.mpr outside]
    have whole := scanJoined_of_bare hmiss []
    rw [append_nil] at whole
    rw [whole, scanJoined_nil, reverse_reverse]
  | case4 inside ln outside pre tl hf hmiss =>
    rw [Bool.eq_false_iff.mpr outside, scanJoined_of_start hf,
      scanJoined_of_unclosed hmiss, reverse_reverse]
  | case5 inside ln outside pre tl hf inner after he ih =>
    rw [Bool.eq_false_iff.mpr outside, ih,
      scanJoined_of_bare (cut?_pair_front hf), scanJoined_of_start hf, scanJoined_of_closed he]

variable {inside : Bool}

theorem scanJoined_frame {near far : List Char} (closed : far.head? ≠ some '/') :
    scanJoined inside (near ++ far) t =
      (far.reverse ++ (scanJoined inside near t).1, (scanJoined inside near t).2) := by
  fun_induction scanJoined inside near t with
  | case1 inside near => rw [scanJoined_nil, reverse_append]
  | case2 near t ih =>
    exact ih
  | case3 near c t apart ih =>
    rw [scanJoined_skip (head?_ne_of_never apart), ih]
  | case4 near t ih =>
    rw [cons_append, scanJoined_join]
    exact ih
  | case5 near c t apart ih =>
    rw [scanJoined_push, ← cons_append, ih]
    intro slash star
    cases near with
    | nil => exact closed slash
    | cons d near =>
      cases slash
      exact apart near rfl star

/-! ## The two scanners side by side -/

@[elab_as_elim]
theorem scan_induction {motive : Region → List Char → Prop} (nil : ∀ region, motive region [])
    (opens : ∀ text, motive .block text → motive .code ('/' :: '*' :: text))
    (remark : ∀ text, motive .code ('/' :: '/' :: text))
    (push : ∀ c text, (c = '/' → text.head? ≠ some '*' ∧ text.head? ≠ some '/') →
      motive .code text → motive .code (c :: text))
    (closes : ∀ text, motive .code text → motive .block ('*' :: '/' :: text))
    (skip : ∀ c text, (c = '*' → text.head? ≠ some '/') → motive .block text →
      motive .block (c :: text))
    (rest : ∀ c text, motive .remark (c :: text))
    (region : Region) (text : List Char) : motive region text := by
  fun_induction scanLine region text with
  | case1 region => exact nil region
  | case2 text ih => exact opens text ih
  | case3 text _ => exact remark text
  | case4 c text noStart noRemark ih =>
    refine push c text (fun slash => ⟨?_, ?_⟩) ih
    · exact head?_ne_of_never noStart slash
    · exact head?_ne_of_never noRemark slash
  | case5 text ih => exact closes text ih
  | case6 c text noEnd ih => exact skip c text (head?_ne_of_never noEnd) ih
  | case7 c text _ => exact rest c text

theorem scanLine_nil (rg : Region) : scanLine rg [] = ([], rg) := by
  cases rg <;> rfl

theorem scanLine_open (t : List Char) :
    scanLine .code ('/' :: '*' :: t) = scanLine .block t := rfl

theorem scanLine_close (t : List Char) :
    scanLine .block ('*' :: '/' :: t) = scanLine .code t := rfl

theorem scanLine_note (t : List Char) :
    scanLine .code ('/' :: '/' :: t) = scanLine .remark t := rfl

theorem remark?_nil (rg : Region) : remark? rg [] = none := by
  cases rg <;> rfl

theorem remark?_open (t : List Char) :
    remark? .code ('/' :: '*' :: t) = remark? .block t := rfl

theorem remark?_close (t : List Char) :
    remark? .block ('*' :: '/' :: t) = remark? .code t := rfl

theorem remark?_note (t : List Char) :
    remark? .code ('/' :: '/' :: t) = some ('/' :: '/' :: t) := rfl

theorem scanLine_push (hp : c = '/' → t.head? ≠ some '*' ∧ t.head? ≠ some '/') :
    scanLine .code (c :: t) = (c :: (scanLine .code t).1, (scanLine .code t).2) := by
  rw [scanLine]
  · intro tl slash shape
    exact (hp slash).1 (by rw [shape]; rfl)
  · intro tl slash shape
    exact (hp slash).2 (by rw [shape]; rfl)

theorem remark?_push (hp : c = '/' → t.head? ≠ some '*' ∧ t.head? ≠ some '/') :
    remark? .code (c :: t) = remark? .code t := by
  rw [remark?]
  · intro tl slash shape
    exact (hp slash).1 (by rw [shape]; rfl)
  · intro tl slash shape
    exact (hp slash).2 (by rw [shape]; rfl)

theorem scanLine_skip (apart : c = '*' → t.head? ≠ some '/') :
    scanLine .block (c :: t) = scanLine .block t := by
  rw [scanLine]
  intro tl star shape
  exact apart star (by rw [shape]; rfl)

theorem remark?_skip (apart : c = '*' → t.head? ≠ some '/') :
    remark? .block (c :: t) = remark? .block t := by
  rw [remark?]
  intro tl star shape
  exact apart star (by rw [shape]; rfl)

@[simp]
theorem scanLine_remark (t : List Char) : scanLine .remark t = ([], .remark) := by
  induction t with
  | nil => rfl
  | cons c t ih => rw [scanLine, ih]

theorem remark?_remark (t : List Char) : remark? .remark t = none := by
  cases t with
  | nil => rfl
  | cons c t => rw [remark?]

def leftover (rg : Region) (t : List Char) : List Char × Bool :=
  match remark? rg t with
  | none => ([], (scanLine rg t).2 == .block)
  | some remark => scanJoined false [] remark

theorem leftover_push (hp : c = '/' → t.head? ≠ some '*' ∧ t.head? ≠ some '/') :
    leftover .code (c :: t) = leftover .code t := by
  rw [leftover, leftover, remark?_push hp, scanLine_push hp]

theorem leftover_skip (apart : c = '*' → t.head? ≠ some '/') :
    leftover .block (c :: t) = leftover .block t := by
  rw [leftover, leftover, remark?_skip apart, scanLine_skip apart]

def Clear : Region → (kept t : List Char) → Prop
  | .code, kept, t =>
    kept.head? = some '/' → t.head? ≠ some '*' ∧ t.head? ≠ some '/'
  | _, kept, _ => kept.head? ≠ some '/'

variable {rg : Region}

theorem scanJoined_eq_scanLine (started : rg ≠ .remark) (clear : Clear rg kept t) :
    scanJoined (rg == .block) kept t = (kept.reverse ++ ((scanLine rg t).1 ++ (leftover rg t).1),
        (leftover rg t).2) := by
  induction rg, t using scan_induction generalizing kept with
  | nil rg =>
    simp [scanJoined_nil, leftover, remark?_nil, scanLine_nil]
  | opens t ih =>
    have closed : kept.head? ≠ some '/' := fun slash => (clear slash).2 rfl
    have opened : leftover .code ('/' :: '*' :: t) = leftover .block t := by
      rw [leftover, leftover, remark?_open, scanLine_open]
    exact (scanJoined_open kept t).trans (ih nofun closed)
  | remark t =>
    have closed : kept.head? ≠ some '/' := fun slash => (clear slash).2 rfl
    have whole : leftover .code ('/' :: '/' :: t) = scanJoined false [] ('/' :: '/' :: t) := by
      rw [leftover, remark?_note]
    have framed : scanJoined false ([] ++ kept) ('/' :: '/' :: t) = _ := scanJoined_frame closed
    rw [scanLine_note, scanLine_remark]
    exact framed
  | push c t hp ih =>
    have unjoined : kept.head? = some '/' → c ≠ '*' := by
      intro slash star
      exact (clear slash).1 (by rw [star]; rfl)
    have next : Clear .code (c :: kept) t := fun slash => hp (Option.some.inj slash)
    rw [leftover_push hp, scanLine_push hp]
    refine (scanJoined_push unjoined).trans ((ih nofun next).trans ?_)
    simp
  | closes t ih =>
    have closed : Clear .code kept t := fun slash => (clear slash).elim
    have he : leftover .block ('*' :: '/' :: t) = leftover .code t := by
      rw [leftover, leftover, remark?_close, scanLine_close]
    exact (scanJoined_close kept t).trans (ih nofun closed)
  | skip c t apart ih =>
    rw [leftover_skip apart, scanLine_skip apart]
    exact (scanJoined_skip apart).trans (ih nofun clear)
  | rest c t => exact (started rfl).elim

/-! ## Line comments -/

theorem cut?_pair_append (bare : cut? [a, b] pre = none) (apart : pre.getLast? ≠ some a) :
    cut? [a, b] (pre ++ tl) = (cut? [a, b] tl).map fun parts => (pre ++ parts.1, parts.2) := by
  induction pre with
  | nil => simp
  | cons c pre ih =>
    rw [cut?_pair_cons] at bare
    split_ifs at bare with hh
    have inner : cut? [a, b] pre = none := map_eq_none_iff.mp bare
    rw [cons_append, cut?_pair_cons, if_neg]
    · cases pre with
      | nil => simp
      | cons d pre =>
        rw [ih inner apart, Option.map_map]
        rfl
    · rintro ⟨hs, follows⟩
      cases pre with
      | nil => exact apart (by rw [hs]; rfl)
      | cons d pre => exact hh ⟨hs, follows⟩

theorem dropLineComment_of_bare (bare : cut? lineComment t = none) : dropLineComment t = t := by
  rw [dropLineComment, bare]

theorem dropLineComment_append (bare : cut? lineComment pre = none)
    (apart : pre.getLast? ≠ some '/') :
    dropLineComment (pre ++ tl) = pre ++ dropLineComment tl := by
  rw [dropLineComment, dropLineComment, lineComment, cut?_pair_append bare apart]
  cases cut? ['/', '/'] tl with
  | none => rfl
  | some parts => rfl

theorem scanLine_head? (hp : t.head? ≠ some '/') : (scanLine .code t).1.head? = t.head? := by
  cases t with
  | nil => rfl
  | cons c t =>
    rw [scanLine_push]
    · rfl
    · intro slash
      exact (hp (by rw [slash]; rfl)).elim

theorem cut?_lineComment_scanLine (rg : Region) (t : List Char) :
    cut? lineComment (scanLine rg t).1 = none := by
  induction rg, t using scan_induction with
  | nil rg => rw [scanLine_nil]; rfl
  | opens t ih => exact ih
  | remark t => rw [scanLine_note, scanLine_remark]; rfl
  | push c t hp ih =>
    rw [lineComment] at ih ⊢
    rw [scanLine_push hp, cut?_pair_cons, if_neg]
    · rw [ih]
      rfl
    · rintro ⟨slash, follows⟩
      have apart := (hp slash).2
      rw [scanLine_head? apart] at follows
      exact apart follows
  | closes t ih => exact ih
  | skip c t apart ih =>
    rw [scanLine_skip apart]
    exact ih
  | rest c t => rw [scanLine_remark]; rfl

theorem getLast?_scanLine (he : (remark? rg t).isSome) : (scanLine rg t).1.getLast? ≠ some '/' := by
  induction rg, t using scan_induction with
  | nil rg =>
    cases he
  | opens t ih => exact ih he
  | remark t => rw [scanLine_note]; simp
  | push c t hp ih =>
    rw [remark?_push hp] at he
    rw [scanLine_push hp]
    have inner := ih he
    cases left : (scanLine .code t).1 with
    | nil =>
      intro slash
      have head := scanLine_head? (hp (Option.some.inj slash)).2
      rw [left] at head
      rw [head?_eq_none_iff.mp head.symm] at he
      cases he
    | cons d tl =>
      rw [left] at inner
      exact inner
  | closes t ih => exact ih he
  | skip c t apart ih =>
    rw [remark?_skip apart] at he
    rw [scanLine_skip apart]
    exact ih he
  | rest c t => rw [scanLine_remark]; simp

variable {remark : List Char}

theorem scanLine_of_remark? (met : remark? rg t = some remark) :
    (scanLine rg t).2 = .remark ∧ lineComment <+: remark := by
  induction rg, t using scan_induction with
  | nil rg =>
    cases met
  | opens t ih => exact ih met
  | remark t =>
    cases met
    rw [scanLine_note, scanLine_remark]
    exact ⟨rfl, t, rfl⟩
  | push c t hp ih =>
    rw [remark?_push hp] at met
    rw [scanLine_push hp]
    exact ih met
  | closes t ih => exact ih met
  | skip c t apart ih =>
    rw [remark?_skip apart] at met
    rw [scanLine_skip apart]
    exact ih met
  | rest c t =>
    rw [remark?_remark] at met
    cases met

/-! ## One line -/

def stripLine (inside : Bool) (ln : List Char) : List Char × Bool :=
  (dropLineComment (dropBlocks inside ln).1, (dropBlocks inside ln).2)

theorem stripFrom_cons (inside : Bool) (ln : List Char) (tl : List (List Char)) :
    stripFrom inside (ln :: tl) =
      (stripLine inside ln).1 :: stripFrom (stripLine inside ln).2 tl := rfl

def Region.atStart : (inside : Bool) → Region
  | true => .block
  | false => .code

theorem Region.nextLine_eq_atStart (rg : Region) : rg.nextLine = .atStart (rg == .block) := by
  cases rg <;> rfl

theorem dropBlocks_eq_scanLine (inside : Bool) (ln : List Char) :
    dropBlocks inside ln = ((scanLine (.atStart inside) ln).1 ++ (leftover (.atStart inside) ln).1,
        (leftover (.atStart inside) ln).2) := by
  rw [dropBlocks_eq_scanJoined]
  have started : Region.atStart inside ≠ .remark := by cases inside <;> nofun
  have clear : Clear (.atStart inside) [] ln := by cases inside <;> nofun
  have hs : (Region.atStart inside == .block) = inside := by cases inside <;> rfl
  have joined := scanJoined_eq_scanLine started clear
  rw [hs] at joined
  exact joined

theorem stripLine_eq (inside : Bool) (ln : List Char) :
    stripLine inside ln =
      ((scanLine (.atStart inside) ln).1 ++ dropLineComment (leftover (.atStart inside) ln).1,
        (leftover (.atStart inside) ln).2) := by
  have bare := cut?_lineComment_scanLine (.atStart inside) ln
  rw [stripLine, dropBlocks_eq_scanLine]
  cases met : remark? (.atStart inside) ln with
  | none =>
    have empty : (leftover (.atStart inside) ln).1 = [] := by rw [leftover, met]
    rw [empty, append_nil, dropLineComment_of_bare bare]
    exact Prod.ext (append_nil _).symm rfl
  | some remark =>
    have apart := getLast?_scanLine (isSome_iff_exists.mpr ⟨remark, met⟩)
    rw [dropLineComment_append bare apart]

theorem stripLine_eq_scanLine_iff (inside : Bool) (ln : List Char) :
    stripLine inside ln =
        ((scanLine (.atStart inside) ln).1, (scanLine (.atStart inside) ln).2 == .block) ↔
      ∀ remark, remark? (.atStart inside) ln = some remark → Inert remark := by
  rw [stripLine_eq, leftover]
  cases met : remark? (.atStart inside) ln with
  | none =>
    have empty : dropLineComment [] = [] := rfl
    simp [empty]
  | some remark =>
    have outside : (Region.remark == Region.block) = false := rfl
    rw [(scanLine_of_remark? met).1, outside]
    simp [Inert]

/-! ## All lines -/

theorem scanFrom_cons (inside : Bool) (ln : List Char) (tl : List (List Char)) :
    scanFrom (.atStart inside) (ln :: tl) = (scanLine (.atStart inside) ln).1 ::
        scanFrom (.atStart ((scanLine (.atStart inside) ln).2 == .block)) tl := by
  rw [scanFrom, Region.nextLine_eq_atStart]

theorem mem_remarksFrom_cons {ln : List Char} {tl : List (List Char)} :
    remark ∈ remarksFrom (.atStart inside) (ln :: tl) ↔
      remark? (.atStart inside) ln = some remark ∨
        remark ∈ remarksFrom (.atStart ((scanLine (.atStart inside) ln).2 == .block)) tl := by
  rw [remarksFrom, Region.nextLine_eq_atStart, mem_append, mem_toList]

variable {ls : List (List Char)}

theorem stripFrom_eq_scanFrom (inert : ∀ remark ∈ remarksFrom (.atStart inside) ls, Inert remark) :
    stripFrom inside ls = scanFrom (.atStart inside) ls := by
  induction ls generalizing inside with
  | nil => rfl
  | cons ln tl ih =>
    have step := (stripLine_eq_scanLine_iff inside ln).mpr fun remark met =>
      inert remark (mem_remarksFrom_cons.mpr (Or.inl met))
    rw [stripFrom_cons, scanFrom_cons, step]
    rw [ih fun remark hm =>
      inert remark (mem_remarksFrom_cons.mpr (Or.inr hm))]

theorem remark?_of_plain (hp : '/' ∉ t) : remark? rg t = none := by
  induction rg, t using scan_induction with
  | nil rg => exact remark?_nil rg
  | opens t _ => exact (hp mem_cons_self).elim
  | remark t => exact (hp mem_cons_self).elim
  | push c t single ih =>
    rw [remark?_push single]
    exact ih fun slash => hp (mem_cons_of_mem c slash)
  | closes t _ => exact (hp (mem_cons_of_mem '*' mem_cons_self)).elim
  | skip c t apart ih =>
    rw [remark?_skip apart]
    exact ih fun slash => hp (mem_cons_of_mem c slash)
  | rest c t => exact remark?_remark (c :: t)

theorem mem_remarksFrom_of_beginning {plain : List Char} {before : List (List Char)}
    (beginning : before <+: ls) (bare : '/' ∉ plain)
    (hm : remark ∈ remarksFrom (.atStart inside) (before ++ [plain])) :
    remark ∈ remarksFrom (.atStart inside) ls := by
  induction before generalizing inside ls with
  | nil =>
    rcases mem_remarksFrom_cons.mp hm with met | later
    · rw [remark?_of_plain bare] at met
      cases met
    · cases later
  | cons ln before ih =>
    obtain ⟨after, shape⟩ := beginning
    subst shape
    rcases mem_remarksFrom_cons.mp hm with met | later
    · exact mem_remarksFrom_cons.mpr (Or.inl met)
    · exact mem_remarksFrom_cons.mpr (Or.inr (ih ⟨after, rfl⟩ later))

theorem inside_eq_of_plain {l r : Bool}
    (hs : (stripLine l ['x']).1 = (scanLine (.atStart r) ['x']).1) : l = r := by
  have inert : ∀ remark, remark? (.atStart l) ['x'] = some remark → Inert remark := by
    intro remark met
    rw [remark?_of_plain (by decide)] at met
    cases met
  rw [(stripLine_eq_scanLine_iff l ['x']).mpr inert] at hs
  revert hs
  cases l <;> cases r <;> decide

theorem inert_of_beginnings (agree : ∀ before, before <+: ls → ∀ plain, '/' ∉ plain →
      stripFrom inside (before ++ [plain]) = scanFrom (.atStart inside) (before ++ [plain])) :
    ∀ remark ∈ remarksFrom (.atStart inside) ls, Inert remark := by
  induction ls generalizing inside with
  | nil =>
    intro remark hm
    cases hm
  | cons ln tl ih =>
    have probe := agree [ln] ⟨tl, rfl⟩ ['x'] (by decide)
    rw [cons_append, stripFrom_cons, scanFrom_cons, List.cons.injEq] at probe
    obtain ⟨code, next⟩ := probe
    rw [nil_append, stripFrom_cons, scanFrom_cons, List.cons.injEq] at next
    have carried := inside_eq_of_plain next.1
    have step := (stripLine_eq_scanLine_iff inside ln).mp (Prod.ext code carried)
    intro remark hm
    rcases mem_remarksFrom_cons.mp hm with met | later
    · exact step remark met
    · refine ih (fun before beginning plain bare => ?_) remark later
      obtain ⟨after, shape⟩ := beginning
      have whole := agree (ln :: before) ⟨after, by rw [← shape]; rfl⟩ plain bare
      rw [cons_append, stripFrom_cons, scanFrom_cons, List.cons.injEq] at whole
      rw [← carried]
      rw [← carried] at whole
      exact whole.2

theorem inert_of_bare (marked : lineComment <+: remark)
    (bare : Text.occurs blockStart remark = false) : Inert remark := by
  have hmiss : cut? blockStart remark = none := by
    cases hf : cut? blockStart remark with
    | none => rfl
    | some parts => simp [Text.occurs, hf] at bare
  have whole := scanJoined_of_bare hmiss []
  rw [append_nil, scanJoined_nil, reverse_reverse] at whole
  obtain ⟨t, shape⟩ := marked
  subst shape
  rw [Inert, whole]
  exact ⟨rfl, rfl⟩

theorem lineComment_of_mem_remarksFrom (hm : remark ∈ remarksFrom (.atStart inside) ls) :
    lineComment <+: remark := by
  induction ls generalizing inside with
  | nil => cases hm
  | cons ln tl ih =>
    rcases mem_remarksFrom_cons.mp hm with met | later
    · exact (scanLine_of_remark? met).2
    · exact ih later

/--
Comments are taken out of a text as the scanner says exactly when its line comments are inert, where
a text counts with all its beginnings and with a plain line that may follow.  Line comments in which
no block starts are inert.
-/
theorem stripLines_eq_scanLines_iff_inert (lines : List (List Char)) :
    ((∀ before, before <+: lines → ∀ plain, '/' ∉ plain →
        stripLines (before ++ [plain]) = scanLines (before ++ [plain])) ↔
      ∀ remark ∈ remarks lines, Inert remark) ∧
    ((∀ remark ∈ remarks lines, Inert remark) → stripLines lines = scanLines lines) ∧
    ∀ remark ∈ remarks lines, Text.occurs blockStart remark = false → Inert remark := by
  refine ⟨⟨?_, ?_⟩, ?_, ?_⟩
  · exact inert_of_beginnings
  · intro inert before beginning plain bare
    exact stripFrom_eq_scanFrom fun remark member =>
      inert remark (mem_remarksFrom_of_beginning beginning bare member)
  · intro inert
    exact stripFrom_eq_scanFrom inert
  · intro remark member bare
    have marked : lineComment <+: remark :=
      @lineComment_of_mem_remarksFrom false remark lines member
    exact inert_of_bare marked bare

/-- A block start in a line comment hides the line of code behind it. -/
theorem stripLines_hides_line :
    let lines := [['/', '/', ' ', '/', '*'], ['x']]
    stripLines lines = [[], []] ∧ scanLines lines = [[], ['x']] ∧
      ∃ remark ∈ remarks lines, ¬ Inert remark := by
  refine ⟨by cbv, by decide, ['/', '/', ' ', '/', '*'], by decide, by decide⟩

end SourceAudit.Source
