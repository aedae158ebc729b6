import SourceAudit.Text.CharClass

/-!
# Searching and cutting text

Text is a list of characters here. A word is looked for from the left; every function that cuts a
text says what happens to the characters of the word, and the parts around it are kept whole.
-/

namespace SourceAudit.Text

def after? : (word t : List Char) → Option (List Char)
  | [], t => some t
  | _ :: _, [] => none
  | w :: word, c :: t => if w = c then after? word t else none

def startsWith (w t : List Char) : Bool :=
  (after? w t).isSome

def endsWith (w t : List Char) : Bool :=
  startsWith w.reverse t.reverse

def cut? (w : List Char) : List Char → Option (List Char × List Char)
  | [] => if w.isEmpty then some ([], []) else none
  | c :: t =>
    match after? w (c :: t) with
    | some tl => some ([], tl)
    | none => (cut? w t).map fun parts => (c :: parts.1, parts.2)

theorem after?_eq_some {word t tl : List Char} (hf : after? word t = some tl) : t = word ++ tl := by
  induction word generalizing t with
  | nil => simpa [after?] using hf
  | cons w word ih =>
    cases t with
    | nil => simp [after?] at hf
    | cons c t =>
      by_cases equal : w = c
      · subst equal
        simp only [after?, if_true] at hf
        simp [ih hf]
      · simp [after?, equal] at hf

theorem cut?_eq_some {word t before tl : List Char}
    (hf : cut? word t = some (before, tl)) : t = before ++ word ++ tl := by
  induction t generalizing before with
  | nil =>
    cases word with
    | nil => simp_all [cut?]
    | cons w word => simp [cut?] at hf
  | cons c t ih =>
    cases tail : after? word (c :: t) with
    | some suffix =>
      simp only [cut?, tail, Option.some.injEq, Prod.mk.injEq] at hf
      obtain ⟨rfl, rfl⟩ := hf
      simpa using after?_eq_some tail
    | none =>
      simp only [cut?, tail, Option.map_eq_some_iff, Prod.mk.injEq] at hf
      obtain ⟨⟨a, b⟩, inner, rfl, rfl⟩ := hf
      simpa using ih inner

theorem cut?_length {w t before tl : List Char} (hf : cut? w t = some (before, tl)) :
    t.length = before.length + w.length + tl.length := by
  rw [cut?_eq_some hf]
  simp [Nat.add_assoc]

def occurs (w t : List Char) : Bool :=
  (cut? w t).isSome

def cutLast? (w t : List Char) : Option (List Char × List Char) :=
  (cut? w.reverse t.reverse).map fun parts => (parts.2.reverse, parts.1.reverse)

def splitWalk (w : List Char) (width : Nat) :
    (skip : Nat) → (piece : List Char) → List Char → List (List Char)
  | _, piece, [] => [piece.reverse]
  | skip + 1, piece, _ :: t => splitWalk w width skip piece t
  | 0, piece, c :: t =>
    if startsWith w (c :: t) then
      piece.reverse :: splitWalk w width width [] t
    else splitWalk w width 0 (c :: piece) t

def splitOn (w t : List Char) : List (List Char) :=
  splitWalk w (w.length - 1) 0 [] t

def join (glue : List Char) (pieces : List (List Char)) : List Char :=
  (pieces.intersperse glue).flatten

def replace (w image t : List Char) : List Char :=
  join image (splitOn w t)

def replaceFirst (w image t : List Char) : List Char :=
  match cut? w t with
  | some (before, tl) => before ++ image ++ tl
  | none => t

def trimLeftWith (drop : Char → Bool) (t : List Char) : List Char :=
  t.dropWhile drop

def trimRightWith (drop : Char → Bool) (t : List Char) : List Char :=
  (t.reverse.dropWhile drop).reverse

theorem trimRightWith_isPrefix {drop : Char → Bool} (t : List Char) :
    trimRightWith drop t <+: t := by
  rw [← List.reverse_suffix, trimRightWith, List.reverse_reverse]
  exact List.dropWhile_suffix drop

def trimWith (drop : Char → Bool) (t : List Char) : List Char :=
  trimRightWith drop (trimLeftWith drop t)

def trim (t : List Char) : List Char :=
  trimWith isBlank t

def wordsFrom (w : List Char) : List Char → List (List Char)
  | [] => if w.isEmpty then [] else [w.reverse]
  | c :: t =>
    if isBlank c then
      if w.isEmpty then wordsFrom [] t else w.reverse :: wordsFrom [] t
    else wordsFrom (c :: w) t

def words (t : List Char) : List (List Char) :=
  wordsFrom [] t

def joinsLeft (c : Char) : Bool :=
  isWord c || c == '.'

def occursWholeAfter (nm : List Char) (previous : Option Char) : List Char → Bool
  | [] => false
  | c :: t =>
    (!previous.any joinsLeft && match after? nm (c :: t) with
      | some rest => !rest.head?.any isWord
      | none => false) ||
    occursWholeAfter nm (some c) t

def occursWhole (name t : List Char) : Bool :=
  !name.isEmpty && occursWholeAfter name none t

end SourceAudit.Text

namespace SourceAudit

/-! The same operations on strings. -/

namespace Str

open SourceAudit

def trim (t : String) : String :=
  String.ofList (Text.trim t.toList)

def lower (t : String) : String :=
  String.ofList (Text.lower t.toList)

def upper (t : String) : String :=
  String.ofList (Text.upper t.toList)

def capitalize (t : String) : String :=
  String.ofList (Text.capitalize t.toList)

def occurs (w t : String) : Bool :=
  Text.occurs w.toList t.toList

def startsWith (w t : String) : Bool :=
  Text.startsWith w.toList t.toList

def endsWith (w t : String) : Bool :=
  Text.endsWith w.toList t.toList

def replace (w image t : String) : String :=
  String.ofList (Text.replace w.toList image.toList t.toList)

def splitOn (w t : String) : List String :=
  (Text.splitOn w.toList t.toList).map String.ofList

def join (glue : String) (pieces : List String) : String :=
  glue.intercalate pieces

def cut? (w t : String) : Option (String × String) :=
  (Text.cut? w.toList t.toList).map fun parts =>
    (String.ofList parts.1, String.ofList parts.2)

def take (n : Nat) (t : String) : String :=
  String.ofList (t.toList.take n)

def drop (n : Nat) (t : String) : String :=
  String.ofList (t.toList.drop n)

def isBlank (t : String) : Bool :=
  t.toList.all Text.isBlank

end Str

end SourceAudit
