import SourceAudit.Pattern.Folding
import SourceAudit.Value.Access

/-!
# Patterns

The language of search patterns: characters and classes, sequences, ordered choice, greedy, lazy and
possessive repetition, numbered groups with references and conditions, and assertions about what
stands before and after a place.
-/

namespace SourceAudit.Pattern

inductive Category where
  | digit
  | space
  | word
deriving DecidableEq, Repr

def Category.holds (category : Category) (ascii : Bool) (c : Char) : Bool :=
  match category, ascii with
  | .digit, false => Text.isDecimal c
  | .digit, true => Text.isAsciiDigit c
  | .space, false => Text.isBlank c
  | .space, true => Text.isAsciiBlank c
  | .word, false => Text.isWord c
  | .word, true => Text.isAsciiWord c

inductive SetItem where
  | char (c : Char)
  | range (a last : Char)
  | category (family : Category) (negated ascii : Bool)
deriving DecidableEq, Repr

def SetItem.holds (folding : Folding) (c : Char) : SetItem → Bool
  | .char d => folding.same d c
  | .range a last => (folding.variants c).any fun d => a ≤ d && d ≤ last
  | .category family negated ascii => (family.holds ascii c) != negated

inductive Anchor where
  | textStart
  | lineStart
  | textEnd
  | lineEnd
  | finish
  | wordBoundary (ascii : Bool)
  | notWordBoundary (ascii : Bool)
deriving DecidableEq, Repr

inductive Greed where
  | greedy
  | lazy
  | possessive
deriving DecidableEq, Repr

inductive Node where
  | empty
  | char (c : Char) (folding : Folding)
  | any (newline : Bool)
  | set (negated : Bool) (xs : List SetItem) (folding : Folding)
  | anchor (k : Anchor)
  | seq (a b : Node)
  | choice (a b : Node)
  | repetition (body : Node) (least : Nat) (most : Option Nat) (greed : Greed)
  | group (i : Nat) (body : Node)
  | reference (i : Nat) (folding : Folding)
  | ahead (negated : Bool) (body : Node)
  | behind (negated : Bool) (width : Nat) (body : Node)
  | atomic (body : Node)
  | ifGroup (i : Nat) (yes no : Node)
deriving Repr, Inhabited

structure Place where
  before : List Char
  rest : List Char
  position : Nat
  groups : List (Nat × Nat × Nat)
deriving Repr

namespace Place

def start (t : List Char) : Place :=
  { before := [], rest := t, position := 0, groups := [] }

def advance (pl : Place) : Option (Char × Place) :=
  match pl.rest with
  | [] => none
  | c :: rest =>
    some (c, { pl with before := c :: pl.before, rest, position := pl.position + 1 })

def back : Nat → Place → Option Place
  | 0, pl => some pl
  | n + 1, pl =>
    match pl.before with
    | [] => none
    | c :: before =>
      back n { pl with before, rest := c :: pl.rest, position := pl.position - 1 }

def span? (pl : Place) (i : Nat) : Option (Nat × Nat) :=
  (pl.groups.find? fun e => e.1 == i).map Prod.snd

def record (pl : Place) (i a last : Nat) : Place :=
  { pl with groups := (i, a, last) :: pl.groups }

def slice (pl : Place) (a last : Nat) : List Char :=
  ((pl.before.drop (pl.position - last)).take (last - a)).reverse

end Place

def Anchor.holds (anchor : Anchor) (pl : Place) : Bool :=
  let atWordBoundary (ascii : Bool) : Bool :=
    let isWord := Category.word.holds ascii
    (pl.before.head?.any isWord) != (pl.rest.head?.any isWord)
  match anchor with
  | .textStart => pl.before.isEmpty
  | .lineStart => pl.before.isEmpty || pl.before.head? == some '\n'
  | .textEnd => pl.rest.isEmpty || pl.rest == ['\n']
  | .lineEnd => pl.rest.isEmpty || pl.rest.head? == some '\n'
  | .finish => pl.rest.isEmpty
  | .wordBoundary ascii => atWordBoundary ascii
  | .notWordBoundary ascii =>
    -- there is no place of either kind in an empty text
    !(pl.before.isEmpty && pl.rest.isEmpty) && !atWordBoundary ascii

abbrev Continuation := Place → Option Place

def stepWhere (test : Char → Bool) (next : Continuation) (pl : Place) : Option Place :=
  match pl.advance with
  | some (c, pl) => if test c then next pl else none
  | none => none

def stepText (folding : Folding) : List Char → Continuation → Continuation
  | [], next, pl => next pl
  | c :: t, next, pl =>
    stepWhere (fun d => folding.repeats c d) (stepText folding t next) pl

def rounds (body : Continuation → Continuation) (least : Nat) (most : Option Nat)
    (greed : Greed) (next : Continuation) :
    (fuel n : Nat) → (last : Option Nat) → Continuation
  | 0, _, _, _ => none
  | fuel + 1, n, last, pl =>
    if n < least then
      body (fun pl => rounds body least most greed next fuel (n + 1) last pl) pl
    else
      let mayRepeat := (most.all fun lim => n < lim) && last != some pl.position
      let again (_ : Unit) : Option Place :=
        if mayRepeat then
          body (fun after =>
            rounds body least most greed next fuel (n + 1) (some pl.position) after) pl
        else none
      match greed with
      | .lazy => (next pl).orElse again
      | _ => (again ()).orElse fun _ => next pl

namespace Node

def run : Node → Continuation → Continuation
  | .empty, next, pl => next pl
  | .char c folding, next, pl => stepWhere (fun d => folding.same c d) next pl
  | .any newline, next, pl => stepWhere (fun c => newline || c != '\n') next pl
  | .set negated xs folding, next, pl =>
    stepWhere (fun c => (xs.any fun x => x.holds folding c) != negated) next pl
  | .anchor k, next, pl => if k.holds pl then next pl else none
  | .seq a b, next, pl => a.run (fun pl => b.run next pl) pl
  | .choice a b, next, pl =>
    (a.run next pl).orElse fun _ => b.run next pl
  | .repetition body least most .possessive, next, pl =>
    match rounds (fun next pl => body.run next pl) least most .greedy some
        (least + pl.rest.length + 2) 0 none pl with
    | some pl => next pl
    | none => none
  | .repetition body least most greed, next, pl =>
    rounds (fun next pl => body.run next pl) least most greed next
      (least + pl.rest.length + 2) 0 none pl
  | .group i body, next, pl =>
    let a := pl.position
    body.run (fun after => next (after.record i a after.position)) pl
  | .reference i folding, next, pl =>
    match pl.span? i with
    | some (a, last) => stepText folding (pl.slice a last) next pl
    | none => none
  | .ahead false body, next, pl =>
    match body.run some pl with
    | some f => next { pl with groups := f.groups }
    | none => none
  | .ahead true body, next, pl =>
    match body.run some pl with
    | some _ => none
    | none => next pl
  | .behind false width body, next, pl =>
    match (pl.back width).bind (body.run some) with
    | some f => next { pl with groups := f.groups }
    | none => none
  | .behind true width body, next, pl =>
    match (pl.back width).bind (body.run some) with
    | some _ => none
    | none => next pl
  | .atomic body, next, pl =>
    match body.run some pl with
    | some pl => next pl
    | none => none
  | .ifGroup i yes no, next, pl =>
    match pl.span? i with
    | some _ => yes.run next pl
    | none => no.run next pl

end Node

structure Match where
  start : Nat
  stop : Nat
  groups : List (Nat × Nat × Nat)
  text : List Char
  whole : List Char
deriving Repr

namespace Match

def span? (f : Match) (i : Nat) : Option (Nat × Nat) :=
  (f.groups.find? fun e => e.1 == i).map Prod.snd

def group? (f : Match) (i : Nat) : Option String :=
  if i = 0 then some (String.ofList f.text)
  else (f.span? i).map fun (a, last) =>
    String.ofList ((f.whole.drop a).take (last - a))

def group (f : Match) (i : Nat) : String :=
  (f.group? i).getD ""

def content (f : Match) : String :=
  String.ofList f.text

end Match

structure Pattern where
  node : Node
  groups : Nat
  names : List (String × Nat)
deriving Repr, Inhabited

namespace Pattern

def matchAt (pat : Pattern) (whole : List Char) (nonEmpty : Bool) (pl : Place) : Option Match :=
  let accept (after : Place) : Option Place :=
    if nonEmpty && after.position == pl.position then none else some after
  (pat.node.run accept { pl with groups := [] }).map fun after =>
    { start := pl.position, stop := after.position, groups := after.groups,
      text := pl.rest.take (after.position - pl.position), whole }

def searchFrom (pat : Pattern) (whole : List Char) :
    (tl : List Char) → (nonEmpty : Bool) → Place → Option (Match × Place)
  | [], nonEmpty, pl =>
    (pat.matchAt whole nonEmpty pl).map fun f => (f, pl)
  | _ :: tl, nonEmpty, pl =>
    match pat.matchAt whole nonEmpty pl with
    | some f => some (f, pl)
    | none =>
      match pl.advance with
      | some (_, pl) => searchFrom pat whole tl false pl
      | none => none

def search? (pat : Pattern) (t : List Char) : Option Match :=
  (pat.searchFrom t t false (Place.start t)).map Prod.fst

def matchStart? (pat : Pattern) (t : List Char) : Option Match :=
  pat.matchAt t false (Place.start t)

def forward : Nat → Place → Place
  | 0, pl => pl
  | n + 1, pl =>
    match pl.advance with
    | some (_, pl) => forward n pl
    | none => pl

def findFrom (pat : Pattern) (whole : List Char) :
    (fuel : Nat) → (nonEmpty : Bool) → Place → List Match
  | 0, _, _ => []
  | fuel + 1, nonEmpty, pl =>
    match pat.searchFrom whole pl.rest nonEmpty pl with
    | none => []
    | some (f, pl) =>
      f :: findFrom pat whole fuel (f.start == f.stop)
        (forward (f.stop - f.start) pl)

def findAll (pat : Pattern) (t : List Char) : List Match :=
  pat.findFrom t (2 * t.length + 2) false (Place.start t)

def substituteFrom (image : Match → List Char) :
    (pos : Nat) → (t : List Char) → List Match → List Char
  | _, t, [] => t
  | pos, t, f :: tl =>
    t.take (f.start - pos) ++ image f ++
      substituteFrom image f.stop (t.drop (f.stop - pos)) tl

def substitute (pat : Pattern) (image : Match → List Char) (t : List Char) : List Char :=
  substituteFrom image 0 t (pat.findAll t)

def search (pat : Pattern) (t : String) : Option Match :=
  pat.search? t.toList

def occursIn (pat : Pattern) (t : String) : Bool :=
  (pat.search t).isSome

end Pattern

end SourceAudit.Pattern
