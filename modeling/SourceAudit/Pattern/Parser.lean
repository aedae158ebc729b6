import SourceAudit.Pattern.Basic

/-!
# Reading patterns

The written form of patterns. `compile` reads a whole pattern or says what is wrong with it and
where.
-/

namespace SourceAudit.Pattern

structure Options where
  fold : Bool := false
  multiline : Bool := false
  dotAll : Bool := false
  verbose : Bool := false
  ascii : Bool := false
deriving DecidableEq, Repr

def Options.folding (opts : Options) : Folding :=
  if opts.fold then (if opts.ascii then .ascii else .full) else .exact

structure PatternError where
  problem : String
  position : Option Nat
  overflow : Bool := false
deriving DecidableEq, Repr

def PatternError.message (error : PatternError) (pattern : List Char) : String :=
  match error.position with
  | none => error.problem
  | some position =>
    let text := s!"{error.problem} at position {position}"
    if pattern.contains '\n' then
      let before := pattern.take position
      let line := before.count '\n' + 1
      let column := (before.reverse.takeWhile (· != '\n')).length + 1
      text ++ s!" (line {line}, column {column})"
    else text

abbrev Width := Nat × Option Nat

namespace Width

def add (a b : Width) : Width :=
  (a.1 + b.1, do return (← a.2) + (← b.2))

def either (a b : Width) : Width :=
  (min a.1 b.1, do return max (← a.2) (← b.2))

def times (a : Width) (least : Nat) (most : Option Nat) : Width :=
  (a.1 * least, match a.2, most with
    | some high, some lim => some (high * lim)
    | some 0, none => some 0
    | _, _ => none)

end Width

def Node.width (ofGroup : Nat → Width) : Node → Width
  | .empty => (0, some 0)
  | .char _ _ => (1, some 1)
  | .any _ => (1, some 1)
  | .set _ _ _ => (1, some 1)
  | .anchor _ => (0, some 0)
  | .seq a b => (a.width ofGroup).add (b.width ofGroup)
  | .choice a b => (a.width ofGroup).either (b.width ofGroup)
  | .repetition body least most _ => (body.width ofGroup).times least most
  | .group _ body => body.width ofGroup
  | .reference i _ => ofGroup i
  | .ahead _ _ => (0, some 0)
  | .behind _ _ _ => (0, some 0)
  | .atomic body => body.width ofGroup
  | .ifGroup _ yes no => (yes.width ofGroup).either (no.width ofGroup)

inductive Token where
  | plain (c : Char)
  | escaped (c : Char)
deriving DecidableEq, Repr

namespace Token

def length : Token → Nat
  | .plain _ => 1
  | .escaped _ => 2

def text : Token → String
  | .plain c => String.singleton c
  | .escaped c => String.ofList ['\\', c]

end Token

structure Reading where
  rest : List Char
  index : Nat
  groups : Nat
  closed : List (Nat × Width)
  names : List (String × Nat)
  behindGroups : Option Nat
  options : Options
  conditions : List (Nat × Nat)

abbrev Read (α : Type) := StateT Reading (Except PatternError) α

def failBack {α : Type} (problem : String) (offset : Nat) : Read α := do
  let state ← get
  throw { problem, position := some (state.index - offset) }

def fail {α : Type} (problem : String) : Read α :=
  failBack problem 0

def peek : Read (Option Token) := do
  let state ← get
  match state.rest with
  | [] => return none
  | '\\' :: [] => throw { problem := "bad escape (end of pattern)", position := some state.index }
  | '\\' :: c :: _ => return some (.escaped c)
  | c :: _ => return some (.plain c)

def take : Read (Option Token) := do
  let token ← peek
  match token with
  | none => return none
  | some token =>
    modify fun state =>
      { state with rest := state.rest.drop token.length, index := state.index + token.length }
    return some token

def accept (c : Char) : Read Bool := do
  if (← peek) == some (.plain c) then
    let _ ← take
    return true
  else return false

def takeWhileUpTo (test : Char → Bool) : Nat → Read (List Char)
  | 0 => return []
  | n + 1 => do
    match ← peek with
    | some (.plain c) =>
      if test c then
        let _ ← take
        return c :: (← takeWhileUpTo test n)
      else return []
    | _ => return []

def takeUntil (close : Char) (what : String) : (fuel : Nat) → (t : List Char) → Read String
  | 0, _ => fail ("missing " ++ what)
  | fuel + 1, t => do
    match ← take with
    | none =>
      if t.isEmpty then fail ("missing " ++ what)
      else failBack s!"missing {close}, unterminated name" t.length
    | some token =>
      if token == .plain close then
        if t.isEmpty then failBack ("missing " ++ what) 1
        else return String.ofList t.reverse
      else takeUntil close what fuel (token.text.toList.reverse ++ t)

def isOctal (c : Char) : Bool := '0' ≤ c && c ≤ '7'

def isHex (c : Char) : Bool :=
  Text.isAsciiDigit c || ('a' ≤ c && c ≤ 'f') || ('A' ≤ c && c ≤ 'F')

def hexDigit (c : Char) : Nat :=
  if Text.isAsciiDigit c then c.toNat - '0'.toNat
  else if 'a' ≤ c && c ≤ 'f' then c.toNat - 'a'.toNat + 10
  else c.toNat - 'A'.toNat + 10

def numberIn (base : Nat) (digits : List Char) : Nat :=
  digits.foldl (fun total c => total * base + hexDigit c) 0

def isIdentifier (nm : String) : Bool :=
  match nm.toList with
  | [] => false
  | c :: tl => (Text.isWord c && !Text.isDecimal c) && tl.all Text.isWord

def checkGroupName (nm : String) (offset : Nat) : Read Unit := do
  if !isIdentifier nm then
    failBack ("bad character in group name " ++ Text.Quote.text nm) (nm.length + offset)

def category? (c : Char) (opts : Options) : Option SetItem :=
  match c with
  | 'd' => some (.category .digit false opts.ascii)
  | 'D' => some (.category .digit true opts.ascii)
  | 's' => some (.category .space false opts.ascii)
  | 'S' => some (.category .space true opts.ascii)
  | 'w' => some (.category .word false opts.ascii)
  | 'W' => some (.category .word true opts.ascii)
  | _ => none

def controlEscape? : Char → Option Char
  | 'a' => some (Char.ofNat 7)
  | 'f' => some (Char.ofNat 12)
  | 'n' => some '\n'
  | 'r' => some '\r'
  | 't' => some '\t'
  | 'v' => some (Char.ofNat 11)
  | '\\' => some '\\'
  | _ => none

def hexEscape (letter : Char) (n : Nat) : Read Char := do
  let digits ← takeWhileUpTo isHex n
  let text := String.ofList ('\\' :: letter :: digits)
  if digits.length != n then
    failBack s!"incomplete escape {text}" text.length
  else
    let num := numberIn 16 digits
    if num > 0x10FFFF then failBack s!"bad escape {text}" text.length
    else return Char.ofNat num

def namedEscape {α : Type} : Read α := do
  if !(← accept '\x7b') then fail "missing \x7b"
  else
    let state ← get
    let nm ← takeUntil '\x7d' "character name" (state.rest.length + 1) []
    failBack ("undefined character name " ++ Text.Quote.text nm) (nm.length + 4)

def setEscape (opts : Options) (c : Char) : Read SetItem := do
  if c == 'b' then return .char (Char.ofNat 8)
  else match controlEscape? c with
    | some denoted => return .char denoted
    | none =>
      match category? c opts with
      | some x => return x
      | none =>
        if c == 'x' then return .char (← hexEscape 'x' 2)
        else if c == 'u' then return .char (← hexEscape 'u' 4)
        else if c == 'U' then return .char (← hexEscape 'U' 8)
        else if c == 'N' then namedEscape
        else if isOctal c then
          let digits := c :: (← takeWhileUpTo isOctal 2)
          let n := numberIn 8 digits
          let text := String.ofList ('\\' :: digits)
          if n > 255 then
            failBack s!"octal escape value {text} outside of range 0-0o377" text.length
          else return .char (Char.ofNat n)
        else if Text.isAsciiDigit c || Text.isAsciiLetter c then
          failBack ("bad escape " ++ String.ofList ['\\', c]) 2
        else return .char c

inductive ItemKind where
  | plain
  | anchor
  | repeated
deriving DecidableEq

structure Item where
  node : Node
  kind : ItemKind

def checkBehindGroup (group : Nat) : Read Unit := do
  let state ← get
  match state.behindGroups with
  | none => return ()
  | some lim =>
    if !(state.closed.any fun e => e.1 == group) then fail "cannot refer to an open group"
    else if group ≥ lim then
      fail "cannot refer to group defined in the same lookbehind subpattern"

def escape (opts : Options) (c : Char) : Read Item := do
  let plain (node : Node) : Item := { node, kind := .plain }
  let anchor (pl : Anchor) : Item := { node := .anchor pl, kind := .anchor }
  let char (c : Char) : Item := plain (.char c opts.folding)
  match c with
  | 'A' => return anchor .textStart
  | 'Z' => return anchor .finish
  | 'b' => return anchor (.wordBoundary opts.ascii)
  | 'B' => return anchor (.notWordBoundary opts.ascii)
  | _ =>
  match category? c opts with
  | some x => return plain (.set false [x] .exact)
  | none =>
  match controlEscape? c with
  | some denoted => return char denoted
  | none =>
    if c == 'x' then return char (← hexEscape 'x' 2)
    else if c == 'u' then return char (← hexEscape 'u' 4)
    else if c == 'U' then return char (← hexEscape 'U' 8)
    else if c == 'N' then namedEscape
    else if c == '0' then
      let digits ← takeWhileUpTo isOctal 2
      return char (Char.ofNat (numberIn 8 digits))
    else if Text.isAsciiDigit c then
      let second ← takeWhileUpTo Text.isAsciiDigit 1
      let third ←
        if isOctal c && second.all isOctal && !second.isEmpty then takeWhileUpTo isOctal 1
        else pure []
      if !third.isEmpty then
        let digits := c :: second ++ third
        let n := numberIn 8 digits
        let text := String.ofList ('\\' :: digits)
        if n > 255 then
          failBack s!"octal escape value {text} outside of range 0-0o377" text.length
        else return char (Char.ofNat n)
      else
        let group := numberIn 10 (c :: second)
        let state ← get
        if group < state.groups then
          if !(state.closed.any fun e => e.1 == group) then
            failBack "cannot refer to an open group" (2 + second.length)
          else
            checkBehindGroup group
            return plain (.reference group opts.folding)
        else failBack s!"invalid group reference {group}" (1 + second.length)
    else if Text.isAsciiLetter c then failBack ("bad escape " ++ String.ofList ['\\', c]) 2
    else return char c

def setItems (opts : Options) (here : Nat) :
    (fuel : Nat) → (items : List SetItem) → Read (List SetItem)
  | 0, _ => fail "unterminated character set"
  | fuel + 1, items => do
    let unterminated {α : Type} : Read α := do
      let state ← get
      failBack "unterminated character set" (state.index - here)
    match ← take with
    | none => unterminated
    | some token =>
      if token == .plain ']' && !items.isEmpty then return items.reverse
      else
        let a ← match token with
          | .escaped c => setEscape opts c
          | .plain c => pure (SetItem.char c)
        if ← accept '-' then
          match ← take with
          | none => unterminated
          | some (.plain ']') => return (SetItem.char '-' :: a :: items).reverse
          | some that =>
            let b ← match that with
              | .escaped c => setEscape opts c
              | .plain c => pure (SetItem.char c)
            let bad {α : Type} : Read α :=
              failBack s!"bad character range {token.text}-{that.text}"
                (token.length + 1 + that.length)
            match a, b with
            | .char low, .char high =>
              if high < low then bad
              else setItems opts here fuel (.range low high :: items)
            | _, _ => bad
        else setItems opts here fuel (a :: items)

inductive OptionLetter where
  | fold | locale | multiline | dotAll | verbose | ascii | template | unicode
deriving DecidableEq

def optionLetter? : Char → Option OptionLetter
  | 'i' => some .fold
  | 'L' => some .locale
  | 'm' => some .multiline
  | 's' => some .dotAll
  | 'x' => some .verbose
  | 'a' => some .ascii
  | 't' => some .template
  | 'u' => some .unicode
  | _ => none

def OptionLetter.isType (letter : OptionLetter) : Bool :=
  letter == .ascii || letter == .locale || letter == .unicode

def applyLetter (value : Bool) (opts : Options) : OptionLetter → Options
  | .fold => { opts with fold := value }
  | .multiline => { opts with multiline := value }
  | .dotAll => { opts with dotAll := value }
  | .verbose => { opts with verbose := value }
  | .ascii => { opts with ascii := value }
  | .unicode => { opts with ascii := !value }
  | .locale => opts
  | .template => opts

def applyLetters (v : Bool) (opts : Options) (letters : List OptionLetter) : Options :=
  letters.foldl (applyLetter v) opts

def lettersOn : (fuel : Nat) → (letters : List OptionLetter) → Char →
    Read (List OptionLetter × Char)
  | 0, _, _ => fail "missing -, : or )"
  | fuel + 1, letters, c =>
    match optionLetter? c with
    | none => fail "unknown flag"
    | some letter => do
      if letter == .locale then
        fail "bad inline flags: cannot use 'L' flag with a str pattern"
      let letters := letter :: letters
      if letter.isType && (letters.any fun other => other.isType && other != letter) then
        fail "bad inline flags: flags 'a', 'u' and 'L' are incompatible"
      match ← take with
      | none => fail "missing -, : or )"
      | some (.plain c) =>
        if c == ')' || c == '-' || c == ':' then return (letters, c)
        else if (optionLetter? c).isNone then
          failBack (if Text.isAlphanumeric c && !Text.isDecimal c then "unknown flag"
            else "missing -, : or )") 1
        else lettersOn fuel letters c
      | some token => failBack "missing -, : or )" token.length

def lettersOff : (fuel : Nat) → (letters : List OptionLetter) → Char → Read (List OptionLetter)
  | 0, _, _ => fail "missing :"
  | fuel + 1, letters, c =>
    match optionLetter? c with
    | none => fail "unknown flag"
    | some letter => do
      if letter.isType then
        fail "bad inline flags: cannot turn off flags 'a', 'u' and 'L'"
      let letters := letter :: letters
      match ← take with
      | none => fail "missing :"
      | some (.plain c) =>
        if c == ':' then return letters
        else if (optionLetter? c).isNone then
          failBack (if Text.isAlphanumeric c && !Text.isDecimal c then "unknown flag"
            else "missing :") 1
        else lettersOff fuel letters c
      | some token => failBack "missing :" token.length

def groupOptions (c : Char) : Read (Option (List OptionLetter × List OptionLetter)) := do
  let state ← get
  let fuel := state.rest.length + 1
  let (on, stop) ← if c == '-' then pure ([], '-') else lettersOn fuel [] c
  if stop == ')' then
    modify fun state => { state with options := applyLetters true state.options on }
    return none
  if on.contains .template then
    failBack "bad inline flags: cannot turn on global flag" 1
  let off ←
    if stop == '-' then
      match ← take with
      | none => fail "missing flag"
      | some (.plain c) =>
        if (optionLetter? c).isNone then
          failBack (if Text.isAlphanumeric c && !Text.isDecimal c then "unknown flag"
            else "missing flag") 1
        else lettersOff fuel [] c
      | some token => failBack "missing flag" token.length
    else pure []
  if off.contains .template then
    failBack "bad inline flags: cannot turn off global flag" 1
  if on.any fun letter => off.contains letter then
    failBack "bad inline flags: flag turned on and off" 1
  return some (on, off)

def countLimit : Nat := 4294967295

def bounds (here : Nat) : Read (Option (Nat × Option Nat)) := do
  let start ← get
  if (← peek) == some (.plain '\x7d') then return none
  let digits (state : Reading) : Nat := state.rest.length
  let low ← takeWhileUpTo Text.isAsciiDigit (digits start)
  let high ←
    if ← accept ',' then takeWhileUpTo Text.isAsciiDigit (digits start)
    else pure low
  if !(← accept '\x7d') then
    set start
    return none
  let least := numberIn 10 low
  let most := if high.isEmpty then none else some (numberIn 10 high)
  if countLimit ≤ least || (most.any fun lim => countLimit ≤ lim) then
    throw { problem := "the repetition number is too large", position := none, overflow := true }
  if most.any fun lim => lim < least then
    let state ← get
    failBack "min repeat greater than max repeat" (state.index - here)
  return some (least, most)

def sequence : List Item → Node
  | [] => .empty
  | [x] => x.node
  | x :: tl => .seq x.node (sequence tl)

def choices : List Node → Node
  | [] => .empty
  | [nd] => nd
  | nd :: tl => .choice nd (choices tl)

def isVerboseSpace (c : Char) : Bool :=
  c == ' ' || c == '\t' || c == '\n' || c == '\r' || c == Char.ofNat 11 || c == Char.ofNat 12

def skipLine : (fuel : Nat) → Read Unit
  | 0 => return ()
  | fuel + 1 => do
    match ← take with
    | none => return ()
    | some token => if token == .plain '\n' then return () else skipLine fuel

def skipComment (start : Nat) : (fuel : Nat) → Read Unit
  | 0 => return ()
  | fuel + 1 => do
    match ← take with
    | none =>
      let state ← get
      failBack "missing ), unterminated comment" (state.index - start)
    | some token => if token == .plain ')' then return () else skipComment start fuel

def groupWidth (state : Reading) (i : Nat) : Width :=
  ((state.closed.find? fun e => e.1 == i).map Prod.snd).getD (0, none)

def openGroup (nm : Option String) : Read Nat := do
  let state ← get
  let index := state.groups
  set { state with groups := index + 1 }
  match nm with
  | none => return index
  | some nm =>
    match state.names.find? fun e => e.1 == nm with
    | some (_, old) =>
      failBack ("redefinition of group name " ++ Text.Quote.text nm ++
        s!" as group {index}; was group {old}") (nm.length + 1)
    | none =>
      modify fun state => { state with names := state.names ++ [(nm, index)] }
      return index

def closeParenthesis (start : Nat) : Read Unit := do
  if !(← accept ')') then
    let state ← get
    failBack "missing ), unterminated subpattern" (state.index - start)

def repeatLast (here width : Nat) (least : Nat) (most : Option Nat) :
    List Item → Read (List Item)
  | [] => do
    let state ← get
    failBack "nothing to repeat" (state.index - here + width)
  | x :: tl => do
    let state ← get
    match x.kind with
    | .anchor => failBack "nothing to repeat" (state.index - here + width)
    | .repeated => failBack "multiple repeat" (state.index - here + width)
    | .plain =>
      let lazy ← accept '?'
      let possessive ← if lazy then pure false else accept '+'
      let greed := if lazy then Greed.lazy else if possessive then .possessive else .greedy
      return { node := .repetition x.node least most greed, kind := .repeated } :: tl

mutual

def readChoice : (fuel : Nat) → (opts : Options) → (outermost : Bool) → Read Node
  | 0, _, _ => fail "pattern too long"
  | fuel + 1, opts, outermost => do
    let a ← readSequence fuel opts outermost []
    let tl ← readBranches fuel opts outermost
    return choices (sequence a :: tl)

def readBranches : (fuel : Nat) → (opts : Options) → (outermost : Bool) → Read (List Node)
  | 0, _, _ => fail "pattern too long"
  | fuel + 1, opts, outermost => do
    if ← accept '|' then
      let state ← get
      let opts := if outermost then state.options else opts
      let xs ← readSequence fuel opts false []
      return sequence xs :: (← readBranches fuel opts outermost)
    else return []

def readSequence : (fuel : Nat) → (opts : Options) → (a : Bool) → (xs : List Item) →
    Read (List Item)
  | 0, _, _, _ => fail "pattern too long"
  | fuel + 1, opts, a, xs => do
    match ← peek with
    | none => return xs.reverse
    | some (.plain '|') => return xs.reverse
    | some (.plain ')') => return xs.reverse
    | some token =>
      let _ ← take
      let state ← get
      match token with
      | .escaped c =>
        readSequence fuel opts a ((← escape opts c) :: xs)
      | .plain c =>
        if opts.verbose && isVerboseSpace c then readSequence fuel opts a xs
        else if opts.verbose && c == '#' then
          skipLine (state.rest.length + 1)
          readSequence fuel opts a xs
        else match c with
          | '[' =>
            let here := state.index - 1
            let negated ← accept '^'
            let members ← setItems opts here (state.rest.length + 1) []
            readSequence fuel opts a
              ({ node := .set negated members opts.folding, kind := .plain } :: xs)
          | '?' =>
            readSequence fuel opts a
              (← repeatLast state.index 1 0 (some 1) xs)
          | '*' => readSequence fuel opts a (← repeatLast state.index 1 0 none xs)
          | '+' => readSequence fuel opts a (← repeatLast state.index 1 1 none xs)
          | '\x7b' =>
            match ← bounds state.index with
            | none =>
              readSequence fuel opts a
                ({ node := .char c opts.folding, kind := .plain } :: xs)
            | some (least, most) =>
              readSequence fuel opts a
                (← repeatLast state.index 1 least most xs)
          | '.' =>
            readSequence fuel opts a
              ({ node := .any opts.dotAll, kind := .plain } :: xs)
          | '^' =>
            let pl := if opts.multiline then Anchor.lineStart else .textStart
            readSequence fuel opts a
              ({ node := .anchor pl, kind := .anchor } :: xs)
          | '$' =>
            let pl := if opts.multiline then Anchor.lineEnd else .textEnd
            readSequence fuel opts a
              ({ node := .anchor pl, kind := .anchor } :: xs)
          | '(' => do
            match ← readGroup fuel opts (a && xs.isEmpty) (state.index - 1) with
            | some x => readSequence fuel opts a (x :: xs)
            | none =>
              -- a comment, or options for the whole pattern
              let state ← get
              let opts := if a && xs.isEmpty then state.options else opts
              readSequence fuel opts a xs
          | _ =>
            readSequence fuel opts a
              ({ node := .char c opts.folding, kind := .plain } :: xs)

def readGroup : (fuel : Nat) → (opts : Options) → (atStart : Bool) → (start : Nat) →
    Read (Option Item)
  | 0, _, _, _ => fail "pattern too long"
  | fuel + 1, opts, atStart, start => do
    let plain (node : Node) : Item := { node, kind := .plain }
    let capture (nm : Option String) : Read (Option Item) := do
      let i ← openGroup nm
      let body ← readChoice fuel opts false
      closeParenthesis start
      modify fun state =>
        { state with closed := (i, body.width (groupWidth state)) :: state.closed }
      return some (plain (.group i body))
    if !(← accept '?') then capture none
    else
      match ← take with
      | none => fail "unexpected end of pattern"
      | some (.escaped c) =>
        failBack ("unknown extension ?" ++ String.ofList ['\\', c]) 3
      | some (.plain c) =>
        let state ← get
        let room := state.rest.length + 1
        match c with
        | 'P' =>
          if ← accept '<' then
            let nm ← takeUntil '>' "group name" room []
            checkGroupName nm 1
            capture (some nm)
          else if ← accept '=' then
            let nm ← takeUntil ')' "group name" room []
            checkGroupName nm 1
            let state ← get
            match state.names.find? fun e => e.1 == nm with
            | none =>
              failBack ("unknown group name " ++ Text.Quote.text nm) (nm.length + 1)
            | some (_, i) =>
              if !(state.closed.any fun e => e.1 == i) then
                failBack "cannot refer to an open group" (nm.length + 1)
              else
                checkBehindGroup i
                return some (plain (.reference i opts.folding))
          else
            match ← take with
            | none => fail "unexpected end of pattern"
            | some token =>
              failBack ("unknown extension ?P" ++ token.text) (token.length + 2)
        | ':' =>
          let body ← readChoice fuel opts false
          closeParenthesis start
          return some (plain body)
        | '#' =>
          skipComment start room
          return none
        | '=' =>
          let body ← readChoice fuel opts false
          closeParenthesis start
          return some (plain (.ahead false body))
        | '!' =>
          let body ← readChoice fuel opts false
          closeParenthesis start
          return some (plain (.ahead true body))
        | '<' =>
          match ← take with
          | none => fail "unexpected end of pattern"
          | some token =>
            if token != .plain '=' && token != .plain '!' then
              failBack ("unknown extension ?<" ++ token.text) (token.length + 2)
            else
              let outer := state.behindGroups
              modify fun state =>
                { state with behindGroups := some (outer.getD state.groups) }
              let body ← readChoice fuel opts false
              modify fun state => { state with behindGroups := outer }
              closeParenthesis start
              let state ← get
              let (low, high) := body.width (groupWidth state)
              if high != some low then
                throw { problem := "look-behind requires fixed-width pattern", position := none }
              return some (plain (.behind (token == .plain '!') low body))
        | '(' =>
          let nm ← takeUntil ')' "group name" room []
          let state ← get
          let bad {α : Type} : Read α :=
            failBack ("bad character in group name " ++ Text.Quote.text nm)
              (nm.length + 1)
          let i ←
            if isIdentifier nm then
              match state.names.find? fun e => e.1 == nm with
              | none =>
                failBack ("unknown group name " ++ Text.Quote.text nm) (nm.length + 1)
              | some (_, i) => pure i
            else
              match Value.readInteger nm with
              | none => bad
              | some n =>
                if n < 0 then bad
                else if n = 0 then failBack "bad group number" (nm.length + 1)
                else
                  modify fun state => { state with conditions :=
                    state.conditions ++ [(n.toNat, state.index - nm.length - 1)] }
                  pure n.toNat
          checkBehindGroup i
          let yes ← readSequence fuel opts false []
          let no ←
            if ← accept '|' then do
              let no ← readSequence fuel opts false []
              if (← peek) == some (.plain '|') then
                fail "conditional backref with more than two branches"
              pure no
            else pure []
          closeParenthesis start
          return some (plain (.ifGroup i (sequence yes) (sequence no)))
        | '>' =>
          let body ← readChoice fuel opts false
          closeParenthesis start
          return some (plain (.atomic body))
        | _ =>
          if (optionLetter? c).isSome || c == '-' then
            match ← groupOptions c with
            | none =>
              if !atStart then
                let state ← get
                failBack "global flags not at the start of the expression"
                  (state.index - start)
              else return none
            | some (on, off) =>
              let inner := applyLetters false (applyLetters true opts on) off
              let body ← readChoice fuel inner false
              closeParenthesis start
              return some (plain body)
          else failBack ("unknown extension ?" ++ String.singleton c) 2

end

def readPattern (t : List Char) (options : Options) : Except PatternError Pattern := do
  let start : Reading :=
    { rest := t, index := 0, groups := 1, closed := [], names := [], behindGroups := none,
      options, conditions := [] }
  let (node, state) ← (readChoice (3 * t.length + 3) options true).run start
  if !state.rest.isEmpty then
    throw { problem := "unbalanced parenthesis", position := some state.index }
  match state.conditions.find? fun e => state.groups ≤ e.1 with
  | some (group, pos) =>
    throw { problem := s!"invalid group reference {group}", position := some pos }
  | none => return { node, groups := state.groups, names := state.names }

def compileWith (opts : Options) (t : String) : Outcome Pattern :=
  match readPattern t.toList opts with
  | .ok pat => .ok pat
  | .error error =>
    if error.overflow then .error (.outside "OverflowError" error.problem)
    else .error (.badPattern (error.message t.toList))

def compile (t : String) : Outcome Pattern :=
  compileWith {} t

def never : Pattern :=
  { node := .ahead true .empty, groups := 1, names := [] }

def ofText (t : String) : Pattern :=
  match compile t with
  | .ok pat => pat
  | .error _ => never

def ofTextLines (t : String) : Pattern :=
  match compileWith { multiline := true } t with
  | .ok pat => pat
  | .error _ => never

end SourceAudit.Pattern
