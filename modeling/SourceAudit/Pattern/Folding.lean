import SourceAudit.Text.CharClass

/-!
# Ignoring case

Two characters are the same letter when their small letters agree, or when their small letters are
forms of one letter that share a capital, such as the long s and the usual one.
-/

namespace SourceAudit.Pattern

inductive Folding where
  | exact
  | ascii
  | full
deriving DecidableEq, Repr

def smallLetter (c : Char) : Char :=
  if c.toNat = 0x130 then 'i' else Text.lowerChar c

def letterForms : List (List Nat) :=
  [[0x69, 0x131], [0x73, 0x17F], [0xB5, 0x3BC], [0x345, 0x3B9, 0x1FBE], [0x390, 0x1FD3],
    [0x3B0, 0x1FE3], [0x3B2, 0x3D0],
    [0x3B5, 0x3F5], [0x3B8, 0x3D1], [0x3BA, 0x3F0], [0x3C0, 0x3D6], [0x3C1, 0x3F1],
    [0x3C2, 0x3C3], [0x3C6, 0x3D5], [0x432, 0x1C80], [0x434, 0x1C81], [0x43E, 0x1C82],
    [0x441, 0x1C83], [0x442, 0x1C84, 0x1C85], [0x44A, 0x1C86], [0x463, 0x1C87],
    [0x1C88, 0xA64B], [0x1E61, 0x1E9B], [0xFB05, 0xFB06]]

def furtherCapitals : List (Nat × Nat) :=
  [(0x69, 0x130), (0x6B, 0x212A), (0xE5, 0x212B), (0x1C6, 0x1C5), (0x1C9, 0x1C8),
    (0x1CC, 0x1CB), (0x1F3, 0x1F2), (0x3B8, 0x3F4), (0x3C9, 0x2126), (0xDF, 0x1E9E),
    (0x1FB3, 0x1FBC), (0x1FC3, 0x1FCC), (0x1FF3, 0x1FFC)] ++
  [0x1F80, 0x1F90, 0x1FA0].flatMap fun a =>
    (List.range 8).map fun i => (a + i, a + i + 8)

def formsOf (small : Char) : List Char :=
  match letterForms.find? fun forms => forms.contains small.toNat with
  | some forms => forms.map Char.ofNat
  | none => [small]

def withCapitals (small : Char) : List Char :=
  let further := furtherCapitals.filterMap fun (letter, capital) =>
    if letter = small.toNat then some (Char.ofNat capital) else none
  small :: Text.upperChar small :: further

namespace Folding

def small : Folding → Char → Char
  | .exact, c => c
  | .ascii, c => c.toLower
  | .full, c => smallLetter c

def same (folding : Folding) (written c : Char) : Bool :=
  match folding with
  | .full => (formsOf (smallLetter written)).contains (smallLetter c)
  | other => other.small written == other.small c

def repeats (folding : Folding) (earlier c : Char) : Bool :=
  folding.small earlier == folding.small c

def variants (folding : Folding) (c : Char) : List Char :=
  match folding with
  | .exact => [c]
  | .ascii => [c.toLower, c.toUpper]
  | .full => (formsOf (smallLetter c)).flatMap withCapitals

end Folding

end SourceAudit.Pattern
