import SourceAudit.Text.Search

/-!
# Assignments

A line of code is an assignment when it has an assignment operator: the first equals sign that is no
part of a comparison, or in Go also the short declaration `:=`.
-/

namespace SourceAudit.Source

open SourceAudit.Text

structure Assignment where
  targets : List (List Char)
  value : List Char
deriving DecidableEq, Repr

def joinsComparison (c : Char) : Bool :=
  c == '=' || c == '!' || c == '<' || c == '>'

def cutAssignment? (declaring : Bool) (previous : Option Char) :
    List Char → Option (List Char × List Char)
  | [] => none
  | c :: t =>
    if declaring && c == ':' && t.head? == some '=' then some ([], t.tail)
    else if c == '=' && !previous.any joinsComparison && t.head? != some '=' then
      some ([], t)
    else (cutAssignment? declaring (some c) t).map fun parts => (c :: parts.1, parts.2)

def dropKeyword (keywords : List (List Char)) (t : List Char) : List Char :=
  match keywords.findSome? fun keyword => (after? keyword t).filter fun tl =>
      tl.head?.any isBlank with
  | some tl => tl.dropWhile isBlank
  | none => t

def listedParts (t : List Char) : List (List Char) :=
  ((splitOn [','] t).map trim).filter fun part => !part.isEmpty

def placeholder : List Char := ['_']

namespace Go

def bareTargets (l : List Char) : List Char :=
  let l := dropKeyword ["if".toList, "for".toList, "switch".toList] l
  dropKeyword ["var".toList] (replace "range ".toList [] l)

def assignment? (ln : List Char) : Option Assignment :=
  (cutAssignment? true none ln).map fun (l, r) =>
    { targets := ((listedParts (bareTargets (trim l))).filterMap fun part =>
        (words part).head?).filter fun nm => nm != placeholder
      value := trim r }

end Go

namespace Java

def assignment? (ln : List Char) : Option Assignment :=
  (cutAssignment? false none ln).map fun (l, r) =>
    { targets := ((listedParts (trim l)).filterMap fun part =>
        (words part).getLast?).filter fun nm => nm != placeholder
      value := trim r }

end Java

end SourceAudit.Source
