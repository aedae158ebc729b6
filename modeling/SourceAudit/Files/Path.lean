import SourceAudit.Text.Lines

/-!
# Paths

Path texts and what can be done with them without looking at any file.
-/

namespace SourceAudit.Path

def isAbsolute (p : String) : Bool :=
  p.toList.head? == some '/'

def join (dir p : String) : String :=
  if isAbsolute p then p
  else if dir.isEmpty || dir.toList.getLast? == some '/' then dir ++ p
  else dir ++ "/" ++ p

def joinAll (dir : String) (parts : List String) : String :=
  parts.foldl join dir

def split (p : String) : String × String :=
  let reversed := p.toList.reverse
  let tail := (reversed.takeWhile (· != '/')).reverse
  let head := (reversed.dropWhile (· != '/')).reverse
  let head :=
    if head.all (· == '/') then head else Text.trimRightWith (· == '/') head
  (String.ofList head, String.ofList tail)

def directory (p : String) : String :=
  (split p).1

def name (p : String) : String :=
  (split p).2

def splitExtension (p : String) : String × String :=
  let file := (p.toList.reverse.takeWhile (· != '/')).reverse
  let leading := file.takeWhile (· == '.')
  let body := file.drop leading.length
  match Text.cutLast? ['.'] body with
  | some (_, extension) =>
    let width := extension.length + 1
    (String.ofList (p.toList.take (p.toList.length - width)), String.ofList ('.' :: extension))
  | none => (p, "")

def extension (p : String) : String :=
  (splitExtension p).2

def stem (p : String) : String :=
  (splitExtension (name p)).1

def resolveParts (absolute : Bool) : (resolved : List String) → List String → List String
  | resolved, [] => resolved.reverse
  | resolved, part :: tl =>
    if part == "" || part == "." then resolveParts absolute resolved tl
    else if part == ".." then
      match resolved with
      | [] => resolveParts absolute (if absolute then [] else [".."]) tl
      | last :: others =>
        if last == ".." then resolveParts absolute (".." :: resolved) tl
        else resolveParts absolute others tl
    else resolveParts absolute (part :: resolved) tl

def parts (p : String) : List String :=
  resolveParts (isAbsolute p) [] (Str.splitOn "/" p)

def normalize (p : String) : String :=
  if p.isEmpty then "."
  else
    let slashes := (p.toList.takeWhile (· == '/')).length
    let start := if slashes == 0 then "" else if slashes == 2 then "//" else "/"
    let t := start ++ "/".intercalate (parts p)
    if t.isEmpty then "." else t

def absolute (here p : String) : String :=
  normalize (if isAbsolute p then p else join here p)

def commonStart : List String → List String → List String
  | a :: as, b :: bs => if a == b then a :: commonStart as bs else []
  | _, _ => []

def relative (here p start : String) : String :=
  let tgt := parts (absolute here p)
  let origin := parts (absolute here start)
  let common := (commonStart tgt origin).length
  let steps := List.replicate (origin.length - common) ".." ++ tgt.drop common
  if steps.isEmpty then "." else "/".intercalate steps

theorem directory_isPrefix (p : String) : (directory p).toList <+: p.toList := by
  have headed : Text.trimRightWith (· != '/') p.toList <+: p.toList :=
    Text.trimRightWith_isPrefix _
  rw [directory, split, String.toList_ofList]
  split
  · exact headed
  · exact (Text.trimRightWith_isPrefix _).trans headed

theorem directory_shorter {p : String} (climbs : directory p ≠ p) :
    (directory p).length < p.length := by
  have isPrefix := directory_isPrefix p
  refine Nat.lt_of_le_of_ne isPrefix.length_le fun same => climbs ?_
  exact String.toList_inj.mp (isPrefix.eq_of_length same)

/-- The path and the directories above it, up to the one that is its own directory. -/
def ancestors (p : String) : List String :=
  if directory p = p then [p] else p :: ancestors (directory p)
termination_by p.length
decreasing_by exact directory_shorter ‹_›

end SourceAudit.Path
