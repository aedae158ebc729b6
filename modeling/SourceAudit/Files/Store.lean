import SourceAudit.Files.Path
import SourceAudit.Value.Access

/-!
# The file store

Files and directories by absolute path. A store is a plain value: writing gives a new store, and
every directory that holds something is itself in the store.
-/

namespace SourceAudit

inductive Entry where
  | directory
  | file (c : List UInt8)
deriving DecidableEq, Repr

structure Store where
  entries : List (List String × Entry)
deriving Repr, Inhabited

namespace Store

def empty : Store :=
  { entries := [] }

def at? (store : Store) (p : List String) : Option Entry :=
  if p.isEmpty then some .directory
  else (store.entries.find? fun e => e.1 == p).map Prod.snd

def put (store : Store) (p : List String) (e : Entry) : Store :=
  { entries := (p, e) :: store.entries.filter fun old => old.1 != p }

def drop (store : Store) (p : List String) : Store :=
  { entries := store.entries.filter fun e => !(p.isPrefixOf e.1) }

def makeAll (store : Store) (p : List String) : Store :=
  (List.range p.length).foldl
    (fun store n =>
      let dir := p.take (n + 1)
      match store.at? dir with
      | some _ => store
      | none => store.put dir .directory)
    store

def children (store : Store) (p : List String) : List (String × Entry) :=
  let inside := store.entries.filterMap fun (other, e) =>
    if other.length == p.length + 1 && p.isPrefixOf other then
      other.getLast?.map fun nm => (nm, e)
    else none
  inside.mergeSort fun a b => decide (a.1 ≤ b.1)

structure Visit where
  path : List String
  directories : List String
  files : List String

def walkFrom (store : Store) : (fuel : Nat) → List String → List Visit
  | 0, _ => []
  | fuel + 1, path =>
    let inside := store.children path
    let directories := inside.filterMap fun (nm, e) =>
      if e == .directory then some nm else none
    let files := inside.filterMap fun (nm, e) =>
      if e == .directory then none else some nm
    { path, directories, files } ::
      directories.flatMap fun nm => walkFrom store fuel (path ++ [nm])

def depth (store : Store) : Nat :=
  (store.entries.map fun e => e.1.length).foldl max 0

def walk (store : Store) (p : List String) : List Visit :=
  match store.at? p with
  | some .directory => store.walkFrom (store.depth + 2) p
  | _ => []

end Store

end SourceAudit
