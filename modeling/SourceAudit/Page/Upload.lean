import SourceAudit.Files.Archive
import SourceAudit.Page.Screen
import SourceAudit.Source.Language

/-!
# Uploads

Files that visitors hand in. The files of an archive are unpacked below the directory for uploads,
and those that an analysis can use are listed, with lists of requirements first.
-/

namespace SourceAudit.Page

open Outside

structure Upload where
  name : String
  content : List UInt8
deriving Repr

namespace Upload

def size (upload : Upload) : Nat :=
  upload.content.length

def requirementsName : String := "requirements.txt"

def isRequirements (nm : String) : Bool :=
  Str.lower nm == requirementsName

def directory : String := "data/uploads"

end Upload

def unpackedPath (dir nm : String) : String :=
  let parts := (Str.splitOn "/" nm).filter fun part => ! ["", ".", ".."].contains part
  Path.normalize (Path.join dir ("/".intercalate parts))

def unpackMember (dir nm : String) (c : Outcome (List UInt8)) : Audit Unit := do
  let tgt := unpackedPath dir nm
  let upper := Path.directory tgt
  if !upper.isEmpty && !(← Audit.exists? upper) then Audit.makeDirectories upper
  if Str.endsWith "/" nm then
    if !(← Audit.isDirectory tgt) then
      if ← Audit.exists? tgt then throw (.path .exists tgt)
      Audit.makeDirectories tgt
  else Audit.writeBytes tgt (← Audit.ofOutcome c)

def unpack (dir : String) (archive : List UInt8) : Audit Unit := do
  let (start, listings) ← Audit.ofOutcome (Archive.directory archive)
  for listing in listings do
    let nm := Archive.shownName listing.name
    let latest := (listings.reverse.find? fun other => Archive.shownName other.name == nm).getD
      listing
    unpackMember dir nm (Archive.contentOf archive start latest)

structure Unpacked where
  path : String
  name : String
  language : String
  directory : String
  isRequirements : Bool

namespace Unpacked

def toValue (file : Unpacked) : Value :=
  .record [("path", .text file.path), ("name", .text file.name), ("language", .text file.language),
    ("temp_dir", .text file.directory), ("is_requirements", .bool file.isRequirements)]

def notAfter (l r : Unpacked) : Bool :=
  if l.isRequirements != r.isRequirements then l.isRequirements
  else decide (Str.lower l.name ≤ Str.lower r.name)

end Unpacked

def sourceExtensions : List String := [".py", ".go", ".java"]

def usable? (directory language : String) (folder nm : String) : Audit (Option Unpacked) := do
  let path := Path.join folder nm
  let here := (← get).here
  let relative := Path.relative here path directory
  if Upload.isRequirements nm then
    return some { path, name := relative, language := "python", directory, isRequirements := true }
  if !sourceExtensions.contains (Path.extension (Str.lower nm)) then return none
  let detected := (← Source.detect path).name
  if !language.isEmpty && detected != language then return none
  return some { path, name := relative, language := detected, directory, isRequirements := false }

def usableFiles (dir lang : String) : Audit (List Unpacked) := do
  let visits ← Audit.walk dir
  let f ← visits.mapM fun (folder, _, nms) =>
    nms.filterMapM (usable? dir lang folder)
  return f.flatten.mergeSort Unpacked.notAfter

def receiveArchive (upload : Upload) (lang : String) : Audit (String × List Unpacked) := do
  Audit.makeDirectories Upload.directory
  let dir := Path.join Upload.directory ("zip_" ++ (← Audit.identifier))
  Audit.makeDirectories dir
  Audit.writeBytes (Path.join dir upload.name) upload.content
  unpack dir upload.content
  return (dir, ← usableFiles dir lang)

def complainAboutArchive (fault : Fault) : Audit Unit :=
  complain s!"❌ ZIP 文件处理失败：{fault.message}"

def takeArchive (upload : Upload) (lang : String) : Audit (List Unpacked) := do
  match ← Audit.attempt (receiveArchive upload lang) with
  | .error err =>
    complainAboutArchive err
    return []
  | .ok (dir, files) =>
    rememberFirst "zip_temp_dirs" (.list [])
    match ← Audit.attempt (rememberMore "zip_temp_dirs" (.text dir)) with
    | .ok () => return files
    | .error err =>
      complainAboutArchive err
      return files

end SourceAudit.Page
