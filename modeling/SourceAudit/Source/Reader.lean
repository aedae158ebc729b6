import SourceAudit.Source.Language

/-!
# Reading sources

The text of a source file. `readSource` takes bytes that are no UTF-8 for one character each, while
`readStrict` refuses such files; both unify the line ends.
-/

namespace SourceAudit.Source

open Outside

def textOf (bytes : List UInt8) : String :=
  match Text.Utf8.decode bytes with
  | .ok t => Audit.unify t
  | .error _ => Audit.unify (Text.Utf8.decodeLatin bytes)

def readSource (path : String) : Audit String := do
  if !(← Audit.exists? path) then throw (.missingFile s!"File not found: {path}")
  if !(← Audit.isFile path) then throw (.invalid s!"Path is not a file: {path}")
  match ← Audit.attempt (Audit.readBytes path) with
  | .ok bytes => return textOf bytes
  | .error fault =>
    if fault.family = .permission then
      throw (.outside "PermissionError" s!"Permission denied: {path}")
    else throw (.os s!"Error reading file {path}: {fault.message}")

def readStrict (what path : String) : Audit String := do
  match ← Audit.attempt (Audit.readText path) with
  | .ok t => return t
  | .error fault => throw (.os s!"Failed to read {what} file {path}: {fault.message}")

def loadStrict (p : String) : Audit String := do
  match Text.Utf8.decode (← Audit.loadBytes p) with
  | .ok t => return Audit.unify t
  | .error error => throw (.decoding error)

def loadSource (p : String) : Audit String := do
  return textOf (← Audit.loadBytes p)

end SourceAudit.Source
