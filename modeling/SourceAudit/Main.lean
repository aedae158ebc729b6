import SourceAudit.Analysis.FileAnalysis

/-!
# The command line

The outer layer: it puts the files that an analysis may look at into a store, runs the analysis on
it, prints what the analysis says and saves the files that it wrote.
-/

namespace SourceAudit.CommandLine

open Outside

def withFile (store : Store) (p : String) : IO Store := do
  match ← (IO.FS.readBinFile p).toBaseIO with
  | .ok c =>
    let parts := Path.parts p
    return (store.makeAll parts.dropLast).put parts (.file c.toList)
  | .error _ => return store

def withDirectory (store : Store) (dir : String) : IO Store := do
  let listed ← match ← ((← IO.currentDir) / dir).readDir.toBaseIO with
    | .ok listed => pure listed.toList
    | .error _ => pure []
  listed.foldlM (fun store x => withFile store x.path.toString) store

def sessionFor (here : String) (args : List String) : IO Session := do
  let start := Session.start {}
  let paths := args.map (Path.absolute here)
  let dirs := [here, Path.join here "config"] ++ paths.map Path.directory
  let files ← dirs.foldlM withDirectory (start.files.makeAll (Path.parts here))
  return { start with files, here }

def save (parts : List String) (c : List UInt8) : IO Unit := do
  IO.FS.createDirAll ("/" ++ "/".intercalate parts.dropLast)
  IO.FS.writeBinFile ("/" ++ "/".intercalate parts) (ByteArray.mk c.toArray)

def saveChanges (before after : Store) : IO Unit :=
  after.entries.forM fun (parts, e) => do
    match e with
    | .file c => if before.at? parts ≠ some e then save parts c
    | .directory => return ()

end SourceAudit.CommandLine

open SourceAudit in
def main (args : List String) : IO UInt32 := do
  let here := (← IO.currentDir).toString
  let before ← CommandLine.sessionFor here args
  let (out, s') := (Analysis.commandLine args).perform before
  s'.printed.forM IO.print
  CommandLine.saveChanges before.files s'.files
  match out with
  | .ok _ => return 0
  | .error fault =>
    IO.eprintln s!"{fault.family.label}: {fault.message}"
    return 1
