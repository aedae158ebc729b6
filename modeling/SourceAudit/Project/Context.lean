import SourceAudit.Project.Chain
import SourceAudit.Pattern.Parser

/-!
# Context of chains

The lines of code around the points of chains, with secrets blacked out on demand.
-/

namespace SourceAudit.Project

open SourceAudit.Pattern (Pattern)

def blackout : String := "<REDACTED>"

def patternOf? (v : Value) : Outcome (Option Pattern) := do
  match ← v.asKey with
  | .text c =>
    match Pattern.compile c with
    | .ok pat => return some pat
    | .error err => if err.family = .pattern then return none else throw err
  | _ => throw .notPattern

def redact (t : String) : List Value → Outcome String
  | [] => .ok t
  | v :: tl => do
    match ← patternOf? v with
    | none => redact t tl
    | some pat =>
      redact (String.ofList (pat.substitute (fun _ => blackout.toList) t.toList)) tl

structure Snippet where
  file : Value
  first : Int
  last : Int
  code : String

namespace Snippet

def toValue (snip : Snippet) : Value :=
  .record [("file", snip.file), ("line_start", .int snip.first),
    ("line_end", .int snip.last), ("code", .text snip.code)]

def key (snip : Snippet) : Value :=
  .tuple [snip.file, .int snip.first, .int snip.last]

end Snippet

def linesFromTo {α : Type} (a last : Int) (ls : List α) : List α :=
  (ls.take last.toNat).drop (a - 1).toNat

def around (ls : Value) (ln : Int) (radius : Value) : Outcome (Int × Int × String) := do
  if ln ≤ 0 then return (1, 1, "")
  let a ← (← (Value.int ln).minus radius).raisedTo 1
  let last ← (← (Value.int ln).plus radius).loweredTo (Int.ofNat (← ls.length))
  let code ← Value.joinTexts "\n" (linesFromTo a last (← ls.items))
  return (a, last, code)

def pointsOf (candidate : Value) : Outcome (List (Value × Value)) := do
  let pt (pl : Value) : Outcome (Value × Value) := do
    return (← pl.get "file", ← pl.get "line")
  let src := (← candidate.get "source").orElse (.record [])
  let sink := (← candidate.get "sink").orElse (.record [])
  let src ← pt src
  let sink ← pt sink
  let hops ← ((← candidate.getD "path" (.list [])).orElse (.list [])).items
  return src :: sink :: (← hops.mapM pt)

structure ContextOptions where
  files : Value
  radius : Value
  limit : Value
  redacted : Bool
  patterns : Value

def addPoint (opts : ContextOptions) (f : List Snippet) (pt : Value × Value) :
    Outcome (List Snippet) := do
  let (file, line) := pt
  if !file.truthy || !line.truthy then return f
  let info ← opts.files.entry file
  if !info.truthy then return f
  let ls ← info.getD "lines" (.list [])
  let (first, last, code) ← around ls (← line.toInteger) opts.radius
  let snip : Snippet := { file, first, last, code }
  if snip.key.among (f.map (·.key)) then return f
  let code ←
    if opts.redacted && !code.isEmpty then do redact code (← opts.patterns.items)
    else pure code
  return f ++ [{ snip with code }]

def addPoints (opts : ContextOptions) (f : List Snippet) :
    List (Value × Value) → Outcome (List Snippet)
  | [] => .ok f
  | pt :: tl => do
    let more ← addPoint opts f pt
    let full ←
      if more.length > f.length then reaches more.length opts.limit else pure false
    if full then .ok more else addPoints opts more tl

def addChains (opts : ContextOptions) (f : List Snippet) :
    List Value → Outcome (List Snippet)
  | [] => .ok f
  | candidate :: tl => do
    let f ← addPoints opts f (← pointsOf candidate)
    if ← reaches f.length opts.limit then .ok f
    else addChains opts f tl

def radiusOf (ls : Value) : Outcome Value := do
  return if ← ls.greater (.int 1) then ls else .int 1

def snippets (i candidates ls limit : Value) (redacted : Bool) (patterns : Value) :
    Outcome (List Snippet) := do
  let files ← i.getD "files" (.record [])
  let radius ← radiusOf ls
  addChains { files, radius, limit, redacted, patterns } [] (← candidates.items)

end SourceAudit.Project
