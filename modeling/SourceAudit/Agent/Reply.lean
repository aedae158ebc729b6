import SourceAudit.Json.Reader

/-!
# Replies of models

A reply should be a document, but it may stand in a code fence or among other text.
-/

namespace SourceAudit.Agent

def fence : String := "\x60\x60\x60"

def unfenced (c : String) : String :=
  let t := Text.trim c.toList
  if Text.startsWith fence.toList t then
    let inner := Text.trimWith (· == '\x60') t
    String.ofList (Text.trim (Text.replaceFirst "json".toList [] inner))
  else String.ofList t

def braced? (t : String) : Option String := do
  let (_, tl) ← Text.cut? ['\x7b'] t.toList
  let (inner, _) ← Text.cutLast? ['\x7d'] tl
  return String.ofList ('\x7b' :: inner ++ ['\x7d'])

def readReply (c : String) : Value :=
  let t := unfenced c
  match Json.read? t with
  | some doc => doc
  | none => ((braced? t).bind Json.read?).getD (.record [])

end SourceAudit.Agent
