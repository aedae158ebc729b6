import SourceAudit.Text.Utf8

/-!
# Quoted text

The written form of a text inside the written form of a value. A text stands between single quotes,
or between double quotes when it holds a single quote and no double quote.
-/

namespace SourceAudit.Text.Quote

def hex (width n : Nat) : List Char :=
  let digits := Nat.toDigits 16 n
  List.replicate (width - digits.length) '0' ++ digits

def quoteFor (text : List Char) : Char :=
  if text.contains '\'' && !text.contains '"' then '"' else '\''

def encodeChar (quote c : Char) : List Char :=
  if c = quote || c = '\\' then ['\\', c]
  else if c = '\n' then ['\\', 'n']
  else if c = '\r' then ['\\', 'r']
  else if c = '\t' then ['\\', 't']
  else if isPrintable c then [c]
  else if c.toNat < 0x100 then '\\' :: 'x' :: hex 2 c.toNat
  else if c.toNat < 0x10000 then '\\' :: 'u' :: hex 4 c.toNat
  else '\\' :: 'U' :: hex 8 c.toNat

def text (c : String) : String :=
  let chars := c.toList
  let quote := quoteFor chars
  String.ofList (quote :: chars.flatMap (encodeChar quote) ++ [quote])

def encodeByte (quote : Char) (byte : UInt8) : List Char :=
  let c := Char.ofNat byte.toNat
  if c = quote || c = '\\' then ['\\', c]
  else if c = '\n' then ['\\', 'n']
  else if c = '\r' then ['\\', 'r']
  else if c = '\t' then ['\\', 't']
  else if 32 ≤ byte && byte < 127 then [c]
  else '\\' :: 'x' :: hex 2 byte.toNat

def bytes (c : List UInt8) : String :=
  let quote := quoteFor (c.map fun byte => Char.ofNat byte.toNat)
  String.ofList ('b' :: quote :: c.flatMap (encodeByte quote) ++ [quote])

end SourceAudit.Text.Quote
