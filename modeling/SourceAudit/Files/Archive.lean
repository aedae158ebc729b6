import SourceAudit.Value.Access

/-!
# Archives

A ZIP archive holds files one behind the other, each with a header, and ends with a directory that
says where each file starts.
-/

namespace SourceAudit

structure Member where
  name : String
  content : List UInt8
deriving DecidableEq, Repr

namespace Archive

def littleEndian : (width : Nat) → Nat → List UInt8
  | 0, _ => []
  | width + 1, n => UInt8.ofNat (n % 256) :: littleEndian width (n / 256)

def number : List UInt8 → Nat
  | [] => 0
  | byte :: tl => byte.toNat + 256 * number tl

def numberAt (bytes : List UInt8) (offset width : Nat) : Nat :=
  number ((bytes.drop offset).take width)

def checksumStep (sum : UInt32) : UInt32 :=
  if sum &&& 1 == 1 then (sum >>> 1) ^^^ 0xEDB88320 else sum >>> 1

def checksumByte (sum : UInt32) (byte : UInt8) : UInt32 :=
  (List.range 8).foldl (fun sum _ => checksumStep sum) (sum ^^^ byte.toUInt32)

def checksum (bytes : List UInt8) : Nat :=
  (bytes.foldl checksumByte 0xFFFFFFFF ^^^ 0xFFFFFFFF).toNat

def utf8Flag : Nat := 0x800

def olderCharacters : String :=
  "ÇüéâäàåçêëèïîìÄÅÉæÆôöòûùÿÖÜ¢£¥₧ƒáíóúñÑªº¿⌐¬½¼¡«»░▒▓│┤╡╢╖╕╣║╗╝╜╛┐└┴┬├─┼╞╟╚╔╩╦╠═╬╧╨╤╥╙╘╒╓╫╪┘┌" ++
    "█▄▌▐▀αßΓπΣσµτΦΘΩδ∞φε∩≡±≥≤⌠⌡÷≈°∙·√ⁿ²■\u00a0"

def olderCharacter (byte : UInt8) : Char :=
  if byte < 128 then Char.ofNat byte.toNat
  else (olderCharacters.toList[byte.toNat - 128]?).getD '?'

def nameOf (flags : Nat) (bytes : List UInt8) : Outcome String :=
  if flags &&& utf8Flag == 0 then .ok (String.ofList (bytes.map olderCharacter))
  else match Text.Utf8.decode bytes with
    | .ok nm => .ok nm
    | .error error => .error (.decoding error)

def flagsFor (nm : String) : Nat :=
  if nm.toList.all fun c => c.toNat < 128 then 0 else utf8Flag

def localMark : List UInt8 := [0x50, 0x4B, 3, 4]

def directoryMark : List UInt8 := [0x50, 0x4B, 1, 2]

def endMark : List UInt8 := [0x50, 0x4B, 5, 6]

def commonFields (member : Member) : List UInt8 :=
  let size := littleEndian 4 member.content.length
  littleEndian 2 20 ++ littleEndian 2 (flagsFor member.name) ++ littleEndian 2 0 ++
    littleEndian 4 0x210000 ++ littleEndian 4 (checksum member.content) ++ size ++ size ++
    littleEndian 2 (Text.Utf8.encode member.name).length ++ littleEndian 2 0

def localRecord (member : Member) : List UInt8 :=
  localMark ++ commonFields member ++ Text.Utf8.encode member.name ++ member.content

def directoryRecord (member : Member) (offset : Nat) : List UInt8 :=
  directoryMark ++ littleEndian 2 20 ++ commonFields member ++ littleEndian 2 0 ++
    littleEndian 2 0 ++ littleEndian 2 0 ++ littleEndian 4 0 ++ littleEndian 4 offset ++
    Text.Utf8.encode member.name

def records (offset : Nat) : List Member → List UInt8 × List UInt8
  | [] => ([], [])
  | member :: tl =>
    let own := localRecord member
    let (files, dir) := records (offset + own.length) tl
    (own ++ files, directoryRecord member offset ++ dir)

def pack (members : List Member) : List UInt8 :=
  let (files, dir) := records 0 members
  let n := littleEndian 2 members.length
  files ++ dir ++ endMark ++ littleEndian 4 0 ++ n ++ n ++
    littleEndian 4 dir.length ++ littleEndian 4 files.length ++ littleEndian 2 0

def endLength : Nat := 22

def lastMark? (mark bytes : List UInt8) : Option Nat :=
  ((List.range bytes.length).reverse).find? fun offset => mark.isPrefixOf (bytes.drop offset)

def endOffset? (bytes : List UInt8) : Option Nat :=
  let plain := bytes.length - endLength
  if endLength ≤ bytes.length && endMark.isPrefixOf (bytes.drop plain) &&
      numberAt bytes (bytes.length - 2) 2 == 0 then some plain
  else
    let start := bytes.length - (65536 + endLength)
    match lastMark? endMark (bytes.drop start) with
    | some offset =>
      if start + offset + endLength ≤ bytes.length then some (start + offset) else none
    | none => none

structure Listing where
  flags : Nat
  method : Nat
  checksum : Nat
  size : Nat
  name : String
  offset : Nat
deriving DecidableEq, Repr

def listings (bytes : List UInt8) : Outcome (List Listing) := do
  if bytes.isEmpty then return []
  if _long : bytes.length < 46 then throw (.archive .directoryCut)
  else
    if !directoryMark.isPrefixOf bytes then throw (.archive .directoryMark)
    let flags := numberAt bytes 8 2
    let nameLength := numberAt bytes 28 2
    let name ← nameOf flags ((bytes.drop 46).take nameLength)
    let own : Listing :=
      { flags, method := numberAt bytes 10 2, checksum := numberAt bytes 16 4
        size := numberAt bytes 20 4, name, offset := numberAt bytes 42 4 }
    let width := 46 + nameLength + numberAt bytes 30 2 + numberAt bytes 32 2
    return own :: (← listings (bytes.drop width))
termination_by bytes.length
decreasing_by
  simp only [List.length_drop]
  omega

def contentOf (bytes : List UInt8) (start : Nat) (listing : Listing) : Outcome (List UInt8) := do
  let bytes := bytes.drop (start + listing.offset)
  if bytes.length < 30 then throw (.archive .headerCut)
  if !localMark.isPrefixOf bytes then throw (.archive .headerMark)
  let nameBytes := (bytes.drop 30).take (numberAt bytes 26 2)
  let nm ← nameOf listing.flags nameBytes
  if nm != listing.name then throw (.archive (.nameDiffers listing.name nameBytes))
  if listing.method != 0 then
    throw (.outside "NotImplementedError" "That compression method is not supported")
  let c := (bytes.drop (30 + nameBytes.length + numberAt bytes 28 2)).take listing.size
  if c.length < listing.size then throw (.outside "EOFError" "")
  if checksum c != listing.checksum then throw (.archive (.checksum listing.name))
  return c

def directory (bytes : List UInt8) : Outcome (Nat × List Listing) := do
  match endOffset? bytes with
  | none => throw (.archive .notArchive)
  | some location =>
    let size := numberAt bytes (location + 12) 4
    let offset := numberAt bytes (location + 16) 4
    if location < size then throw (.archive .directoryOffset)
    let f ← listings ((bytes.drop (location - size)).take size)
    return (location - size - offset, f)

def shownName (nm : String) : String :=
  String.ofList (nm.toList.takeWhile fun c => c.toNat != 0)

end Archive

end SourceAudit
