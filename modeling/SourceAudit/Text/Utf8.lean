import SourceAudit.Text.Lines

/-!
# UTF-8

Decoding of byte strings. A step reads one character or finds a malformed stretch, which is
described by its length and the reason; `decode` stops there, while `decodeSkipping` and
`decodeReplacing` go on behind the stretch.
-/

namespace SourceAudit.Text.Utf8

inductive Malformed where
  | start
  | continuation
  | truncated
deriving DecidableEq, Repr

namespace Malformed

def reason : Malformed → String
  | .start => "invalid start byte"
  | .continuation => "invalid continuation byte"
  | .truncated => "unexpected end of data"

end Malformed

inductive Step where
  | char (c : Char) (width : Nat)
  | malformed (width : Nat) (why : Malformed)

def isContinuation (byte : UInt8) : Bool :=
  0x80 ≤ byte && byte ≤ 0xBF

def tailBits (byte : UInt8) : Nat :=
  byte.toNat % 64

def secondOfThree (head b : UInt8) : Bool :=
  isContinuation b && !(if b < 0xA0 then head == 0xE0 else head == 0xED)

def secondOfFour (head b : UInt8) : Bool :=
  isContinuation b && !(if b < 0x90 then head == 0xF0 else head == 0xF4)

def stepTwo (head : UInt8) : List UInt8 → Step
  | [] => .malformed 1 .truncated
  | b :: _ =>
    if isContinuation b then
      .char (Char.ofNat ((head.toNat % 32) * 64 + tailBits b)) 2
    else .malformed 1 .continuation

def stepThree (head : UInt8) : List UInt8 → Step
  | [] => .malformed 1 .truncated
  | b :: tl =>
    if !secondOfThree head b then .malformed 1 .continuation
    else match tl with
      | [] => .malformed 2 .truncated
      | third :: _ =>
        if isContinuation third then
          .char (Char.ofNat ((head.toNat % 16) * 4096 + tailBits b * 64 + tailBits third)) 3
        else .malformed 2 .continuation

def stepFour (head : UInt8) : List UInt8 → Step
  | [] => .malformed 1 .truncated
  | b :: tl =>
    if !secondOfFour head b then .malformed 1 .continuation
    else match tl with
      | [] => .malformed 2 .truncated
      | third :: tl =>
        if !isContinuation third then .malformed 2 .continuation
        else match tl with
          | [] => .malformed 3 .truncated
          | fourth :: _ =>
            if isContinuation fourth then
              .char (Char.ofNat ((head.toNat % 8) * 262144 + tailBits b * 4096 +
                tailBits third * 64 + tailBits fourth)) 4
            else .malformed 3 .continuation

def step (head : UInt8) (tl : List UInt8) : Step :=
  if head < 0x80 then .char (Char.ofNat head.toNat) 1
  else if head < 0xC2 then .malformed 1 .start
  else if head < 0xE0 then stepTwo head tl
  else if head < 0xF0 then stepThree head tl
  else if head < 0xF5 then stepFour head tl
  else .malformed 1 .start

structure DecodeError where
  bytes : List UInt8
  position : Nat
  width : Nat
  why : Malformed
deriving DecidableEq, Repr

def hexDigits (byte : UInt8) : String :=
  let digit (n : Nat) : Char := (Nat.digitChar n)
  String.ofList [digit (byte.toNat / 16), digit (byte.toNat % 16)]

namespace DecodeError

def message (error : DecodeError) : String :=
  if error.width = 1 then
    let byte := (error.bytes.drop error.position).headD 0
    s!"'utf-8' codec can't decode byte 0x{hexDigits byte} in position {error.position}: " ++
      error.why.reason
  else
    let last := error.position + error.width - 1
    s!"'utf-8' codec can't decode bytes in position {error.position}-{last}: " ++
      error.why.reason

end DecodeError

def decodeWalk (all : List UInt8) :
    (position skip : Nat) → (t : List Char) → List UInt8 → Except DecodeError (List Char)
  | _, _, t, [] => .ok t.reverse
  | position, skip + 1, t, _ :: tl => decodeWalk all (position + 1) skip t tl
  | position, 0, t, head :: tl =>
    match step head tl with
    | .char c width => decodeWalk all (position + 1) (width - 1) (c :: t) tl
    | .malformed width why => .error { bytes := all, position, width, why }

def decode (bytes : List UInt8) : Except DecodeError String :=
  (decodeWalk bytes 0 0 [] bytes).map String.ofList

def decodePatched (patch : List Char) : (skip : Nat) → List UInt8 → List Char
  | _, [] => []
  | skip + 1, _ :: tl => decodePatched patch skip tl
  | 0, head :: tl =>
    match step head tl with
    | .char c width => c :: decodePatched patch (width - 1) tl
    | .malformed width _ => patch ++ decodePatched patch (width - 1) tl

def decodeSkipping (bytes : List UInt8) : String :=
  String.ofList (decodePatched [] 0 bytes)

def decodeReplacing (bytes : List UInt8) : String :=
  String.ofList (decodePatched [Char.ofNat 0xFFFD] 0 bytes)

def decodeLatin (bytes : List UInt8) : String :=
  String.ofList (bytes.map fun byte => Char.ofNat byte.toNat)

def encode (t : String) : List UInt8 :=
  t.toUTF8.toList

end SourceAudit.Text.Utf8
