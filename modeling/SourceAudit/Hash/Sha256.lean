/-!
# SHA-256

The hash function over lists of bytes. A message is padded to blocks of sixteen words; each block is
spread to sixty-four words and mixed into the eight words of the state.
-/

namespace SourceAudit.Hash

def bigEndian : (width : Nat) → Nat → List UInt8
  | 0, _ => []
  | width + 1, n => bigEndian width (n / 256) ++ [UInt8.ofNat (n % 256)]

def rotateRight (w : UInt32) (n : UInt32) : UInt32 :=
  (w >>> n) ||| (w <<< (32 - n))

def roundWords : List UInt32 :=
  [0x428a2f98, 0x71374491, 0xb5c0fbcf, 0xe9b5dba5, 0x3956c25b, 0x59f111f1, 0x923f82a4, 0xab1c5ed5,
   0xd807aa98, 0x12835b01, 0x243185be, 0x550c7dc3, 0x72be5d74, 0x80deb1fe, 0x9bdc06a7, 0xc19bf174,
   0xe49b69c1, 0xefbe4786, 0x0fc19dc6, 0x240ca1cc, 0x2de92c6f, 0x4a7484aa, 0x5cb0a9dc, 0x76f988da,
   0x983e5152, 0xa831c66d, 0xb00327c8, 0xbf597fc7, 0xc6e00bf3, 0xd5a79147, 0x06ca6351, 0x14292967,
   0x27b70a85, 0x2e1b2138, 0x4d2c6dfc, 0x53380d13, 0x650a7354, 0x766a0abb, 0x81c2c92e, 0x92722c85,
   0xa2bfe8a1, 0xa81a664b, 0xc24b8b70, 0xc76c51a3, 0xd192e819, 0xd6990624, 0xf40e3585, 0x106aa070,
   0x19a4c116, 0x1e376c08, 0x2748774c, 0x34b0bcb5, 0x391c0cb3, 0x4ed8aa4a, 0x5b9cca4f, 0x682e6ff3,
   0x748f82ee, 0x78a5636f, 0x84c87814, 0x8cc70208, 0x90befffa, 0xa4506ceb, 0xbef9a3f7, 0xc67178f2]

structure State where
  a : UInt32
  b : UInt32
  c : UInt32
  d : UInt32
  e : UInt32
  f : UInt32
  g : UInt32
  h : UInt32
deriving DecidableEq, Repr

def State.start : State :=
  ⟨0x6a09e667, 0xbb67ae85, 0x3c6ef372, 0xa54ff53a, 0x510e527f, 0x9b05688c, 0x1f83d9ab, 0x5be0cd19⟩

def State.words (state : State) : List UInt32 :=
  [state.a, state.b, state.c, state.d, state.e, state.f, state.g, state.h]

def State.add (l r : State) : State :=
  ⟨l.a + r.a, l.b + r.b, l.c + r.c, l.d + r.d, l.e + r.e, l.f + r.f, l.g + r.g, l.h + r.h⟩

def round (state : State) (words : UInt32 × UInt32) : State :=
  let mix1 := rotateRight state.e 6 ^^^ rotateRight state.e 11 ^^^ rotateRight state.e 25
  let choice := (state.e &&& state.f) ^^^ ((~~~ state.e) &&& state.g)
  let a := state.h + mix1 + choice + words.2 + words.1
  let mix0 := rotateRight state.a 2 ^^^ rotateRight state.a 13 ^^^ rotateRight state.a 22
  let majority := (state.a &&& state.b) ^^^ (state.a &&& state.c) ^^^ (state.b &&& state.c)
  ⟨a + mix0 + majority, state.a, state.b, state.c, state.d + a, state.e, state.f, state.g⟩

def extend (recent : List UInt32) : UInt32 :=
  let w (back : Nat) : UInt32 := (recent[back - 1]?).getD 0
  let low := w 15
  let high := w 2
  let spread0 := rotateRight low 7 ^^^ rotateRight low 18 ^^^ (low >>> 3)
  let spread1 := rotateRight high 17 ^^^ rotateRight high 19 ^^^ (high >>> 10)
  w 16 + spread0 + w 7 + spread1

def extendBy : (n : Nat) → List UInt32 → List UInt32
  | 0, recent => recent
  | n + 1, recent => extendBy n (extend recent :: recent)

def schedule (block : List UInt32) : List UInt32 :=
  (extendBy 48 block.reverse).reverse

def compress (state : State) (block : List UInt32) : State :=
  state.add (((schedule block).zip roundWords).foldl round state)

def pad (msg : List UInt8) : List UInt8 :=
  let zeros := (119 - msg.length % 64) % 64
  msg ++ [0x80] ++ List.replicate zeros 0 ++ bigEndian 8 (8 * msg.length)

def toWords : List UInt8 → List UInt32
  | a :: b :: c :: d :: tl =>
    ((a.toUInt32 <<< 24) ||| (b.toUInt32 <<< 16) ||| (c.toUInt32 <<< 8) ||| d.toUInt32) ::
      toWords tl
  | _ => []

def compressAll : (n : Nat) → State → List UInt32 → State
  | 0, state, _ => state
  | n + 1, state, words => compressAll n (compress state (words.take 16)) (words.drop 16)

def sha256 (msg : List UInt8) : List UInt8 :=
  let words := toWords (pad msg)
  (compressAll (words.length / 16) State.start words).words.flatMap fun w =>
    bigEndian 4 w.toNat

end SourceAudit.Hash
