import MBootCore.Domain.Types

/-!
# Dsp — PackageDigest

`sha256String` of `dsp/DSPBuilder.cpp`. The bytes of the padding are counted in
the length that is hashed at the end, so the digests are not those of SHA-256.
-/

namespace MBootCore.PackageDigest

/-- The words `h[0]` to `h[7]`. -/
structure Registers where
  a : UInt32
  b : UInt32
  c : UInt32
  d : UInt32
  e : UInt32
  f : UInt32
  g : UInt32
  hh : UInt32
  deriving DecidableEq, Repr

def start : Registers where
  a := 0x6A09E667
  b := 0xBB67AE85
  c := 0x3C6EF372
  d := 0xA54FF53A
  e := 0x510E527F
  f := 0x9B05688C
  g := 0x1F83D9AB
  hh := 0x5BE0CD19

def k : List UInt32 := [
  0x428A2F98, 0x71374491, 0xB5C0FBCF, 0xE9B5DBA5, 0x3956C25B, 0x59F111F1, 0x923F82A4, 0xAB1C5ED5,
  0xD807AA98, 0x12835B01, 0x243185BE, 0x550C7DC3, 0x72BE5D74, 0x80DEB1FE, 0x9BDC06A7, 0xC19BF174,
  0xE49B69C1, 0xEFBE4786, 0x0FC19DC6, 0x240CA1CC, 0x2DE92C6F, 0x4A7484AA, 0x5CB0A9DC, 0x76F988DA,
  0x983E5152, 0xA831C66D, 0xB00327C8, 0xBF597FC7, 0xC6E00BF3, 0xD5A79147, 0x06CA6351, 0x14292967,
  0x27B70A85, 0x2E1B2138, 0x4D2C6DFC, 0x53380D13, 0x650A7354, 0x766A0ABB, 0x81C2C92E, 0x92722C85,
  0xA2BFE8A1, 0xA81A664B, 0xC24B8B70, 0xC76C51A3, 0xD192E819, 0xD6990624, 0xF40E3585, 0x106AA070,
  0x19A4C116, 0x1E376C08, 0x2748774C, 0x34B0BCB5, 0x391C0CB3, 0x4ED8AA4A, 0x5B9CCA4F, 0x682E6FF3,
  0x748F82EE, 0x78A5636F, 0x84C87814, 0x8CC70208, 0x90BEFFFA, 0xA4506CEB, 0xBEF9A3F7, 0xC67178F2]

def rr (x n : UInt32) : UInt32 := (x >>> n) ||| (x <<< (32 - n))

/-- The first sixteen words of a block. -/
def words (block : ByteBuffer) : List UInt32 :=
  (List.range 16).map fun t =>
    ((block.getD (t * 4) 0).toUInt32 <<< 24) ||| ((block.getD (t * 4 + 1) 0).toUInt32 <<< 16) |||
      ((block.getD (t * 4 + 2) 0).toUInt32 <<< 8) ||| (block.getD (t * 4 + 3) 0).toUInt32

def extend (w : List UInt32) (t : Nat) : List UInt32 :=
  let w15 := w.getD (t - 15) 0
  let w2 := w.getD (t - 2) 0
  let s0 := rr w15 7 ^^^ rr w15 18 ^^^ (w15 >>> 3)
  let s1 := rr w2 17 ^^^ rr w2 19 ^^^ (w2 >>> 10)
  w ++ [w.getD (t - 16) 0 + s0 + w.getD (t - 7) 0 + s1]

def schedule (block : ByteBuffer) : List UInt32 := (List.range' 16 48).foldl extend (words block)

def round (r : Registers) (kw : UInt32 × UInt32) : Registers :=
  let s1 := rr r.e 6 ^^^ rr r.e 11 ^^^ rr r.e 25
  let ch := (r.e &&& r.f) ^^^ (~~~r.e &&& r.g)
  let temp1 := r.hh + s1 + ch + kw.1 + kw.2
  let s0 := rr r.a 2 ^^^ rr r.a 13 ^^^ rr r.a 22
  let maj := (r.a &&& r.b) ^^^ (r.a &&& r.c) ^^^ (r.b &&& r.c)
  let temp2 := s0 + maj
  { a := temp1 + temp2, b := r.a, c := r.b, d := r.c
    e := r.d + temp1, f := r.e, g := r.f, hh := r.g }

def compress (h : Registers) (block : ByteBuffer) : Registers :=
  let r := (k.zip (schedule block)).foldl round h
  { a := h.a + r.a, b := h.b + r.b, c := h.c + r.c, d := h.d + r.d
    e := h.e + r.e, f := h.f + r.f, g := h.g + r.g, hh := h.hh + r.hh }

structure State where
  h : Registers := start
  buf : ByteBuffer := []
  bitLen : UInt64 := 0

def process (s : State) (byte : UInt8) : State :=
  let buf := s.buf ++ [byte]
  let s := { s with bitLen := s.bitLen + 8 }
  if buf.length = 64 then { s with h := compress s.h buf, buf := [] } else { s with buf }

/-- `while (bufLen != 56) process(0)`, which takes less than 64 rounds. -/
def padZeros : Nat → State → State
  | 0, s => s
  | fuel + 1, s => if s.buf.length = 56 then s else padZeros fuel (process s 0)

/-- The byte of the length is read when it is its turn. -/
def processLength (s : State) (i : Nat) : State :=
  process s (s.bitLen >>> (i.toUInt64 * 8)).toUInt8

/-- Eight digits, filled up with zeros in front. -/
def hexWord (x : UInt32) : List Char :=
  List.replicate (8 - (Nat.toDigits 16 x.toNat).length) '0' ++ Nat.toDigits 16 x.toNat

def hex (h : Registers) : List Char :=
  [h.a, h.b, h.c, h.d, h.e, h.f, h.g, h.hh].flatMap hexWord

def sha256String (data : ByteBuffer) : String :=
  let s := data.foldl process {}
  let s := padZeros 64 (process s 0x80)
  let s := [7, 6, 5, 4, 3, 2, 1, 0].foldl processLength s
  String.ofList (hex s.h)

end MBootCore.PackageDigest
