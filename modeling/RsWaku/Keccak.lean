import Mathlib.Algebra.Group.Nat.Defs
import Mathlib.Tactic.Common

/-! Keccak-256 on byte lists, with the padding of the original submission, executable by the
kernel: the state is one number whose base 2^64 digits are the lanes, the lane at (x, y) being
digit x + 5 * y. -/
namespace RsWaku.Keccak

def rotl (n x : Nat) : Nat := (x <<< n ||| x >>> (64 - n)) % 2 ^ 64

def roundConstants : List Nat := [
  0x0000000000000001, 0x0000000000008082, 0x800000000000808a, 0x8000000080008000,
  0x000000000000808b, 0x0000000080000001, 0x8000000080008081, 0x8000000000008009,
  0x000000000000008a, 0x0000000000000088, 0x0000000080008009, 0x000000008000000a,
  0x000000008000808b, 0x800000000000008b, 0x8000000000008089, 0x8000000000008003,
  0x8000000000008002, 0x8000000000000080, 0x000000000000800a, 0x800000008000000a,
  0x8000000080008081, 0x8000000000008080, 0x0000000080000001, 0x8000000080008008]

def offsets : List Nat :=
  [0, 1, 62, 28, 27, 36, 44, 6, 55, 20, 3, 10, 43, 25, 39, 41, 45, 15, 21, 8, 18, 2, 61, 56, 14]

def lane (a i : Nat) : Nat := a >>> (64 * i) % 2 ^ 64

def ofLanes (n : Nat) (lanes : Nat → Nat) : Nat :=
  (List.range n).foldl (fun acc i => acc + lanes i <<< (64 * i)) 0

def planes (p : Nat) : Nat := p * (1 + 2 ^ 320 + 2 ^ 640 + 2 ^ 960 + 2 ^ 1280)

def theta (a : Nat) : Nat :=
  let column := (a ^^^ a >>> 320 ^^^ a >>> 640 ^^^ a >>> 960 ^^^ a >>> 1280) % 2 ^ 320
  a ^^^ planes (ofLanes 5 fun x =>
    lane column ((x + 4) % 5) ^^^ rotl 1 (lane column ((x + 1) % 5)))

/-- The steps rho and pi: the lane that moves to (x, y) comes from (x + 3 * y, x). -/
def rhoPi (a : Nat) : Nat :=
  ofLanes 25 fun i =>
    let source := (i % 5 + 3 * (i / 5)) % 5 + 5 * (i % 5)
    rotl (offsets.getD source 0) (lane a source)

def shiftRows (n a : Nat) : Nat :=
  (a >>> (64 * n) &&& planes (2 ^ (320 - 64 * n) - 1)) |||
    (a &&& planes (2 ^ (64 * n) - 1)) <<< (320 - 64 * n)

def chi (a : Nat) : Nat := a ^^^ ((2 ^ 1600 - 1 - shiftRows 1 a) &&& shiftRows 2 a)

def round (a constant : Nat) : Nat := chi (rhoPi (theta a)) ^^^ constant

def permute (a : Nat) : Nat := roundConstants.foldl round a

def littleEndian (n x : Nat) : List UInt8 :=
  (List.range n).map fun i => UInt8.ofNat (x / 256 ^ i)

def ofBytes (bytes : List UInt8) : Nat := bytes.foldr (fun b acc => b.toNat + 256 * acc) 0

def chunks (size : Nat) : Nat → List UInt8 → List (List UInt8)
  | 0, _ => []
  | k+1, l => l.take size :: chunks size k (l.drop size)

def rate : Nat := 136

/-- One set bit after the message and one at the end of the last block. -/
def pad (message : List UInt8) : List UInt8 :=
  let missing := rate - message.length % rate
  message ++ if missing = 1 then [0x81] else 0x01 :: List.replicate (missing - 2) 0 ++ [0x80]

def absorb (a : Nat) (block : List UInt8) : Nat := permute (a ^^^ ofBytes block)

def digest (message : List UInt8) : List UInt8 :=
  littleEndian 32
    ((chunks rate ((pad message).length / rate) (pad message)).foldl absorb 0)

theorem digest_length (message : List UInt8) : (digest message).length = 32 := rfl

example : digest [] =
    [0xc5, 0xd2, 0x46, 0x01, 0x86, 0xf7, 0x23, 0x3c, 0x92, 0x7e, 0x7d, 0xb2, 0xdc, 0xc7, 0x03, 0xc0,
      0xe5, 0x00, 0xb6, 0x53, 0xca, 0x82, 0x27, 0x3b, 0x7b, 0xfa, 0xd8, 0x04, 0x5d, 0x85, 0xa4,
      0x70] := by
  decide +kernel

end RsWaku.Keccak
