/-
  SipHash-1-3 with the zero key, the hash behind the standard library's `DefaultHasher`.
-/
import Mathlib

namespace SipHash

structure State where
  v0 : UInt64
  v1 : UInt64
  v2 : UInt64
  v3 : UInt64

def rotl (x : UInt64) (n : UInt64) : UInt64 := (x <<< n) ||| (x >>> (64 - n))

def init : State where
  v0 := 0x736f6d6570736575
  v1 := 0x646f72616e646f6d
  v2 := 0x6c7967656e657261
  v3 := 0x7465646279746573

def round (s : State) : State :=
  let v0 := s.v0 + s.v1
  let v2 := s.v2 + s.v3
  let v1 := rotl s.v1 13 ^^^ v0
  let v3 := rotl s.v3 16 ^^^ v2
  let v0 := rotl v0 32
  let v2 := v2 + v1
  let v0 := v0 + v3
  let v1 := rotl v1 17 ^^^ v2
  let v3 := rotl v3 21 ^^^ v0
  let v2 := rotl v2 32
  ⟨v0, v1, v2, v3⟩

/-- One compression round for the eight-byte block `m`. -/
def block (s : State) (m : UInt64) : State :=
  let s := round { s with v3 := s.v3 ^^^ m }
  { s with v0 := s.v0 ^^^ m }

/-- The number written by `bytes`, least significant byte first. -/
def ofLeBytes (bytes : List UInt8) : ℕ := bytes.foldr (fun b n => b.toNat + 256 * n) 0

/-- The `n` lowest bytes of `x`, least significant first. -/
def leBytes (n x : ℕ) : List UInt8 := (List.range n).map fun i => UInt8.ofNat (x / 256 ^ i)

/-- The whole blocks of the input, then its tail with the length in the top byte. -/
def blocks : ℕ → List UInt8 → List UInt64
  | len, b0 :: b1 :: b2 :: b3 :: b4 :: b5 :: b6 :: b7 :: bytes =>
    UInt64.ofNat (ofLeBytes [b0, b1, b2, b3, b4, b5, b6, b7]) :: blocks len bytes
  | len, tail => [UInt64.ofNat (ofLeBytes tail + len % 256 * 2 ^ 56)]

def hash (bytes : List UInt8) : ℕ :=
  let s := (blocks bytes.length bytes).foldl block init
  let s := round (round (round { s with v2 := s.v2 ^^^ 0xff }))
  (s.v0 ^^^ s.v1 ^^^ s.v2 ^^^ s.v3).toNat

end SipHash
