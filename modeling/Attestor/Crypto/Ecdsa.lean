import Attestor.Crypto.Hmac
import Attestor.Crypto.Secp256k1

/-!
ECDSA signatures over secp256k1 and SHA-256. The nonce comes from the key and the digest alone, by the
generator of RFC 6979, so a message has one signature under a key. Of the two values of s that verify,
the one in the lower half of the group is taken.
-/

namespace Attestor.Crypto.Ecdsa

open Secp256k1 (order)

/-- The number that bytes denote, the most significant first. -/
def ofBytes (bytes : List UInt8) : Nat :=
  bytes.foldl (fun n b => 256 * n + b.toNat) 0

/-- A number below 2²⁵⁶ as 32 bytes. -/
def toBytes (n : Nat) : List UInt8 :=
  Sha256.bigEndian 32 n

/-- A private key: a number of the group other than zero. -/
structure Key where
  scalar : Nat
  positive : 0 < scalar
  inGroup : scalar < order

namespace Key

/-- The key of 24 to 32 bytes, if their number is in the group. -/
def ofBytes? (bytes : List UInt8) : Option Key :=
  if 24 ≤ bytes.length ∧ bytes.length ≤ 32 then
    if h : 0 < ofBytes bytes ∧ ofBytes bytes < order then some ⟨ofBytes bytes, h.1, h.2⟩ else none
  else none

/-- The public key: the parity of y, and x. -/
def publicKey (key : Key) : List UInt8 :=
  let (x, y) := Secp256k1.coordinates (Secp256k1.multiple key.scalar Secp256k1.base)
  (if y % 2 = 0 then 2 else 3) :: toBytes x

end Key

/-- The state of the nonce generator. -/
structure Generator where
  k : List UInt8
  v : List UInt8

namespace Generator

/-- Mixes a separator and data into the state. -/
def mix (g : Generator) (separator : UInt8) (data : List UInt8) : Generator :=
  let k := hmac g.k (g.v ++ separator :: data)
  ⟨k, hmac k g.v⟩

/-- The generator of a key and a digest, both as 32 bytes. -/
def seed (key digest : List UInt8) : Generator :=
  let start : Generator := ⟨List.replicate 32 0, List.replicate 32 1⟩
  (start.mix 0 (key ++ digest)).mix 1 (key ++ digest)

/-- The first candidate in the group, among at most `tries`. -/
def next (g : Generator) : (tries : Nat) → Option Nat
  | 0 => none
  | tries + 1 =>
    let v := hmac g.k g.v
    let n := ofBytes v
    if 0 < n ∧ n < order then some n else (Generator.mk g.k v |>.mix 0 []).next tries

end Generator

/-- A signature: r and s, 32 bytes each. It fails only where r or s is zero or where none of 64
candidates is a nonce, which no known message does. -/
def sign (key : Key) (message : List UInt8) : Option (List UInt8) := do
  let z := ofBytes (Sha256.hash message) % order
  let nonce ← (Generator.seed (toBytes key.scalar) (toBytes z)).next 64
  let (x, _) := Secp256k1.coordinates (Secp256k1.multiple nonce Secp256k1.base)
  let r := x % order
  let s := Secp256k1.invMod nonce order * (z + r * key.scalar) % order
  if r = 0 ∨ s = 0 then none
  else some (toBytes r ++ toBytes (if s > order / 2 then order - s else s))

end Attestor.Crypto.Ecdsa
