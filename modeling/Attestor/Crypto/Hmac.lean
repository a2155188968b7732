import Attestor.Crypto.Sha256

/-!
Keyed digests: HMAC with SHA-256.
-/

namespace Attestor.Crypto

/-- A key as one block of 64 bytes: longer keys are hashed first. -/
def Hmac.keyBlock (key : List UInt8) : List UInt8 :=
  let short := if key.length > 64 then Sha256.hash key else key
  short ++ List.replicate (64 - short.length) 0

/-- The digest of a message under a key, 32 bytes. -/
def hmac (key message : List UInt8) : List UInt8 :=
  let block := Hmac.keyBlock key
  let inner := Sha256.hash (block.map (· ^^^ 0x36) ++ message)
  Sha256.hash (block.map (· ^^^ 0x5c) ++ inner)

end Attestor.Crypto
