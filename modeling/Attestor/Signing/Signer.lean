import Attestor.Crypto.Ecdsa
import Attestor.Text.Blank
import Attestor.Text.Hex
import Attestor.Text.Quoted

/-!
Signers: an address, a public key, and signatures. One kind of signer holds a private key, which it reads
from hexadecimal text.
-/

namespace Attestor.Signing

/-- Why nothing could be signed. -/
inductive Failure where
  /-- The key cannot be used. -/
  | invalidKey (reason : String)
  /-- Making the signature failed. -/
  | failed (reason : String)
  deriving DecidableEq, Repr

/-- The failure in words. -/
def Failure.message : Failure → String
  | .invalidKey reason => s!"Invalid signing key: {reason}"
  | .failed reason => s!"Signing failed: {reason}"

/-- What signs the transactions of an account. -/
structure Signer where
  /-- The account's address. -/
  address : String
  publicKey : List UInt8
  sign : List UInt8 → Except Failure (List UInt8)

namespace Signer

/-- An event that names this address is meant for this signer. -/
def isAddressedBy (s : Signer) (address : String) : Bool :=
  s.address == address

/-- A signer that has one answer to everything. -/
def fixed (address : String) (publicKey : List UInt8) (answer : Except Failure (List UInt8)) : Signer :=
  ⟨address, publicKey, fun _ => answer⟩

/-- Signs with a private key. -/
def ofKey (address : String) (key : Crypto.Ecdsa.Key) : Signer where
  address
  publicKey := key.publicKey
  sign message :=
    match Crypto.Ecdsa.sign key message with
    | some signature => .ok signature
    | none => .error (.failed "signature error")

/-- Drops every `0x` at the front. -/
def dropMarks : List Char → List Char
  | '0' :: 'x' :: rest => dropMarks rest
  | cs => cs

/-- What is said of a text that is not hexadecimal. A bad byte is shown as the character with its
value. -/
def badHex : Text.Hex.Error → String
  | .oddLength => "Odd number of digits"
  | .badByte byte position =>
    let shown := Text.Quoted.char (Char.ofNat byte.toNat)
    s!"Invalid character {shown} at position {position}"

/-- Reads a private key in hexadecimal. Blanks around it and marks before it do not count. -/
def ofHex (address text : String) : Except Failure Signer := do
  let digits := String.ofList (dropMarks (Text.trimChars text.toList))
  match Text.Hex.decode digits.toUTF8.data.toList with
  | .error e => throw (.invalidKey (badHex e))
  | .ok bytes =>
    match Crypto.Ecdsa.Key.ofBytes? bytes with
    | none => throw (.invalidKey "signature error")
    | some key => return ofKey address key

/-- A signer with a key as logs show it: without the key. -/
def keyDebug (s : Signer) : String :=
  let shown := Text.Quoted.string s.address
  s!"Secp256k1Signer \x7b address: {shown}, .. \x7d"

/-- The identity of a signer as logs show it. -/
def identityDebug (s : Signer) : String :=
  let shown := Text.Quoted.string s.address
  s!"VerifierIdentity \x7b address: {shown} \x7d"

end Signer

end Attestor.Signing
