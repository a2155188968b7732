import Attestor.Chain.Block
import Attestor.Crypto.Sha256
import Attestor.Text.Base64
import Attestor.Text.Hex

/-!
Accounts and transactions. What is signed is the text of the unsigned transaction, which is determined by
the transaction: fields in a fixed order and the message in canonical form. The hash of a transaction is the
digest of the text of its signed form.
-/

namespace Attestor.Chain

open Json (record required optional)

/-- An account as the chain knows it, with the sequence number that it expects next. -/
structure Account where
  address : String
  accountNumber : UInt64
  sequence : UInt64
  deriving DecidableEq, Repr

instance : Wire Account where
  toJson a := .obj [("address", .str a.address), ("account_number", Wire.toJson a.accountNumber),
    ("sequence", Wire.toJson a.sequence)]
  decode depth t := do
    let (d, [address, number, sequence]) ←
      record ["address", "account_number", "sequence"] depth t | none
    return {
      address := ← required d address
      accountNumber := ← required d number
      sequence := ← required d sequence }

/-- When a broadcast returns: once the node has checked the transaction, or once it has taken it. -/
inductive BroadcastMode where
  | sync
  | async
  deriving DecidableEq, Repr

namespace BroadcastMode

def name : BroadcastMode → String
  | .sync => "sync"
  | .async => "async"

def ofName? (s : String) : Option BroadcastMode :=
  if s = "sync" then some .sync else if s = "async" then some .async else none

@[simp] theorem ofName?_name (m : BroadcastMode) : ofName? m.name = some m := by
  cases m <;> decide

end BroadcastMode

instance : Wire BroadcastMode where
  toJson m := .str m.name
  decode := Json.decodeName BroadcastMode.ofName?

/-- An amount of one denomination; the amount is written in decimal. -/
structure Coin where
  denom : String
  amount : String
  deriving DecidableEq, Repr

instance : Wire Coin where
  toJson c := .obj [("denom", .str c.denom), ("amount", .str c.amount)]
  decode depth t := do
    let (d, [denom, amount]) ← record ["denom", "amount"] depth t | none
    return { denom := ← required d denom, amount := ← required d amount }

/-- What a transaction pays, and how much work it may cause. -/
structure Fee where
  amount : List Coin
  gasLimit : UInt64
  deriving DecidableEq, Repr

instance : Wire Fee where
  toJson f := .obj [("amount", Wire.toJson f.amount), ("gas_limit", Wire.toJson f.gasLimit)]
  decode depth t := do
    let (d, [amount, gasLimit]) ← record ["amount", "gas_limit"] depth t | none
    return { amount := ← required d amount, gasLimit := ← required d gasLimit }

/-- A transaction that executes a contract, before it is signed. -/
structure Transaction where
  chainId : String
  accountNumber : UInt64
  sequence : UInt64
  sender : String
  contract : String
  msg : Document
  fee : Fee
  memo : String

instance : Wire Transaction where
  toJson t := .obj [("chain_id", .str t.chainId), ("account_number", Wire.toJson t.accountNumber),
    ("sequence", Wire.toJson t.sequence), ("sender", .str t.sender), ("contract", .str t.contract),
    ("msg", Wire.toJson t.msg), ("fee", Wire.toJson t.fee), ("memo", .str t.memo)]
  decode depth t := do
    let (d, [chainId, number, sequence, sender, contract, msg, fee, memo]) ←
      record ["chain_id", "account_number", "sequence", "sender", "contract", "msg", "fee", "memo"]
        depth t | none
    return {
      chainId := ← required d chainId
      accountNumber := ← required d number
      sequence := ← required d sequence
      sender := ← required d sender
      contract := ← required d contract
      msg := ← required d msg
      fee := ← required d fee
      memo := ← required d memo }

/-- The bytes that a signature covers. -/
def Transaction.signBytes (t : Transaction) : List UInt8 :=
  (Wire.toText t).toUTF8.data.toList

/-- A transaction with the key and the signature of its sender. -/
structure SignedTransaction where
  body : Transaction
  publicKey : List UInt8
  signature : List UInt8

/-- Bytes are read from base64 with or without padding. -/
def decodeBytes (depth : Nat) (field : Option Json.Read) : Option (List UInt8) := do
  let text : String ← required depth field
  Text.Base64.decode .optional text.toList

/-- Bytes are written in base64 with padding. -/
def encodeBytes (bytes : List UInt8) : Json :=
  .str (String.ofList (Text.Base64.encode bytes))

instance : Wire SignedTransaction where
  toJson t := .obj [("body", Wire.toJson t.body), ("public_key", encodeBytes t.publicKey),
    ("signature", encodeBytes t.signature)]
  decode depth t := do
    let (d, [body, publicKey, signature]) ← record ["body", "public_key", "signature"] depth t | none
    return {
      body := ← required d body
      publicKey := ← decodeBytes d publicKey
      signature := ← decodeBytes d signature }

/-- The digest of the signed transaction's text, in upper-case digits. -/
def SignedTransaction.hash (t : SignedTransaction) : String :=
  Text.Hex.encodeUpper (Crypto.Sha256.hash (Wire.toText t).toUTF8.data.toList)

/-- What the chain answers to a broadcast. -/
structure Receipt where
  txHash : String
  code : UInt32
  rawLog : String
  height : Option Height
  deriving DecidableEq, Repr

/-- Code zero means that the transaction was accepted. -/
def Receipt.accepted (r : Receipt) : Bool :=
  r.code == 0

instance : Wire Receipt where
  toJson r := .obj [("tx_hash", .str r.txHash), ("code", Wire.toJson r.code),
    ("raw_log", .str r.rawLog), ("height", Wire.toJson r.height)]
  decode depth t := do
    let (d, [hash, code, log, height]) ← record ["tx_hash", "code", "raw_log", "height"] depth t | none
    return {
      txHash := ← required d hash
      code := ← required d code
      rawLog := ← required d log
      height := ← optional d height }

end Attestor.Chain
