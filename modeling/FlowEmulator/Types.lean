import FlowEmulator.Text
import Mathlib.Data.List.AList
import Mathlib.Logic.Encodable.Basic
import Mathlib.Logic.Equiv.List
import Mathlib.Tactic.DeriveEncodable

/-!
The data the emulator stores and passes around: identifiers, blocks,
collections, transaction bodies and results, events and registers. Hashing, the
text of a register and the binary encoding of a record belong to libraries; an
`Encoding` collects them with the one law the stores rely on, that decoding
takes back what was encoded.
-/
namespace FlowEmulator
open FlowEmulator.Text (Bytes)

instance encodableChar : Encodable Char := Encodable.ofLeftInjection Char.toNat (fun n => some (Char.ofNat n)) (fun c => by simp)
instance encodableUInt8 : Encodable UInt8 := Encodable.ofLeftInjection UInt8.toNat (fun n => some n.toUInt8) (fun b => by simp)
instance encodableString : Encodable String :=
  Encodable.ofLeftInjection String.toList (fun text => some (String.ofList text)) (fun text => by simp)

/-- A hash of 32 bytes. -/
structure Identifier where
  bytes : Bytes
  size : bytes.length = 32
deriving DecidableEq

namespace Identifier

theorem ext_bytes {left right : Identifier} (same : left.bytes = right.bytes) : left = right := by
  cases left; cases right; cases same; rfl

/-- The identifier with the given bytes, when there are 32 of them. -/
def ofBytes (bytes : Bytes) : Option Identifier :=
  if size : bytes.length = 32 then some ⟨bytes,size⟩ else none

theorem ofBytes_bytes (id : Identifier) : ofBytes id.bytes = some id := dif_pos id.size

instance : Encodable Identifier := Encodable.ofLeftInjection Identifier.bytes ofBytes ofBytes_bytes

end Identifier

def zeroID : Identifier := ⟨List.replicate 32 0,by simp⟩

/-- A map of the source language, with its entries in the order of one iteration over it. -/
abbrev GoMap (K V : Type) := AList (fun _ : K => V)

instance {K V : Type} [DecidableEq K] [Encodable K] [Encodable V] : Encodable (GoMap K V) :=
  Encodable.ofLeftInjection AList.entries
    (fun entries => if distinct : (entries.map Sigma.fst).Nodup then some ⟨entries,distinct⟩ else none)
    (fun map => dif_pos map.nodupKeys)

inductive ChainID where
  | emulator
  | monotonicEmulator
  | network (name : String)
deriving DecidableEq, Encodable

/-- The account address of 8 bytes, as a number. -/
abbrev Address := Nat

structure Event where
  type : String
  transactionID : Identifier
  transactionIndex : Nat
  eventIndex : Nat
  payload : Bytes
deriving DecidableEq, Encodable

/-- A collection as the identifiers of its transactions. -/
structure LightCollection where
  transactions : List Identifier
deriving DecidableEq, Encodable

/-- A block: the header body and the payload. What only a network of nodes fills in
    is kept in its encoding: the parent's view and voters, the proposer and the last
    timeout in the header body (`consensus`), the seals, receipts, results and the
    protocol state in the payload (`sealing`). -/
structure Block where
  chainID : ChainID
  height : Nat
  view : Nat
  parentID : Identifier
  timestamp : Nat
  consensus : Bytes
  guarantees : List Identifier
  sealing : Bytes
deriving DecidableEq, Encodable

structure TransactionSignature where
  address : Address
  keyIndex : Nat
  signature : Bytes
deriving DecidableEq, Encodable

structure ProposalKey where
  address : Address
  keyIndex : Nat
  sequenceNumber : Nat
deriving DecidableEq, Encodable

structure TransactionBody where
  referenceBlockID : Identifier
  script : Bytes
  arguments : List Bytes
  gasLimit : Nat
  proposalKey : ProposalKey
  payer : Address
  authorizers : List Address
  payloadSignatures : List TransactionSignature
  envelopeSignatures : List TransactionSignature
deriving DecidableEq, Encodable

structure StorableTransactionResult where
  errorCode : Int
  errorMessage : String
  logs : List String
  events : List Event
  blockID : Identifier
  blockHeight : Nat
  collectionID : Identifier
deriving DecidableEq, Encodable

/-- The system transactions of a block in order, and the scheduled transactions among them. -/
structure SystemTransactions where
  blockID : Identifier
  transactions : List Identifier
  scheduledTransactionIDs : GoMap Nat Identifier
deriving DecidableEq, Encodable

structure RegisterID where
  owner : Bytes
  key : Bytes
deriving DecidableEq

/-- The empty value stands for a register that is absent or deleted. -/
abbrev RegisterValue := Bytes

/-- The registers a computation wrote. -/
abbrev WriteSet := GoMap RegisterID RegisterValue

/-- A binary encoding that loses nothing. -/
structure Codec (α : Type) where
  encode : α → Bytes
  decode : Bytes → Option α
  decode_encode : ∀ a, decode (encode a) = some a

/-- What the stores take from libraries: hashes, the text of a register, and the
    encodings of the records. -/
structure Encoding where
  blockID : Block → Identifier
  collectionID : LightCollection → Identifier
  transactionID : TransactionBody → Identifier
  registerText : RegisterID → Bytes
  registerText_injective : Function.Injective registerText
  uint64 : Codec Nat
  block : Codec Block
  collection : Codec LightCollection
  transaction : Codec TransactionBody
  transactionResult : Codec StorableTransactionResult
  events : Codec (List Event)
  systemTransactions : Codec SystemTransactions

end FlowEmulator
