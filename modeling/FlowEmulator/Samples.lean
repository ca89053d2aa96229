import FlowEmulator.Blockchain

/-!
An encoding, a machine and block contents that can be written down: the
parameters of the stores and of the emulator are met, and results about them can
be used at concrete blocks.
-/
namespace FlowEmulator
open FlowEmulator.Text

/-- The encoding of a countable type by the digits of its number. -/
def Codec.ofEncodable (α : Type) [Encodable α] : Codec α where
  encode a := decimal (Encodable.encode a)
  decode bytes := Encodable.decode (decimalValue bytes)
  decode_encode a := by rw [decimalValue_decimal,Encodable.encodek]

namespace Samples

/-- The identifier with the given number as its bytes. -/
def digest (n : Nat) : Identifier := ⟨List.ofFn (fun i : Fin 32 => (n / 256^(i : Nat)).toUInt8),by simp⟩

def encoding : Encoding where
  blockID b := digest (b.height + 256 * b.view)
  collectionID c := digest (Encodable.encode c)
  transactionID tx := digest (Encodable.encode tx)
  registerText r := decimal (Encodable.encode (r.owner,r.key))
  registerText_injective := by
    intro r r' same
    have parts := Encodable.encode_injective (decimal_injective same)
    cases r; cases r'
    simp only [Prod.mk.injEq] at parts
    rw [parts.1,parts.2]
  uint64 := .ofEncodable Nat
  block := .ofEncodable Block
  collection := .ofEncodable LightCollection
  transaction := .ofEncodable TransactionBody
  transactionResult := .ofEncodable StorableTransactionResult
  events := .ofEncodable (List Event)
  systemTransactions := .ofEncodable SystemTransactions

def block (height : Nat) : Block := ⟨.emulator,height,height,zeroID,1,[],[],[]⟩

/-- The contents of a block without transactions. -/
def emptyContents (height : Nat) : BlockContents := ⟨block height,[],∅,∅,[],∅,∅,∅,[],∅⟩

def result (height : Nat) : StorableTransactionResult := ⟨0,"",[],[],digest height,height,zeroID⟩

/-- The contents of a block with one system transaction. -/
def systemContents (height : Nat) : BlockContents :=
  { emptyContents height with
    systemTransactions := [zeroID]
    systemTransactionResults := AList.singleton zeroID (result height) }

def transaction : TransactionBody := ⟨zeroID,[],[],0,⟨0,0,0⟩,0,[],[],[]⟩

/-- A machine on which every transaction succeeds and does nothing. -/
def machine : Machine where
  run _ _ _ _ := .ok (∅,⟨[],[],0,0,none⟩)
  mergeable _ _ := true
  convertible _ := true
  bootstrap _ _ := .ok (∅,[])
  genesisTime := 1
  processCallbacksTransaction _ := .ok transaction
  executeCallbacksTransactions _ _ := .ok []
  pendingExecutionEventType _ := "pending"
  callbackID _ := .ok 0
  systemChunkTransaction _ := .ok transaction
  validate _ _ _ := .ok ()

def config : Config := ⟨.emulator,false,false⟩

/-- The first millisecond. -/
def time : Time := ⟨1000000,by decide⟩

def tick : Tick := ⟨⟨0,by decide⟩,time⟩

/-- The encoding under which blocks have the same identifier exactly when they have the same height. -/
def heightEncoding : Encoding := { encoding with blockID := fun b => digest b.height }

/-- On the machine that always succeeds an empty pending block can be sealed. -/
theorem sealBlock_ok {σ : Type} (E : Encoding) (B : Backend σ) {b : Blockchain σ} (empty : b.pendingBlock.transactions = ∅)
    (results : b.pendingBlock.transactionResults = ∅) (opened : b.pendingBlock.finalized = false) :
    ∃ c middle, Blockchain.sealBlock E machine config B b = (.ok c,middle) ∧ c.Counted ∧ middle.storage = b.storage ∧
      c.block = b.pendingBlock.block E := by
  obtain ⟨storage,⟨height,view,parentID,timestamp,transactions,ids,_,ledgerHeight,ledger,_,events,index⟩,entropy,autoMine⟩ := b
  cases opened
  refine ⟨_,_,rfl,⟨?_,rfl⟩,rfl,rfl⟩
  rw [empty,results]
  rfl

/-- A transaction that is told apart by its number. -/
def numbered (n : Nat) : TransactionBody := { transaction with gasLimit := n }

/-- The encoding under which transactions have the same identifier exactly when
    they have the same number, and collections when they have the same length. -/
def numberEncoding : Encoding :=
  { heightEncoding with
    transactionID := fun tx => digest tx.gasLimit
    collectionID := fun c => digest c.transactions.length }

/-- A machine on which the process transaction asks for one callback. -/
def scheduler : Machine :=
  { machine with
    run := fun _ tx index _ => .ok (∅,⟨[],if tx.gasLimit = 1 then [⟨"pending",digest 1,index,0,[]⟩] else [],0,0,none⟩)
    processCallbacksTransaction := fun _ => .ok (numbered 1)
    executeCallbacksTransactions := fun _ events =>
      .ok ((events.filter fun event => event.type = "pending").map fun _ => numbered 2)
    callbackID := fun _ => .ok 7
    systemChunkTransaction := fun _ => .ok (numbered 3) }

def scheduledConfig : Config := ⟨.emulator,false,true⟩

end Samples
end FlowEmulator
