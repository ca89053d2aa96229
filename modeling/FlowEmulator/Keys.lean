import FlowEmulator.Types

/-!
The keys of the key-value stores, as the default key generator prints them. Each
kind of key determines what it was printed from, and the two kinds of keys that
live in the table of transaction results never meet.
-/
namespace FlowEmulator.Keys
open FlowEmulator.Text

/-- The stores that records are kept in. -/
inductive StoreName where
  | global
  | blockIndex
  | blocks
  | systemTransactions
  | collections
  | transactions
  | transactionResults
  | events
  | ledger
  | scheduledTransactionIndex
  | scheduledTransactionBlockIndex
deriving DecidableEq

/-- The name of a store. -/
def StoreName.text : StoreName → Bytes
  | .global => ascii "global"
  | .blockIndex => ascii "blockIndex"
  | .blocks => ascii "blocks"
  | .systemTransactions => ascii "systemTransactions"
  | .collections => ascii "collections"
  | .transactions => ascii "transactions"
  | .transactionResults => ascii "transactionResults"
  | .events => ascii "events"
  | .ledger => ascii "ledger"
  | .scheduledTransactionIndex => ascii "scheduledTransactionIndex"
  | .scheduledTransactionBlockIndex => ascii "scheduledTransactionBlockIndex"

/-- The store with a name. -/
def StoreName.ofText (text : Bytes) : Option StoreName :=
  [.global,.blockIndex,.blocks,.systemTransactions,.collections,.transactions,.transactionResults,.events,.ledger,
    .scheduledTransactionIndex,.scheduledTransactionBlockIndex].find? fun name => name.text == text

theorem StoreName.text_injective : Function.Injective StoreName.text := by
  have named (name : StoreName) : StoreName.ofText name.text = some name := by cases name <;> rfl
  intro name other same
  rw [← Option.some_inj,← named name,← named other,same]

def latestBlock : Bytes := ascii "latest_block_height"
def forkedBlock : Bytes := ascii "forked_block_height"
def blockHeight (height : Nat) : Bytes := paddedDecimal 32 height
def identifier (id : Identifier) : Bytes := hexEncode id.bytes
def scheduledTransactionID (scheduledTxID : Nat) : Bytes := ascii "scheduled_tx_" ++ decimal scheduledTxID
def systemTransactionResult (blockID txID : Identifier) : Bytes :=
  ascii "system_tx_result_" ++ hexEncode blockID.bytes ++ ascii "_" ++ hexEncode txID.bytes

theorem blockHeight_injective : Function.Injective blockHeight := paddedDecimal_injective 32

theorem identifier_injective : Function.Injective identifier :=
  fun _ _ same => Identifier.ext_bytes (hexEncode_injective same)

theorem scheduledTransactionID_injective : Function.Injective scheduledTransactionID :=
  fun _ _ same => decimal_injective (List.append_cancel_left same)

theorem systemTransactionResult_injective {blockID txID blockID' txID' : Identifier}
    (same : systemTransactionResult blockID txID = systemTransactionResult blockID' txID') :
    blockID = blockID' ∧ txID = txID' := by
  unfold systemTransactionResult at same
  rw [List.append_assoc,List.append_assoc,List.append_assoc,List.append_assoc] at same
  have tails := List.append_cancel_left same
  have lengths : (hexEncode blockID.bytes).length = (hexEncode blockID'.bytes).length := by
    rw [hexEncode_length,hexEncode_length,blockID.size,blockID'.size]
  obtain ⟨blocks,rest⟩ := List.append_inj tails lengths
  exact ⟨Identifier.ext_bytes (hexEncode_injective blocks),
    Identifier.ext_bytes (hexEncode_injective (List.append_cancel_left rest))⟩

/-- The key of a system result starts with a letter that no hexadecimal text has. -/
theorem identifier_ne_systemTransactionResult (id blockID txID : Identifier) :
    identifier id ≠ systemTransactionResult blockID txID := by
  intro same
  have first : (115 : UInt8) ∈ systemTransactionResult blockID txID := by
    unfold systemTransactionResult
    refine List.mem_append_left _ (List.mem_append_left _ (List.mem_append_left _ ?_))
    decide
  rw [← same] at first
  have digit := hexEncode_digits first
  revert digit
  decide

end FlowEmulator.Keys
