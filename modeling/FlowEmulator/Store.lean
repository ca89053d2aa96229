import FlowEmulator.Fallible
import FlowEmulator.Types

/-!
The storage interface of the emulator: what a commit receives, the operations a
store offers, and how a finished block is saved through them.
-/
namespace FlowEmulator
open FlowEmulator.Fallible

/-- Why a remote node does not answer: it does not have what it was asked for, or the call failed. -/
inductive NodeError where
  | notFound
  | unavailable
deriving DecidableEq

inductive StoreError where
  | notFound
  | blockNotFoundByHeight (height : Nat)
  | remote (e : NodeError)
  | chainIDMismatch
  | transactionsCount (transactions results : Nat)
  | systemTransactionsCount (transactions results : Nat)
  | invalidBlockIDLength (got : Nat)
  | undecodable
  | highBitSet
  | rollbackHeight
  | snapshotUnsupported
  | snapshotMissing (name : String)
  | backend
deriving DecidableEq

abbrev StoreM (σ : Type) := Fallible StoreError σ

/-- What a lookup returns to the caller. -/
def found {α : Type} : Option α → Except StoreError α
  | some a => .ok a
  | none => .error .notFound

/-- Everything a commit receives. -/
structure BlockContents where
  block : Block
  collections : List LightCollection
  transactions : GoMap Identifier TransactionBody
  transactionResults : GoMap Identifier StorableTransactionResult
  systemTransactions : List Identifier
  systemTransactionBodies : GoMap Identifier TransactionBody
  systemTransactionResults : GoMap Identifier StorableTransactionResult
  executionSnapshot : WriteSet
  events : List Event
  scheduledTransactionIDs : GoMap Nat Identifier

/-- The counts of transactions and of results agree. -/
def BlockContents.Counted (c : BlockContents) : Prop :=
  c.transactions.entries.length = c.transactionResults.entries.length ∧
    c.systemTransactions.length = c.systemTransactionResults.entries.length

instance (c : BlockContents) : Decidable c.Counted := inferInstanceAs (Decidable (_ ∧ _))

/-- Blocks whose heights count up from a first height, each with as many results as transactions. -/
def Chain : Nat → List BlockContents → Prop
  | _, [] => True
  | first, c :: rest => c.block.height = first ∧ c.Counted ∧ Chain (first+1) rest

theorem chain_append {first : Nat} {front back : List BlockContents} :
    Chain first (front ++ back) ↔ Chain first front ∧ Chain (first+front.length) back := by
  induction front generalizing first with
  | nil => simp [Chain]
  | cons c rest ih =>
    have shift : first+1+rest.length = first+(c :: rest).length := by simp; omega
    simp only [List.cons_append,Chain,ih,shift,and_assoc]

/-- The block at an index of a chain. -/
theorem chain_getElem {first : Nat} {cs : List BlockContents} (chain : Chain first cs) {i : Nat} {c : BlockContents}
    (here : cs[i]? = some c) : c.block.height = first+i ∧ c.Counted := by
  induction cs generalizing first i with
  | nil => cases here
  | cons d rest ih =>
    obtain ⟨height,counted,restChain⟩ := chain
    cases i with
    | zero => cases here; exact ⟨height,counted⟩
    | succ i =>
      rw [List.getElem?_cons_succ] at here
      obtain ⟨later,laterCounted⟩ := ih restChain here
      exact ⟨by omega,laterCounted⟩

theorem chain_counted {first : Nat} {cs : List BlockContents} (chain : Chain first cs) : ∀ c ∈ cs, c.Counted := by
  intro c member
  obtain ⟨i,here⟩ := List.mem_iff_getElem?.mp member
  exact (chain_getElem chain here).2

/-- The value a register got at a height, if it was written there. -/
def writesAt (cs : List BlockContents) (r : RegisterID) (height : Nat) : Option RegisterValue :=
  cs[height]?.bind fun c => c.executionSnapshot.lookup r

/-- The operations of a chain store with states `σ`. Operations that only read
    take the state; those that write leave a state also where they fail. -/
structure Store (σ : Type) where
  latestBlockHeight : σ → Except StoreError Nat
  latestBlock : σ → Except StoreError Block
  blockByID : Identifier → σ → Except StoreError Block
  blockByHeight : Nat → σ → Except StoreError Block
  commitBlock : BlockContents → StoreM σ Unit
  systemTransactionsForBlockID : Identifier → σ → Except StoreError SystemTransactions
  indexScheduledTransactionID : Nat → Identifier → StoreM σ Unit
  blockIDByScheduledTransactionID : Nat → σ → Except StoreError Identifier
  indexScheduledTransactionBlockID : Identifier → Identifier → StoreM σ Unit
  scheduledTransactionBlockIDByTxID : Identifier → σ → Except StoreError Identifier
  collectionByID : Identifier → σ → Except StoreError LightCollection
  fullCollectionByID : Identifier → σ → Except StoreError (List TransactionBody)
  transactionByID : Identifier → σ → Except StoreError TransactionBody
  transactionResultByID : Identifier → σ → Except StoreError StorableTransactionResult
  systemTransactionResultByID : Identifier → Identifier → σ → Except StoreError StorableTransactionResult
  ledgerByHeight : Nat → RegisterID → σ → Except StoreError RegisterValue
  eventsByHeight : Nat → String → σ → Except StoreError (List Event)

/-- Save a finished block: commit it, then index its scheduled transactions by
    their number and its system transactions, other than the static ones, by
    their identifier. -/
def Store.saveBlock {σ : Type} (S : Store σ) (E : Encoding) (static : Identifier → Bool) (c : BlockContents) :
    StoreM σ Unit := do
  S.commitBlock c
  c.scheduledTransactionIDs.entries.forM fun entry => S.indexScheduledTransactionID entry.1 (E.blockID c.block)
  c.systemTransactionResults.entries.forM fun entry =>
    if static entry.1 then pure () else S.indexScheduledTransactionBlockID entry.1 (E.blockID c.block)

/-- The reads of a store. -/
inductive Query where
  | latestBlockHeight
  | latestBlock
  | blockByID (id : Identifier)
  | blockByHeight (height : Nat)
  | systemTransactionsForBlockID (blockID : Identifier)
  | blockIDByScheduledTransactionID (scheduledTxID : Nat)
  | scheduledTransactionBlockIDByTxID (txID : Identifier)
  | collectionByID (id : Identifier)
  | fullCollectionByID (id : Identifier)
  | transactionByID (id : Identifier)
  | transactionResultByID (id : Identifier)
  | systemTransactionResultByID (blockID txID : Identifier)
  | ledgerByHeight (height : Nat) (register : RegisterID)
  | eventsByHeight (height : Nat) (eventType : String)

def Query.Answer : Query → Type
  | .latestBlockHeight => Nat
  | .latestBlock | .blockByID _ | .blockByHeight _ => Block
  | .systemTransactionsForBlockID _ => SystemTransactions
  | .blockIDByScheduledTransactionID _ | .scheduledTransactionBlockIDByTxID _ => Identifier
  | .collectionByID _ => LightCollection
  | .fullCollectionByID _ => List TransactionBody
  | .transactionByID _ => TransactionBody
  | .transactionResultByID _ | .systemTransactionResultByID _ _ => StorableTransactionResult
  | .ledgerByHeight _ _ => RegisterValue
  | .eventsByHeight _ _ => List Event

/-- The reads of the indexes of system and scheduled transactions. -/
def Query.indexed : Query → Bool
  | .systemTransactionsForBlockID _ | .blockIDByScheduledTransactionID _ | .scheduledTransactionBlockIDByTxID _ => true
  | _ => false

/-- What a store answers to a read. -/
def Store.answer {σ : Type} (S : Store σ) : (query : Query) → σ → Except StoreError query.Answer
  | .latestBlockHeight => S.latestBlockHeight
  | .latestBlock => S.latestBlock
  | .blockByID id => S.blockByID id
  | .blockByHeight height => S.blockByHeight height
  | .systemTransactionsForBlockID blockID => S.systemTransactionsForBlockID blockID
  | .blockIDByScheduledTransactionID scheduledTxID => S.blockIDByScheduledTransactionID scheduledTxID
  | .scheduledTransactionBlockIDByTxID txID => S.scheduledTransactionBlockIDByTxID txID
  | .collectionByID id => S.collectionByID id
  | .fullCollectionByID id => S.fullCollectionByID id
  | .transactionByID id => S.transactionByID id
  | .transactionResultByID id => S.transactionResultByID id
  | .systemTransactionResultByID blockID txID => S.systemTransactionResultByID blockID txID
  | .ledgerByHeight height register => S.ledgerByHeight height register
  | .eventsByHeight height eventType => S.eventsByHeight height eventType

end FlowEmulator
