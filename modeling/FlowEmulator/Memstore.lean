import FlowEmulator.Assign
import FlowEmulator.Keys
import FlowEmulator.Store

/-!
The store that keeps the chain in memory: a map for each kind of record, and for
each height a tree of the write sets up to it.
-/
namespace FlowEmulator.Memstore
open FlowEmulator.Text FlowEmulator.Keys FlowEmulator.Fallible

/-- The persistent trees of write sets, of a library: a register has the value of
    the last write set that has it, and none at first. -/
structure SnapshotTree (τ : Type) where
  empty : τ
  append : τ → WriteSet → τ
  get : τ → RegisterID → RegisterValue
  get_empty : ∀ r, get empty r = []
  get_append : ∀ tree writeSet r, get (append tree writeSet) r = (writeSet.lookup r).getD (get tree r)

/-- The write sets themselves, the last one first. -/
def SnapshotTree.ofLists : SnapshotTree (List WriteSet) where
  empty := []
  append tree writeSet := writeSet :: tree
  get tree r := (tree.findSome? fun writeSet => writeSet.lookup r).getD []
  get_empty _ := rfl
  get_append tree writeSet r := by
    rw [List.findSome?_cons]
    cases writeSet.lookup r <;> rfl

structure Store (τ : Type) where
  blockIDToHeight : Identifier → Option Nat
  blocks : Nat → Option Block
  collections : Identifier → Option LightCollection
  transactions : Identifier → Option TransactionBody
  systemTransactions : Identifier → Option SystemTransactions
  scheduledTransactionIndex : Nat → Option Identifier
  scheduledTransactionBlockIndex : Identifier → Option Identifier
  transactionResults : Identifier → Option StorableTransactionResult
  systemTransactionResults : Bytes → Option StorableTransactionResult
  ledger : Nat → Option τ
  eventsByBlockHeight : Nat → Option (List Event)
  blockHeight : Nat

def new {τ : Type} : Store τ :=
  ⟨fun _ => none,fun _ => none,fun _ => none,fun _ => none,fun _ => none,fun _ => none,fun _ => none,fun _ => none,
    fun _ => none,fun _ => none,fun _ => none,0⟩

section
variable {τ : Type} (E : Encoding) (T : SnapshotTree τ)

def latestBlock (s : Store τ) : Except StoreError Block := found (s.blocks s.blockHeight)

def latestBlockHeight (s : Store τ) : Except StoreError Nat := (latestBlock s).map Block.height

def storeBlock (block : Block) : StoreM (Store τ) Unit := update fun s => { s with
  blocks := Function.update s.blocks block.height (some block)
  blockIDToHeight := Function.update s.blockIDToHeight (E.blockID block) (some block.height)
  blockHeight := if s.blockHeight < block.height then block.height else s.blockHeight }

def blockByHeight (height : Nat) (s : Store τ) : Except StoreError Block := found (s.blocks height)

def blockByID (blockID : Identifier) (s : Store τ) : Except StoreError Block :=
  (found (s.blockIDToHeight blockID)).bind fun height => blockByHeight height s

def systemTransactionsForBlockID (blockID : Identifier) (s : Store τ) : Except StoreError SystemTransactions :=
  found (s.systemTransactions blockID)

def indexScheduledTransactionID (scheduledTxID : Nat) (blockID : Identifier) : StoreM (Store τ) Unit :=
  update fun s => { s with
    scheduledTransactionIndex := Function.update s.scheduledTransactionIndex scheduledTxID (some blockID) }

def blockIDByScheduledTransactionID (scheduledTxID : Nat) (s : Store τ) : Except StoreError Identifier :=
  found (s.scheduledTransactionIndex scheduledTxID)

def indexScheduledTransactionBlockID (txID blockID : Identifier) : StoreM (Store τ) Unit :=
  update fun s => { s with
    scheduledTransactionBlockIndex := Function.update s.scheduledTransactionBlockIndex txID (some blockID) }

def scheduledTransactionBlockIDByTxID (txID : Identifier) (s : Store τ) : Except StoreError Identifier :=
  found (s.scheduledTransactionBlockIndex txID)

def insertCollection (col : LightCollection) : StoreM (Store τ) Unit :=
  update fun s => { s with collections := Function.update s.collections (E.collectionID col) (some col) }

def insertSystemTransactions (blockID : Identifier) (stx : SystemTransactions) : StoreM (Store τ) Unit :=
  update fun s => { s with systemTransactions := Function.update s.systemTransactions blockID (some stx) }

def insertTransaction (txID : Identifier) (tx : TransactionBody) : StoreM (Store τ) Unit :=
  update fun s => { s with transactions := Function.update s.transactions txID (some tx) }

def insertTransactionResult (txID : Identifier) (result : StorableTransactionResult) : StoreM (Store τ) Unit :=
  update fun s => { s with transactionResults := Function.update s.transactionResults txID (some result) }

def insertSystemTransactionResult (blockID txID : Identifier) (result : StorableTransactionResult) :
    StoreM (Store τ) Unit :=
  let key := systemTransactionResult blockID txID
  update fun s => { s with systemTransactionResults := Function.update s.systemTransactionResults key (some result) }

/-- The height before, which below 0 wraps around in 64 bits. -/
def before (height : Nat) : Nat := if height = 0 then 2^64-1 else height-1

def insertExecutionSnapshot (height : Nat) (executionSnapshot : WriteSet) : StoreM (Store τ) Unit :=
  update fun s =>
    let oldLedger := (s.ledger (before height)).getD T.empty
    { s with ledger := Function.update s.ledger height (some (T.append oldLedger executionSnapshot)) }

/-- The events of a height, or more of them where there are some. -/
def addEvents (old : Option (List Event)) (events : List Event) : List Event :=
  match old with
  | none => events
  | some old => old ++ events

def insertEvents (height : Nat) (events : List Event) : StoreM (Store τ) Unit :=
  update fun s =>
    let all := addEvents (s.eventsByBlockHeight height) events
    { s with eventsByBlockHeight := Function.update s.eventsByBlockHeight height (some all) }

/-- The step of a commit that records its system transactions, when it has any. -/
def insertSystemMetadata (c : BlockContents) : StoreM (Store τ) Unit :=
  if 0 < c.systemTransactions.length ∨ 0 < c.scheduledTransactionIDs.entries.length then
    insertSystemTransactions (E.blockID c.block) ⟨E.blockID c.block,c.systemTransactions,c.scheduledTransactionIDs⟩
  else pure ()

def commitBlock (c : BlockContents) : StoreM (Store τ) Unit :=
  if c.transactions.entries.length ≠ c.transactionResults.entries.length then
    fail (.transactionsCount c.transactions.entries.length c.transactionResults.entries.length)
  else if c.systemTransactions.length ≠ c.systemTransactionResults.entries.length then
    fail (.systemTransactionsCount c.systemTransactions.length c.systemTransactionResults.entries.length)
  else do
    storeBlock E c.block
    c.collections.forM (insertCollection E)
    insertSystemMetadata E c
    c.transactions.entries.forM fun entry => insertTransaction entry.1 entry.2
    c.transactionResults.entries.forM fun entry => insertTransactionResult entry.1 entry.2
    c.systemTransactionBodies.entries.forM fun entry => insertTransaction entry.1 entry.2
    c.systemTransactionResults.entries.forM fun entry =>
      insertSystemTransactionResult (E.blockID c.block) entry.1 entry.2
    insertExecutionSnapshot T c.block.height c.executionSnapshot
    insertEvents c.block.height c.events

def collectionByID (collectionID : Identifier) (s : Store τ) : Except StoreError LightCollection :=
  found (s.collections collectionID)

def transactionByID (transactionID : Identifier) (s : Store τ) : Except StoreError TransactionBody :=
  found (s.transactions transactionID)

def fullCollectionByID (collectionID : Identifier) (s : Store τ) : Except StoreError (List TransactionBody) :=
  (collectionByID collectionID s).bind fun light => light.transactions.mapM fun txID => transactionByID txID s

def transactionResultByID (transactionID : Identifier) (s : Store τ) : Except StoreError StorableTransactionResult :=
  found (s.transactionResults transactionID)

def systemTransactionResultByID (blockID transactionID : Identifier) (s : Store τ) :
    Except StoreError StorableTransactionResult :=
  found (s.systemTransactionResults (systemTransactionResult blockID transactionID))

/-- The value of a register in the tree of a height, the empty tree where there is none. -/
def ledgerByHeight (height : Nat) (id : RegisterID) (s : Store τ) : Except StoreError RegisterValue :=
  .ok (T.get ((s.ledger height).getD T.empty) id)

def eventsByHeight (height : Nat) (eventType : String) (s : Store τ) : Except StoreError (List Event) :=
  .ok (((s.eventsByBlockHeight height).getD []).filter fun event => eventType = "" || event.type = eventType)

def store : FlowEmulator.Store (Store τ) where
  latestBlockHeight := latestBlockHeight
  latestBlock := latestBlock
  blockByID := blockByID
  blockByHeight := blockByHeight
  commitBlock := commitBlock E T
  systemTransactionsForBlockID := systemTransactionsForBlockID
  indexScheduledTransactionID := indexScheduledTransactionID
  blockIDByScheduledTransactionID := blockIDByScheduledTransactionID
  indexScheduledTransactionBlockID := indexScheduledTransactionBlockID
  scheduledTransactionBlockIDByTxID := scheduledTransactionBlockIDByTxID
  collectionByID := collectionByID
  fullCollectionByID := fullCollectionByID
  transactionByID := transactionByID
  transactionResultByID := transactionResultByID
  systemTransactionResultByID := systemTransactionResultByID
  ledgerByHeight := ledgerByHeight T
  eventsByHeight := eventsByHeight

end

/-! ### The records of a saved block -/

private def entryKey {K V : Type} (entry : Sigma fun _ : K => V) : K := entry.1
private def entryValue {K V : Type} (entry : Sigma fun _ : K => V) : V := entry.2

/-- The entries of a map as pairs. -/
def pairs {K V : Type} (map : GoMap K V) : List (K × V) := map.entries.map fun entry => (entry.1,entry.2)

section
variable {τ : Type} (E : Encoding) (T : SnapshotTree τ) (static : Identifier → Bool) (c : BlockContents)

def blockIndexRecords : List (Identifier × Nat) := [(E.blockID c.block,c.block.height)]
def blockRecords : List (Nat × Block) := [(c.block.height,c.block)]
def eventRecords : List (Nat × List Event) := [(c.block.height,c.events)]
def collectionRecords : List (Identifier × LightCollection) := c.collections.map fun col => (E.collectionID col,col)
def transactionRecords : List (Identifier × TransactionBody) := pairs c.transactions ++ pairs c.systemTransactionBodies
def systemRecords : List (Identifier × SystemTransactions) :=
  if 0 < c.systemTransactions.length ∨ 0 < c.scheduledTransactionIDs.entries.length then
    [(E.blockID c.block,⟨E.blockID c.block,c.systemTransactions,c.scheduledTransactionIDs⟩)]
  else []
def resultRecords : List (Identifier × StorableTransactionResult) := pairs c.transactionResults
def systemResultRecords : List (Bytes × StorableTransactionResult) :=
  c.systemTransactionResults.entries.map fun entry => (systemTransactionResult (E.blockID c.block) entry.1,entry.2)
def scheduledRecords : List (Nat × Identifier) :=
  c.scheduledTransactionIDs.entries.map fun entry => (entry.1,E.blockID c.block)
def scheduledBlockRecords : List (Identifier × Identifier) :=
  (c.systemTransactionResults.entries.filter fun entry => !static entry.1).map fun entry => (entry.1,E.blockID c.block)

/-- The store after a block was saved. -/
def saved (s : Store τ) : Store τ where
  blockIDToHeight := assign s.blockIDToHeight (blockIndexRecords E c)
  blocks := assign s.blocks (blockRecords c)
  collections := assign s.collections (collectionRecords E c)
  transactions := assign s.transactions (transactionRecords c)
  systemTransactions := assign s.systemTransactions (systemRecords E c)
  scheduledTransactionIndex := assign s.scheduledTransactionIndex (scheduledRecords E c)
  scheduledTransactionBlockIndex := assign s.scheduledTransactionBlockIndex (scheduledBlockRecords E static c)
  transactionResults := assign s.transactionResults (resultRecords c)
  systemTransactionResults := assign s.systemTransactionResults (systemResultRecords E c)
  ledger := Function.update s.ledger c.block.height
    (some (T.append ((s.ledger (before c.block.height)).getD T.empty) c.executionSnapshot))
  eventsByBlockHeight := Function.update s.eventsByBlockHeight c.block.height
    (some (addEvents (s.eventsByBlockHeight c.block.height) c.events))
  blockHeight := if s.blockHeight < c.block.height then c.block.height else s.blockHeight

private theorem insertCollection_loop : c.collections.forM (insertCollection E) =
    (update fun s => { s with collections := assign s.collections (collectionRecords E c) } : StoreM (Store τ) Unit) :=
  forM_assign Store.collections (fun f s => { s with collections := f }) (fun _ _ => rfl) (fun _ _ _ => rfl)
    (fun _ => rfl) E.collectionID id c.collections

private theorem insertTransaction_loop (bodies : GoMap Identifier TransactionBody) :
    (bodies.entries.forM fun entry => insertTransaction entry.1 entry.2) =
    (update fun s => { s with transactions := assign s.transactions (pairs bodies) } : StoreM (Store τ) Unit) :=
  forM_assign Store.transactions (fun f s => { s with transactions := f }) (fun _ _ => rfl) (fun _ _ _ => rfl)
    (fun _ => rfl) entryKey entryValue bodies.entries

private theorem insertTransactionResult_loop :
    (c.transactionResults.entries.forM fun entry => insertTransactionResult entry.1 entry.2) =
    (update fun s => { s with transactionResults := assign s.transactionResults (resultRecords c) } :
      StoreM (Store τ) Unit) :=
  forM_assign Store.transactionResults (fun f s => { s with transactionResults := f }) (fun _ _ => rfl)
    (fun _ _ _ => rfl) (fun _ => rfl) entryKey entryValue c.transactionResults.entries

private theorem insertSystemTransactionResult_loop :
    (c.systemTransactionResults.entries.forM fun entry =>
      insertSystemTransactionResult (E.blockID c.block) entry.1 entry.2) =
    (update fun s =>
      { s with systemTransactionResults := assign s.systemTransactionResults (systemResultRecords E c) } :
      StoreM (Store τ) Unit) :=
  forM_assign Store.systemTransactionResults (fun f s => { s with systemTransactionResults := f }) (fun _ _ => rfl)
    (fun _ _ _ => rfl) (fun _ => rfl) (fun entry => systemTransactionResult (E.blockID c.block) (entryKey entry))
    entryValue c.systemTransactionResults.entries

private theorem indexScheduledTransactionID_loop :
    (c.scheduledTransactionIDs.entries.forM fun entry => indexScheduledTransactionID entry.1 (E.blockID c.block)) =
    (update fun s =>
      { s with scheduledTransactionIndex := assign s.scheduledTransactionIndex (scheduledRecords E c) } :
      StoreM (Store τ) Unit) :=
  forM_assign Store.scheduledTransactionIndex (fun f s => { s with scheduledTransactionIndex := f }) (fun _ _ => rfl)
    (fun _ _ _ => rfl) (fun _ => rfl) entryKey (fun _ => E.blockID c.block) c.scheduledTransactionIDs.entries

private theorem indexScheduledTransactionBlockID_loop :
    (c.systemTransactionResults.entries.forM fun entry =>
      if static entry.1 then pure () else indexScheduledTransactionBlockID entry.1 (E.blockID c.block)) =
    (update fun s =>
      { s with scheduledTransactionBlockIndex :=
                 assign s.scheduledTransactionBlockIndex (scheduledBlockRecords E static c) } :
      StoreM (Store τ) Unit) := by
  rw [forM_skip]
  exact forM_assign Store.scheduledTransactionBlockIndex (fun f s => { s with scheduledTransactionBlockIndex := f })
    (fun _ _ => rfl) (fun _ _ _ => rfl) (fun _ => rfl) entryKey (fun _ => E.blockID c.block) _

private theorem insertSystemMetadata_eq : insertSystemMetadata E c =
    (update fun s => { s with systemTransactions := assign s.systemTransactions (systemRecords E c) } :
      StoreM (Store τ) Unit) := by
  unfold insertSystemMetadata systemRecords
  split <;> rfl

/-- Saving a block whose counts agree. -/
theorem saveBlock_run (counted : c.Counted) (s : Store τ) :
    (store E T).saveBlock E static c s = (.ok (),saved E T static c s) := by
  have committed : (store E T).commitBlock c = commitBlock E T c := rfl
  have scheduled : (store E T).indexScheduledTransactionID = indexScheduledTransactionID := rfl
  have scheduledBlock : (store E T).indexScheduledTransactionBlockID = indexScheduledTransactionBlockID := rfl
  unfold Store.saveBlock
  rw [committed,scheduled,scheduledBlock]
  unfold commitBlock
  rw [if_neg (not_not.mpr counted.1),if_neg (not_not.mpr counted.2),insertCollection_loop,insertSystemMetadata_eq,
    insertTransaction_loop,insertTransaction_loop,insertTransactionResult_loop,insertSystemTransactionResult_loop,
    indexScheduledTransactionID_loop,indexScheduledTransactionBlockID_loop]
  simp only [saved,transactionRecords,assign_append]
  rfl

end
end FlowEmulator.Memstore
