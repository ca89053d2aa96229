import FlowEmulator.PendingBlock

/-!
The emulated chain over a store: how transactions enter the pending block, how
it is executed and committed, and how the chain is started, reset, rolled back
and put on a snapshot.
-/
namespace FlowEmulator
open FlowEmulator.Fallible FlowEmulator.Text

inductive EmulatorError where
  | storage (e : StoreError)
  | fatal (message : String)
  | pendingBlockMidExecution (blockID : Identifier)
  | pendingBlockCommitBeforeExecution (blockID : Identifier)
  | pendingBlockTransactionsExhausted (blockID : Identifier)
  | duplicateTransaction (txID : Identifier)
  | invalidTransaction (message : String)
  | nilTransaction
  | systemChunk (e : VMError)
  | rollbackUnsupported
  | snapshotsUnsupported
deriving DecidableEq

/-- A store with what it offers for rollbacks and for snapshots. -/
structure Backend (σ : Type) extends Store σ where
  rollbackProvider : Option (Nat → StoreM σ Unit)
  supportSnapshots : σ → Bool
  createSnapshot : String → StoreM σ Unit
  loadSnapshot : String → StoreM σ Unit

structure Config where
  chainID : ChainID
  simpleAddresses : Bool
  scheduledTransactionsEnabled : Bool

def Config.getChainID (config : Config) : ChainID :=
  if config.simpleAddresses then .monotonicEmulator else config.chainID

structure Blockchain (σ : Type) where
  storage : σ
  pendingBlock : PendingBlock
  latestEntropy : Identifier
  autoMine : Bool

abbrev EmulatorM (σ : Type) := Fallible EmulatorError (Blockchain σ)

/-- What the emulator returns for an executed transaction. -/
structure TransactionResult where
  transactionID : Identifier
  output : ProcedureOutput
deriving DecidableEq

/-- What the system transactions of a block leave for its commit. -/
structure SystemRun where
  bodies : GoMap Identifier TransactionBody
  results : GoMap Identifier IndexedTransactionResult
  scheduled : GoMap Nat Identifier
  ordered : List Identifier

def toStorableResult (output : ProcedureOutput) (blockID : Identifier) (blockHeight : Nat) (collectionID : Identifier) :
    StorableTransactionResult where
  errorCode := (output.err.map VMError.code).getD 0
  errorMessage := (output.err.map VMError.message).getD ""
  logs := output.logs
  events := output.events
  blockID := blockID
  blockHeight := blockHeight
  collectionID := collectionID

/-- The results of some transactions as they are stored. -/
def convertToSealedResults (results : GoMap Identifier IndexedTransactionResult) (blockID : Identifier)
    (blockHeight : Nat) (collectionID : Identifier) : GoMap Identifier StorableTransactionResult where
  entries := results.entries.map fun entry => ⟨entry.1,toStorableResult entry.2.output blockID blockHeight collectionID⟩
  nodupKeys := by
    have same : (results.entries.map fun entry => (⟨entry.1,toStorableResult entry.2.output blockID blockHeight
        collectionID⟩ : Sigma fun _ : Identifier => StorableTransactionResult)).keys = results.entries.keys := by
      simp [List.keys]
    unfold List.NodupKeys
    rw [same]
    exact results.nodupKeys

def genesis (M : Machine) (chainID : ChainID) : Block where
  chainID := chainID
  height := 0
  view := 0
  parentID := zeroID
  timestamp := M.genesisTime
  consensus := []
  guarantees := []
  sealing := []

/-- The identifiers of the callbacks that are to be executed as texts, in the order of their events. -/
def parseScheduledIDs (M : Machine) (chainID : ChainID) : List Event → Except String (List Bytes)
  | [] => .ok []
  | event :: rest =>
    if event.type ≠ M.pendingExecutionEventType chainID then parseScheduledIDs M chainID rest
    else do
      let id ← M.callbackID event
      let ids ← parseScheduledIDs M chainID rest
      pure (decimal id.toNat :: ids)

namespace Blockchain
variable {σ : Type} (E : Encoding) (M : Machine) (config : Config) (B : Backend σ)

/-- The system transactions that are the same in every block. -/
def static (txID : Identifier) : Bool :=
  (match M.processCallbacksTransaction config.chainID with
    | .ok tx => E.transactionID tx = txID
    | .error _ => false) ||
  (match M.systemChunkTransaction config.getChainID with
    | .ok tx => E.transactionID tx = txID
    | .error _ => false)

/-- Run an operation of the store. -/
def inStorage {α : Type} (op : StoreM σ α) : EmulatorM σ α :=
  inside Blockchain.storage (fun storage b => { b with storage := storage }) .storage op

theorem inStorage_ok {α : Type} {op : StoreM σ α} {b : Blockchain σ} {a : α} {storage : σ}
    (run : op b.storage = (.ok a,storage)) : inStorage op b = (.ok a,{ b with storage := storage }) :=
  inside_ok run

theorem inStorage_error {α : Type} {op : StoreM σ α} {b : Blockchain σ} {e : StoreError} {storage : σ}
    (run : op b.storage = (.error e,storage)) : inStorage op b = (.error (.storage e),{ b with storage := storage }) :=
  inside_error run

/-- Look into the store. -/
def readStorage {α : Type} (read : σ → Except StoreError α) : EmulatorM σ α :=
  attempt fun b => (read b.storage).mapError .storage

/-- Take a result of a library. -/
def library {α : Type} : Except String α → EmulatorM σ α
  | .ok a => pure a
  | .error message => fail (.fatal message)

def modifyPending (f : PendingBlock → PendingBlock) : EmulatorM σ Unit :=
  update fun b => { b with pendingBlock := f b.pendingBlock }

/-- The registers with the changes of the pending block. -/
def registers (b : Blockchain σ) : Registers := fun id =>
  match b.pendingBlock.ledgerState.lookup id with
  | some value => .ok value
  | none => B.ledgerByHeight b.pendingBlock.ledgerHeight id b.storage

/-- Run a transaction on the ledger of the pending block. -/
def runTransaction (kind : ContextKind) (tx : TransactionBody) (index : Nat) :
    EmulatorM σ (WriteSet × ProcedureOutput) := do
  let result ← view fun b => (M.on b.pendingBlock).run ⟨kind,b.pendingBlock.block E,b.latestEntropy⟩ tx index (b.registers B)
  library result

def mergeLedger (writes : WriteSet) : EmulatorM σ Unit := do
  let mergeable ← view fun b => M.mergeable b.pendingBlock.ledgerState writes
  if mergeable then modifyPending (PendingBlock.merge writes) else fail (.fatal "merge")

/-! ### Transactions -/

def addTransaction (tx : TransactionBody) : EmulatorM σ Unit := do
  let pending ← view Blockchain.pendingBlock
  if pending.executionStarted then fail (.pendingBlockMidExecution (pending.id E))
  else if pending.containsTransaction (E.transactionID tx) then fail (.duplicateTransaction (E.transactionID tx))
  else do
    let stored ← view fun b => B.transactionByID (E.transactionID tx) b.storage
    match stored with
    | .ok _ => fail (.duplicateTransaction (E.transactionID tx))
    | .error .notFound => do
      let valid ← view fun b => M.validate (fun id => B.blockByID id b.storage) (B.latestBlock b.storage) tx
      match valid with
      | .error message => fail (.invalidTransaction message)
      | .ok _ => modifyPending (PendingBlock.addTransaction E tx)
    | .error e => fail (.storage e)

/-- The step of the pending block: the index moves first, whatever the run ends with. -/
def executePending (tx : TransactionBody) : EmulatorM σ ProcedureOutput := do
  let index ← view fun b => b.pendingBlock.index
  modifyPending fun p => { p with index := p.index+1 }
  let (writes,output) ← runTransaction E M B .user tx index
  modifyPending (PendingBlock.appendEvents output.events)
  mergeLedger M writes
  modifyPending fun p =>
    { p with transactionResults := p.transactionResults.insert (E.transactionID tx) ⟨output,index⟩ }
  pure output

def executeNextTransaction : EmulatorM σ TransactionResult := do
  let pending ← view Blockchain.pendingBlock
  if pending.executionComplete then fail (.pendingBlockTransactionsExhausted (pending.id E))
  else match pending.nextTransaction with
    | none => fail .nilTransaction
    | some tx => do
      let output ← executePending E M B tx
      if M.convertible output.events then pure ⟨E.transactionID tx,output⟩ else fail (.fatal "events")

/-- Execute a number of transactions while there are some left. -/
def executeRemaining : Nat → List TransactionResult → EmulatorM σ (List TransactionResult)
  | 0, results => pure results
  | fuel+1, results => do
    let pending ← view Blockchain.pendingBlock
    if pending.executionComplete || pending.empty then pure results
    else do
      let result ← executeNextTransaction E M B
      executeRemaining fuel (results ++ [result])

/-- Execute what is left of the pending block. Each round moves the index, so as
    many rounds as there are transactions left are enough. -/
def executeBlock : EmulatorM σ (List TransactionResult) := do
  let pending ← view Blockchain.pendingBlock
  if pending.executionComplete && !pending.empty then fail (.pendingBlockTransactionsExhausted (pending.id E))
  else executeRemaining E M B (pending.size-pending.index) []

/-! ### Commits -/

/-- Execute the callbacks of a block one by one, each after the transactions before it. -/
def executeCallbacks (base : Nat) (ids : List Bytes) : Nat → List TransactionBody → SystemRun → EmulatorM σ SystemRun
  | _, [], run => pure run
  | idx, tx :: rest, run => do
    let (writes,output) ← runTransaction E M B .scheduled tx (base+1+idx)
    if M.convertible output.events then do
      modifyPending (PendingBlock.appendEvents output.events)
      mergeLedger M writes
      executeCallbacks base ids (idx+1) rest {
        bodies := run.bodies.insert (E.transactionID tx) tx
        results := run.results.insert (E.transactionID tx) ⟨output,base+1+idx⟩
        scheduled := ((ids[idx]?).bind scanUint64).elim run.scheduled fun id => run.scheduled.insert id (E.transactionID tx)
        ordered := run.ordered ++ [E.transactionID tx] }
    else fail (.fatal "events")

def executeScheduledTransactions : EmulatorM σ SystemRun := do
  let base ← view fun b => b.pendingBlock.transactions.entries.length
  let processTx ← library (M.processCallbacksTransaction config.getChainID)
  let processID := E.transactionID processTx
  let (writes,output) ← runTransaction E M B .scheduled processTx base
  modifyPending (PendingBlock.appendEvents output.events)
  mergeLedger M writes
  let executeTxs ← library (M.executeCallbacksTransactions config.getChainID output.events)
  let ids ← library (parseScheduledIDs M config.getChainID output.events)
  executeCallbacks E M B base ids 0 executeTxs {
    bodies := AList.singleton processID processTx
    results := AList.singleton processID ⟨output,base⟩
    scheduled := ∅
    ordered := [processID] }

def executeSystemChunkTransaction (txIndex : Nat) : EmulatorM σ (TransactionBody × IndexedTransactionResult) := do
  let tx ← library (M.systemChunkTransaction config.getChainID)
  let (writes,output) ← runTransaction E M B .systemChunk tx txIndex
  match output.err with
  | some e => fail (.systemChunk e)
  | none => do
    modifyPending (PendingBlock.appendEvents output.events)
    mergeLedger M writes
    pure (tx,⟨output,txIndex⟩)

/-- The scheduled transactions of the block, when they are enabled. -/
def scheduledRun : EmulatorM σ SystemRun :=
  if config.scheduledTransactionsEnabled then executeScheduledTransactions E M config B else pure ⟨∅,∅,∅,[]⟩

/-- Run the system transactions of a block and collect what its commit receives. -/
def sealBlock : EmulatorM σ BlockContents := do
  let pending ← view Blockchain.pendingBlock
  let block := pending.block E
  let blockID := E.blockID block
  let collectionID := (pending.collections.head?.map E.collectionID).getD zeroID
  let run ← scheduledRun E M config B
  let (chunkBody,chunkResult) ← executeSystemChunkTransaction E M config B
    (pending.transactions.entries.length+run.ordered.length)
  let systemTxID := E.transactionID chunkBody
  let final ← view Blockchain.pendingBlock
  pure {
    block := block
    collections := pending.collections
    transactions := pending.transactions
    transactionResults := convertToSealedResults pending.transactionResults blockID pending.height collectionID
    systemTransactions := run.ordered ++ [systemTxID]
    systemTransactionBodies := run.bodies.insert systemTxID chunkBody
    systemTransactionResults := (convertToSealedResults run.results blockID pending.height zeroID).insert systemTxID
      (toStorableResult chunkResult.output blockID pending.height zeroID)
    executionSnapshot := final.ledgerState
    events := final.events
    scheduledTransactionIDs := run.scheduled }

/-- The ledger is finalized before the store is asked, and stays so if the store fails. -/
def commitBlock (tick : Tick) : EmulatorM σ Block := do
  let pending ← view Blockchain.pendingBlock
  if !pending.executionStarted && !pending.empty then fail (.pendingBlockCommitBeforeExecution (pending.id E))
  else if pending.executionStarted && !pending.executionComplete then fail (.pendingBlockMidExecution (pending.id E))
  else do
    let c ← sealBlock E M config B
    modifyPending PendingBlock.finalize
    inStorage (B.saveBlock E (static E M config) c)
    update fun b => { b with pendingBlock := newPendingBlock E tick c.block, latestEntropy := E.blockID c.block }
    pure c.block

def executeAndCommitBlock (tick : Tick) : EmulatorM σ (Block × List TransactionResult) := do
  let results ← executeBlock E M B
  let block ← commitBlock E M config B tick
  pure (block,results)

def sendTransaction (tick : Tick) (tx : TransactionBody) : EmulatorM σ Unit := do
  addTransaction E M B tx
  let autoMine ← view Blockchain.autoMine
  if autoMine then do
    let _ ← executeAndCommitBlock E M config B tick
    pure ()
  else pure ()

def resetPendingBlock (tick : Tick) : EmulatorM σ Unit := do
  let latest ← readStorage B.latestBlock
  modifyPending fun _ => newPendingBlock E tick latest

def setClock (now : Time) : EmulatorM σ Unit := modifyPending (PendingBlock.setClock now)

def setAutoMine (on : Bool) : EmulatorM σ Unit := update fun b => { b with autoMine := on }

/-! ### Starting and reloading -/

/-- What the commit of the first block receives. -/
def genesisContents (writes : WriteSet) (events : List Event) : BlockContents where
  block := genesis M config.getChainID
  collections := []
  transactions := ∅
  transactionResults := ∅
  systemTransactions := []
  systemTransactionBodies := ∅
  systemTransactionResults := ∅
  executionSnapshot := writes
  events := events
  scheduledTransactionIDs := ∅

/-- Bootstrap the ledger and commit the first block. -/
def configureNewLedger : Fallible EmulatorError σ Block := do
  let bootstrapped ← view fun s => M.bootstrap config.getChainID (fun id => B.ledgerByHeight 0 id s)
  match bootstrapped with
  | .error message => fail (.fatal message)
  | .ok (writes,events) => do
    inside (fun s => s) (fun s _ => s) .storage (B.commitBlock (genesisContents M config writes events))
    pure (genesis M config.getChainID)

/-- The latest block of the store; a store that has none gets the first block. -/
def configureLedger : Fallible EmulatorError σ Block := do
  let latest ← view B.latestBlock
  match latest with
  | .ok block => pure block
  | .error .notFound => configureNewLedger M config B
  | .error e => fail (.storage e)

def reloadBlockchain (tick : Tick) : EmulatorM σ Unit := do
  let latest ← inside Blockchain.storage (fun storage b => { b with storage := storage }) id (configureLedger M config B)
  modifyPending fun _ => newPendingBlock E tick latest

/-- Start an emulator over a store. -/
def newBlockchain (tick : Tick) (autoMine : Bool) (storage : σ) : Except EmulatorError (Blockchain σ) :=
  match configureLedger M config B storage with
  | (.ok latest,after) => .ok ⟨after,newPendingBlock E tick latest,zeroID,autoMine⟩
  | (.error e,_) => .error e

def rollbackToBlockHeight (tick : Tick) (height : Nat) : EmulatorM σ Unit :=
  match B.rollbackProvider with
  | none => fail .rollbackUnsupported
  | some rollback => do
    inStorage (rollback height)
    reloadBlockchain E M config B tick

def createSnapshot (tick : Tick) (name : String) : EmulatorM σ Unit := do
  let supported ← view fun b => B.supportSnapshots b.storage
  if supported then do
    inStorage (B.createSnapshot name)
    reloadBlockchain E M config B tick
  else fail .snapshotsUnsupported

def loadSnapshot (tick : Tick) (name : String) : EmulatorM σ Unit := do
  let supported ← view fun b => B.supportSnapshots b.storage
  if supported then do
    inStorage (B.loadSnapshot name)
    reloadBlockchain E M config B tick
  else fail .snapshotsUnsupported

end Blockchain
end FlowEmulator
