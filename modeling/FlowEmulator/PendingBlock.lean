import FlowEmulator.Store
import Mathlib.Data.Fin.Basic

/-!
The block that is being built: the transactions it has, how far they are
executed, and the ledger with their changes. The virtual machine, the
transactions the protocol adds to a block and the check of a submitted
transaction belong to libraries; a `Machine` collects them.
-/
namespace FlowEmulator

/-- The error a transaction ended with. -/
structure VMError where
  code : Int
  message : String
deriving DecidableEq

/-- What a run of the virtual machine reports. -/
structure ProcedureOutput where
  logs : List String
  events : List Event
  computationUsed : Nat
  memoryEstimate : Nat
  err : Option VMError
deriving DecidableEq

/-- The settings a transaction is run with. -/
inductive ContextKind where
  | user
  | scheduled
  | systemChunk
deriving DecidableEq

/-- The context of a run: its settings, the header of the block and the source of entropy. -/
structure Context where
  kind : ContextKind
  header : Block
  entropy : Identifier

/-- The registers a run can read. -/
abbrev Registers := RegisterID → Except StoreError RegisterValue

/-- What the emulator takes from libraries besides the encodings. A failure of
    one of these stops the operation of the emulator. -/
structure Machine where
  run : Context → TransactionBody → Nat → Registers → Except String (WriteSet × ProcedureOutput)
  mergeable : WriteSet → WriteSet → Bool
  convertible : List Event → Bool
  bootstrap : ChainID → Registers → Except String (WriteSet × List Event)
  genesisTime : Nat
  processCallbacksTransaction : ChainID → Except String TransactionBody
  executeCallbacksTransactions : ChainID → List Event → Except String (List TransactionBody)
  pendingExecutionEventType : ChainID → String
  callbackID : Event → Except String UInt64
  systemChunkTransaction : ChainID → Except String TransactionBody
  validate : (Identifier → Except StoreError Block) → Except StoreError Block → TransactionBody → Except String Unit

structure IndexedTransactionResult where
  output : ProcedureOutput
  index : Nat
deriving DecidableEq

def maxViewIncrease : Nat := 3

/-- A time in nanoseconds. In milliseconds it is not zero, as a header without a time is no header. -/
structure Time where
  nanoseconds : Nat
  proper : 1000000 ≤ nanoseconds

def Time.milliseconds (time : Time) : Nat := time.nanoseconds / 1000000

/-- What a new block takes from its surroundings: the random part of its view and the time. -/
structure Tick where
  view : Fin maxViewIncrease
  now : Time

/-- The block that is being built. The ledger is the ledger at a height with the
    registers that were written since. When it is finalized it can be read no more. -/
structure PendingBlock where
  height : Nat
  view : Nat
  parentID : Identifier
  timestamp : Time
  transactions : GoMap Identifier TransactionBody
  transactionIDs : List Identifier
  transactionResults : GoMap Identifier IndexedTransactionResult
  ledgerHeight : Nat
  ledgerState : WriteSet
  finalized : Bool
  events : List Event
  index : Nat

def newPendingBlock (E : Encoding) (tick : Tick) (prevBlock : Block) : PendingBlock where
  height := prevBlock.height+1
  view := prevBlock.view+(tick.view+1)
  parentID := E.blockID prevBlock
  timestamp := tick.now
  transactions := ∅
  transactionIDs := []
  transactionResults := ∅
  ledgerHeight := prevBlock.height
  ledgerState := ∅
  finalized := false
  events := []
  index := 0

namespace PendingBlock

def collections (p : PendingBlock) : List LightCollection :=
  if p.transactionIDs = [] then [] else [⟨p.transactionIDs⟩]

def block (E : Encoding) (p : PendingBlock) : Block where
  chainID := .emulator
  height := p.height
  view := p.view
  parentID := p.parentID
  timestamp := p.timestamp.milliseconds
  consensus := []
  guarantees := p.collections.map E.collectionID
  sealing := []

def id (E : Encoding) (p : PendingBlock) : Identifier := E.blockID (p.block E)

def addTransaction (E : Encoding) (tx : TransactionBody) (p : PendingBlock) : PendingBlock :=
  { p with
    transactionIDs := p.transactionIDs ++ [E.transactionID tx]
    transactions := p.transactions.insert (E.transactionID tx) tx }

def containsTransaction (txID : Identifier) (p : PendingBlock) : Bool := (p.transactions.lookup txID).isSome

def nextTransaction (p : PendingBlock) : Option TransactionBody :=
  p.transactionIDs[p.index]? >>= fun txID => p.transactions.lookup txID

def size (p : PendingBlock) : Nat := p.transactionIDs.length
def empty (p : PendingBlock) : Bool := p.transactionIDs.length = 0
def executionStarted (p : PendingBlock) : Bool := 0 < p.index
def executionComplete (p : PendingBlock) : Bool := p.size ≤ p.index

def setClock (now : Time) (p : PendingBlock) : PendingBlock := { p with timestamp := now }

/-- The changes of a run over the ledger of the block. -/
def merge (writes : WriteSet) (p : PendingBlock) : PendingBlock := { p with ledgerState := writes ∪ p.ledgerState }

/-- The changes are taken for a commit. -/
def finalize (p : PendingBlock) : PendingBlock := { p with finalized := true }

def appendEvents (events : List Event) (p : PendingBlock) : PendingBlock := { p with events := p.events ++ events }

end PendingBlock

/-- The machine over the ledger of a block: every run fails if that is finalized. -/
def Machine.on (M : Machine) (p : PendingBlock) : Machine :=
  { M with run := fun context tx index registers =>
      if p.finalized then .error "cannot Get on a finalized state" else M.run context tx index registers }

end FlowEmulator
