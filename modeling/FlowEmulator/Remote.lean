import FlowEmulator.Sqlite

/-!
The store of an emulator that continues a remote chain from a fork height. What
the emulator writes goes into an SQL store, the overlay. A register is looked up
in the overlay, then in a cache of registers that were fetched before, and then
asked for at the remote node; blocks the overlay does not have come from the node.
-/
namespace FlowEmulator.Remote
open FlowEmulator.Text FlowEmulator.Keys FlowEmulator.Fallible FlowEmulator.DefaultStore

/-- A block header as a node sends it. -/
structure HeaderMessage where
  id : Identifier
  chainID : ChainID
  height : Nat
  view : Nat
  parentID : Identifier
  timestamp : Nat
  consensus : Bytes

/-- The block of a header, with an empty payload. -/
def HeaderMessage.block (message : HeaderMessage) : Block where
  chainID := message.chainID
  height := message.height
  view := message.view
  parentID := message.parentID
  timestamp := message.timestamp
  consensus := message.consensus
  guarantees := []
  sealing := []

/-- The calls to the remote node. -/
structure Node where
  getNetworkParameters : Except NodeError ChainID
  getLatestBlockHeader : Except NodeError HeaderMessage
  getBlockHeaderByHeight : Nat → Except NodeError HeaderMessage
  getBlockHeaderByID : Identifier → Except NodeError HeaderMessage
  getRegisterValues : Nat → RegisterID → Except NodeError (List RegisterValue)

/-- The first value of an answer, the empty one when there is none. -/
def firstValue : Except NodeError (List RegisterValue) → RegisterValue
  | .ok (value :: _) => value
  | _ => []

/-- The value of a register at a height of the remote chain, empty when the node does not have it. -/
def Node.value (node : Node) (id : RegisterID) (height : Nat) : RegisterValue :=
  firstValue (node.getRegisterValues height id)

def asked {α : Type} : Except NodeError α → Except StoreError α
  | .ok a => .ok a
  | .error e => .error (.remote e)

/-- A chain identifier given in advance, a fork height (0 when none was given)
    and whether a directory for the cache of registers was given. -/
structure Options where
  chainID : Option ChainID
  forkHeight : Nat
  forkCacheDir : Bool

/-- The directory of a cache: the chain and the start of the text of the fork block's identifier. -/
abbrev CachePath := ChainID × Bytes

def cachePath (chainID : ChainID) (forkBlockID : Identifier) : CachePath :=
  (chainID,(hexEncode forkBlockID.bytes).take 12)

/-- The databases in the directories of caches. -/
abbrev Caches := CachePath → Sqlite.DatabaseName → Option Sqlite.Database

/-- No directory has a database. -/
def noCaches : Caches := fun _ _ => none

structure Store where
  overlay : Sqlite.Store
  chainID : ChainID
  forkHeight : Nat
  forkBlockID : Identifier
  cacheStore : Option Sqlite.Store

def blockBuffer : Nat := 10

section
variable (E : Encoding) (choices : Sqlite.Choices) (node : Node)

/-- The fork height when no earlier run has stored one: the one that was given,
    or a number of blocks before the latest, in the arithmetic of 64 bits. -/
def initialForkHeight (given : Nat) : Except StoreError Nat :=
  if given = 0 then (asked node.getLatestBlockHeader).map fun latest => (latest.height+2^64-blockBuffer) % 2^64
  else .ok given

/-- Choose the fork height and store it, also as the latest height. -/
def initializeForkHeight (given : Nat) : StoreM Sqlite.Store (Nat × Identifier) := do
  let forkHeight ← attempt fun _ => initialForkHeight node given
  let header ← attempt fun _ => asked (node.getBlockHeaderByHeight forkHeight)
  storeForkedBlockHeight E (Sqlite.dataStore choices) forkHeight
  setBlockHeight E (Sqlite.dataStore choices) forkHeight
  pure (forkHeight,header.id)

/-- The fork height and the identifier of its block. A fork height that an earlier run stored is taken again. -/
def initializeStartBlock (given : Nat) : StoreM Sqlite.Store (Nat × Identifier) := do
  let stored ← view (forkedBlockHeight E (Sqlite.dataStore choices))
  match stored with
  | .ok forkHeight =>
    if 0 < forkHeight then do
      let header ← attempt fun _ => asked (node.getBlockHeaderByHeight forkHeight)
      pure (forkHeight,header.id)
    else initializeForkHeight E choices node given
  | .error .notFound => initializeForkHeight E choices node given
  | .error e => fail e

/-- The cache of registers, in its directory or in memory. -/
def initializeCacheStore (options : Options) (caches : Caches) (path : CachePath) : Sqlite.Store :=
  if options.forkCacheDir then Sqlite.new .directory (caches path) else Sqlite.new .inMemory (fun _ => none)

/-- Open the store over an SQL store, with the directories of caches that are left after pruning. -/
def new (options : Options) (caches : Caches) (provider : Sqlite.Store) : Except StoreError Store :=
  match node.getNetworkParameters with
  | .error e => .error (.remote e)
  | .ok chainID =>
    if options.chainID.any (fun given => given ≠ chainID) then .error .chainIDMismatch
    else match initializeStartBlock E choices node options.forkHeight provider with
      | (.error e,_) => .error e
      | (.ok (forkHeight,forkBlockID),overlay) => .ok {
          overlay := overlay
          chainID := chainID
          forkHeight := forkHeight
          forkBlockID := forkBlockID
          cacheStore := some (initializeCacheStore options caches (cachePath chainID forkBlockID)) }

def blockByHeight (height : Nat) (s : Store) : Except StoreError Block :=
  match DefaultStore.blockByHeight E (Sqlite.dataStore choices) height s.overlay with
  | .ok block => .ok block
  | .error _ => (latestBlockHeight E (Sqlite.dataStore choices) s.overlay).bind fun latest =>
      if latest < height then .error (.blockNotFoundByHeight height)
      else (asked (node.getBlockHeaderByHeight height)).map HeaderMessage.block

def blockByID (blockID : Identifier) (s : Store) : Except StoreError Block :=
  match DefaultStore.blockByID E (Sqlite.dataStore choices) blockID s.overlay with
  | .ok block => blockByHeight E choices node block.height s
  | .error .notFound => (asked (node.getBlockHeaderByID blockID)).bind fun header =>
      blockByHeight E choices node header.height s
  | .error e => .error e

def latestBlock (s : Store) : Except StoreError Block :=
  (latestBlockHeight E (Sqlite.dataStore choices) s.overlay).bind fun height => blockByHeight E choices node height s

/-- Keep a register in the cache. -/
def cacheRegister (id : RegisterID) (value : RegisterValue) : StoreM Store Unit := update fun s =>
  match s.cacheStore with
  | none => s
  | some cache => { s with cacheStore := some (Sqlite.setBytes .ledger (E.registerText id) value cache).2 }

/-- Ask the node for a register and keep the answer in the cache. Above the fork
    height the node is asked for the fork height. -/
def fetchRegister (height : Nat) (id : RegisterID) : StoreM Store RegisterValue := do
  let forkHeight ← view Store.forkHeight
  let lookupHeight := if forkHeight < height then forkHeight else height
  match node.getRegisterValues lookupHeight id with
  | .error .unavailable => fail (.remote .unavailable)
  | response =>
    let value := firstValue response
    cacheRegister E id value
    pure value

/-- A register that the overlay does not have. -/
def forkedRegister (cacheChoices : Sqlite.Choices) (height : Nat) (id : RegisterID) : StoreM Store RegisterValue := do
  let cacheStore ← view Store.cacheStore
  match cacheStore with
  | none => fetchRegister E node height id
  | some cache => match Sqlite.getBytes cacheChoices .ledger (E.registerText id) cache with
    | .ok value => pure value
    | .error .notFound => fetchRegister E node height id
    | .error e => fail e

/-- The value of a register in the ledger at a height. -/
def ledgerByHeight (cacheChoices : Sqlite.Choices) (height : Nat) (id : RegisterID) : StoreM Store RegisterValue := do
  let written ← view fun s => Sqlite.getBytesAtVersion choices .ledger (E.registerText id) height s.overlay
  match written with
  | .ok value => pure value
  | .error .notFound => forkedRegister E node cacheChoices height id
  | .error e => fail e

/-- Run an operation of the SQL store on the overlay. -/
def onOverlay {α : Type} (op : StoreM Sqlite.Store α) : StoreM Store α :=
  inside Store.overlay (fun overlay s => { s with overlay := overlay }) id op

/-- The operations of the store. Reads of registers that are made through it leave the cache as it is. -/
def store (cacheChoices : Sqlite.Choices) : FlowEmulator.Store Store :=
  let sql := Sqlite.store E choices
  { latestBlockHeight := fun s => sql.latestBlockHeight s.overlay
    latestBlock := latestBlock E choices node
    blockByID := blockByID E choices node
    blockByHeight := blockByHeight E choices node
    commitBlock := fun c => onOverlay (sql.commitBlock c)
    systemTransactionsForBlockID := fun id s => sql.systemTransactionsForBlockID id s.overlay
    indexScheduledTransactionID := fun n id => onOverlay (sql.indexScheduledTransactionID n id)
    blockIDByScheduledTransactionID := fun n s => sql.blockIDByScheduledTransactionID n s.overlay
    indexScheduledTransactionBlockID := fun tx id => onOverlay (sql.indexScheduledTransactionBlockID tx id)
    scheduledTransactionBlockIDByTxID := fun id s => sql.scheduledTransactionBlockIDByTxID id s.overlay
    collectionByID := fun id s => sql.collectionByID id s.overlay
    fullCollectionByID := fun id s => sql.fullCollectionByID id s.overlay
    transactionByID := fun id s => sql.transactionByID id s.overlay
    transactionResultByID := fun id s => sql.transactionResultByID id s.overlay
    systemTransactionResultByID := fun block tx s => sql.systemTransactionResultByID block tx s.overlay
    ledgerByHeight := fun height id s => (ledgerByHeight E choices node cacheChoices height id s).1
    eventsByHeight := fun height type s => sql.eventsByHeight height type s.overlay }

def rollbackToBlockHeight (height : Nat) : StoreM Store Unit :=
  onOverlay (Sqlite.rollbackToBlockHeight E choices height)

end
end FlowEmulator.Remote
