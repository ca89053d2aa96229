import FlowEmulator.Keys
import FlowEmulator.Store

/-!
The store that keeps the chain in a key-value backend. A commit is a sequence of
separate writes whose list is fixed by the block, its contents and the latest
height read at the start (`commitWrites`, `commitBlock_run`).
-/
namespace FlowEmulator.DefaultStore
open FlowEmulator.Text FlowEmulator.Keys FlowEmulator.Fallible

/-- A key-value backend: reading and writing bytes with and without a version,
    and the height that is current for it. -/
structure DataStore (σ : Type) where
  getBytes : StoreName → Bytes → σ → Except StoreError Bytes
  getBytesAtVersion : StoreName → Bytes → Nat → σ → Except StoreError Bytes
  setBytes : StoreName → Bytes → Bytes → StoreM σ Unit
  setBytesWithVersion : StoreName → Bytes → Bytes → Nat → StoreM σ Unit
  setCurrentHeight : Nat → σ → σ

def decode {α : Type} (codec : Codec α) (bytes : Bytes) : Except StoreError α :=
  match codec.decode bytes with
  | some a => .ok a
  | none => .error .undecodable

@[simp] theorem decode_encode {α : Type} (codec : Codec α) (a : α) : decode codec (codec.encode a) = .ok a := by
  simp [decode,codec.decode_encode]

/-- Decoding does not report bytes as missing. -/
theorem bind_decode_notFound {α : Type} (codec : Codec α) (read : Except StoreError Bytes) :
    read.bind (decode codec) = .error .notFound ↔ read = .error .notFound := by
  cases read with
  | error e => exact ⟨fun missing => by cases missing; rfl,fun missing => by cases missing; rfl⟩
  | ok bytes =>
    refine ⟨fun missing => ?_,fun missing => by cases missing⟩
    change decode codec bytes = .error .notFound at missing
    unfold decode at missing
    split at missing <;> cases missing

section
variable {σ : Type} (E : Encoding) (D : DataStore σ)

def setBlockHeight (height : Nat) : StoreM σ Unit := do
  update (D.setCurrentHeight height)
  D.setBytes .global latestBlock (E.uint64.encode height)

def latestBlockHeight (s : σ) : Except StoreError Nat :=
  (D.getBytes .global Keys.latestBlock s).bind (decode E.uint64)

def latestBlock (s : σ) : Except StoreError Block :=
  (latestBlockHeight E D s).bind fun height =>
    (D.getBytes .blocks (blockHeight height) s).bind (decode E.block)

def storeSystemTransactions (systemTransactions : SystemTransactions) : StoreM σ Unit :=
  D.setBytes .systemTransactions (identifier systemTransactions.blockID)
    (E.systemTransactions.encode systemTransactions)

def indexScheduledTransactionID (scheduledTxID : Nat) (blockID : Identifier) : StoreM σ Unit :=
  D.setBytes .scheduledTransactionIndex (scheduledTransactionID scheduledTxID) blockID.bytes

/-- The block identifier in the bytes of an index entry. -/
def blockIDOfBytes (bytes : Bytes) : Except StoreError Identifier :=
  match Identifier.ofBytes bytes with
  | some id => .ok id
  | none => .error (.invalidBlockIDLength bytes.length)

theorem blockIDOfBytes_bytes (id : Identifier) : blockIDOfBytes id.bytes = .ok id := by
  unfold blockIDOfBytes
  rw [Identifier.ofBytes_bytes]

def blockIDByScheduledTransactionID (scheduledTxID : Nat) (s : σ) : Except StoreError Identifier :=
  (D.getBytes .scheduledTransactionIndex (scheduledTransactionID scheduledTxID) s).bind blockIDOfBytes

def indexScheduledTransactionBlockID (txID blockID : Identifier) : StoreM σ Unit :=
  D.setBytes .scheduledTransactionBlockIndex (identifier txID) blockID.bytes

def scheduledTransactionBlockIDByTxID (txID : Identifier) (s : σ) : Except StoreError Identifier :=
  (D.getBytes .scheduledTransactionBlockIndex (identifier txID) s).bind blockIDOfBytes

/-- The latest height, 0 while there is none. -/
def latestBlockHeightOrZero (s : σ) : Except StoreError Nat :=
  match latestBlockHeight E D s with
  | .error .notFound => .ok 0
  | result => result

def storeBlock (block : Block) : StoreM σ Unit := do
  update (D.setCurrentHeight block.height)
  let latest ← attempt (latestBlockHeightOrZero E D)
  D.setBytes .blocks (blockHeight block.height) (E.block.encode block)
  D.setBytes .blockIndex (identifier (E.blockID block)) (E.uint64.encode block.height)
  if latest ≤ block.height then D.setBytes .global Keys.latestBlock (E.uint64.encode block.height)
  else pure ()

def forkedBlockHeight (s : σ) : Except StoreError Nat :=
  (D.getBytes .global forkedBlock s).bind (decode E.uint64)

def storeForkedBlockHeight (height : Nat) : StoreM σ Unit :=
  D.setBytes .global forkedBlock (E.uint64.encode height)

def blockByHeight (height : Nat) (s : σ) : Except StoreError Block :=
  (D.getBytes .blocks (blockHeight height) s).bind (decode E.block)

def systemTransactionsForBlockID (blockID : Identifier) (s : σ) : Except StoreError SystemTransactions :=
  (D.getBytes .systemTransactions (identifier blockID) s).bind (decode E.systemTransactions)

def blockByID (blockID : Identifier) (s : σ) : Except StoreError Block :=
  ((D.getBytes .blockIndex (identifier blockID) s).bind (decode E.uint64)).bind fun height => blockByHeight E D height s

def collectionByID (colID : Identifier) (s : σ) : Except StoreError LightCollection :=
  (D.getBytes .collections (identifier colID) s).bind (decode E.collection)

def transactionByID (txID : Identifier) (s : σ) : Except StoreError TransactionBody :=
  (D.getBytes .transactions (identifier txID) s).bind (decode E.transaction)

def fullCollectionByID (colID : Identifier) (s : σ) : Except StoreError (List TransactionBody) :=
  (collectionByID E D colID s).bind fun light => light.transactions.mapM fun txID => transactionByID E D txID s

def insertCollection (col : LightCollection) : StoreM σ Unit :=
  D.setBytes .collections (identifier (E.collectionID col)) (E.collection.encode col)

def insertTransaction (tx : TransactionBody) (id : Identifier) : StoreM σ Unit :=
  D.setBytes .transactions (identifier id) (E.transaction.encode tx)

def transactionResultByID (txID : Identifier) (s : σ) : Except StoreError StorableTransactionResult :=
  (D.getBytes .transactionResults (identifier txID) s).bind (decode E.transactionResult)

def systemTransactionResultByID (blockID txID : Identifier) (s : σ) : Except StoreError StorableTransactionResult :=
  (D.getBytes .transactionResults (systemTransactionResult blockID txID) s).bind (decode E.transactionResult)

def insertTransactionResult (txID : Identifier) (result : StorableTransactionResult) : StoreM σ Unit :=
  D.setBytes .transactionResults (identifier txID) (E.transactionResult.encode result)

def insertSystemTransactionResult (blockID txID : Identifier) (result : StorableTransactionResult) : StoreM σ Unit :=
  D.setBytes .transactionResults (systemTransactionResult blockID txID) (E.transactionResult.encode result)

/-- The events of a type, all of them for the empty type. -/
def eventsOfType (eventType : String) (events : List Event) : List Event :=
  events.filter fun event => eventType = "" || event.type = eventType

theorem eventsOfType_all (events : List Event) : eventsOfType "" events = events := by simp [eventsOfType]

def eventsByHeight (height : Nat) (eventType : String) (s : σ) : Except StoreError (List Event) :=
  match D.getBytes .events (blockHeight height) s with
  | .error .notFound => .ok []
  | .error e => .error e
  | .ok bytes => (decode E.events bytes).map (eventsOfType eventType)

def insertEvents (height : Nat) (events : List Event) : StoreM σ Unit :=
  D.setBytes .events (blockHeight height) (E.events.encode events)

def insertExecutionSnapshot (height : Nat) (executionSnapshot : WriteSet) : StoreM σ Unit :=
  executionSnapshot.entries.forM fun entry =>
    D.setBytesWithVersion .ledger (E.registerText entry.1) entry.2 height

/-- The step of a commit that records its system transactions, when it has any. -/
def storeSystemMetadata (c : BlockContents) : StoreM σ Unit :=
  if 0 < c.systemTransactions.length ∨ 0 < c.scheduledTransactionIDs.entries.length then
    storeSystemTransactions E D ⟨E.blockID c.block,c.systemTransactions,c.scheduledTransactionIDs⟩
  else pure ()

def commitBlock (c : BlockContents) : StoreM σ Unit :=
  if c.transactions.entries.length ≠ c.transactionResults.entries.length then
    fail (.transactionsCount c.transactions.entries.length c.transactionResults.entries.length)
  else if c.systemTransactions.length ≠ c.systemTransactionResults.entries.length then
    fail (.systemTransactionsCount c.systemTransactions.length c.systemTransactionResults.entries.length)
  else do
    storeBlock E D c.block
    storeSystemMetadata E D c
    c.collections.forM (insertCollection E D)
    c.transactions.entries.forM fun entry => insertTransaction E D entry.2 entry.1
    c.transactionResults.entries.forM fun entry => insertTransactionResult E D entry.1 entry.2
    c.systemTransactionBodies.entries.forM fun entry => insertTransaction E D entry.2 entry.1
    c.systemTransactionResults.entries.forM fun entry =>
      insertSystemTransactionResult E D (E.blockID c.block) entry.1 entry.2
    insertExecutionSnapshot E D c.block.height c.executionSnapshot
    insertEvents E D c.block.height c.events

/-- The value of a register in the ledger at a height. -/
def ledgerByHeight (height : Nat) (id : RegisterID) (s : σ) : Except StoreError RegisterValue :=
  match D.getBytesAtVersion .ledger (E.registerText id) height s with
  | .error .notFound => .ok []
  | result => result

/-- The chain store over a backend. -/
def store : Store σ where
  latestBlockHeight := latestBlockHeight E D
  latestBlock := latestBlock E D
  blockByID := blockByID E D
  blockByHeight := blockByHeight E D
  commitBlock := commitBlock E D
  systemTransactionsForBlockID := systemTransactionsForBlockID E D
  indexScheduledTransactionID := indexScheduledTransactionID D
  blockIDByScheduledTransactionID := blockIDByScheduledTransactionID D
  indexScheduledTransactionBlockID := indexScheduledTransactionBlockID D
  scheduledTransactionBlockIDByTxID := scheduledTransactionBlockIDByTxID D
  collectionByID := collectionByID E D
  fullCollectionByID := fullCollectionByID E D
  transactionByID := transactionByID E D
  transactionResultByID := transactionResultByID E D
  systemTransactionResultByID := systemTransactionResultByID E D
  ledgerByHeight := ledgerByHeight E D
  eventsByHeight := eventsByHeight E D

end

/-- The events of a height that are decoded from its bytes, none where there are no bytes. -/
theorem eventsByHeight_read {σ : Type} {E : Encoding} {D : DataStore σ} {height : Nat} {s : σ} {stored : Option (List Event)}
    (read : (D.getBytes .events (blockHeight height) s).bind (decode E.events) = found stored) (eventType : String) :
    eventsByHeight E D height eventType s = .ok (eventsOfType eventType (stored.getD [])) := by
  unfold eventsByHeight
  cases bytes : D.getBytes .events (blockHeight height) s with
  | error e =>
    rw [bytes] at read
    cases stored with
    | none =>
      cases read
      rfl
    | some events => cases read
  | ok text =>
    rw [bytes] at read
    cases stored with
    | none => exact absurd ((bind_decode_notFound E.events (.ok text)).mp read) (by simp)
    | some events =>
      change decode E.events text = .ok events at read
      simp only [read]
      rfl

/-- The stores a read looks into. -/
def stores : Query → List StoreName
  | .latestBlockHeight => [.global]
  | .latestBlock => [.global,.blocks]
  | .blockByID _ => [.blockIndex,.blocks]
  | .blockByHeight _ => [.blocks]
  | .systemTransactionsForBlockID _ => [.systemTransactions]
  | .blockIDByScheduledTransactionID _ => [.scheduledTransactionIndex]
  | .scheduledTransactionBlockIDByTxID _ => [.scheduledTransactionBlockIndex]
  | .collectionByID _ => [.collections]
  | .fullCollectionByID _ => [.collections,.transactions]
  | .transactionByID _ => [.transactions]
  | .transactionResultByID _ | .systemTransactionResultByID _ _ => [.transactionResults]
  | .ledgerByHeight _ _ => [.ledger]
  | .eventsByHeight _ _ => [.events]

/-- Two backends hold the same bytes in a store. -/
def SameBytes {σ τ : Type} (D : DataStore σ) (D' : DataStore τ) (s : σ) (t : τ) (name : StoreName) : Prop :=
  (∀ key, D.getBytes name key s = D'.getBytes name key t) ∧
    ∀ key version, D.getBytesAtVersion name key version s = D'.getBytesAtVersion name key version t

/-- An answer depends only on the bytes in the stores that are looked into. -/
theorem answer_congr {σ τ : Type} (E : Encoding) {D : DataStore σ} {D' : DataStore τ} {s : σ} {t : τ} (query : Query)
    (same : ∀ name ∈ stores query, SameBytes D D' s t name) :
    (store E D).answer query s = (store E D').answer query t := by
  cases query with
  | latestBlockHeight =>
    show latestBlockHeight E D s = latestBlockHeight E D' t
    unfold latestBlockHeight
    rw [(same .global (by simp [stores])).1]
  | latestBlock =>
    show latestBlock E D s = latestBlock E D' t
    unfold latestBlock latestBlockHeight
    simp only [(same .global (by simp [stores])).1,(same .blocks (by simp [stores])).1]
  | blockByID id =>
    show blockByID E D id s = blockByID E D' id t
    unfold blockByID blockByHeight
    simp only [(same .blockIndex (by simp [stores])).1,(same .blocks (by simp [stores])).1]
  | blockByHeight height =>
    show blockByHeight E D height s = blockByHeight E D' height t
    unfold blockByHeight
    rw [(same .blocks (by simp [stores])).1]
  | systemTransactionsForBlockID blockID =>
    show systemTransactionsForBlockID E D blockID s = systemTransactionsForBlockID E D' blockID t
    unfold systemTransactionsForBlockID
    rw [(same .systemTransactions (by simp [stores])).1]
  | blockIDByScheduledTransactionID scheduledTxID =>
    show blockIDByScheduledTransactionID D scheduledTxID s = blockIDByScheduledTransactionID D' scheduledTxID t
    unfold blockIDByScheduledTransactionID
    rw [(same .scheduledTransactionIndex (by simp [stores])).1]
  | scheduledTransactionBlockIDByTxID txID =>
    show scheduledTransactionBlockIDByTxID D txID s = scheduledTransactionBlockIDByTxID D' txID t
    unfold scheduledTransactionBlockIDByTxID
    rw [(same .scheduledTransactionBlockIndex (by simp [stores])).1]
  | collectionByID id =>
    show collectionByID E D id s = collectionByID E D' id t
    unfold collectionByID
    rw [(same .collections (by simp [stores])).1]
  | fullCollectionByID id =>
    show fullCollectionByID E D id s = fullCollectionByID E D' id t
    unfold fullCollectionByID collectionByID transactionByID
    simp only [(same .collections (by simp [stores])).1,(same .transactions (by simp [stores])).1]
  | transactionByID id =>
    show transactionByID E D id s = transactionByID E D' id t
    unfold transactionByID
    rw [(same .transactions (by simp [stores])).1]
  | transactionResultByID id =>
    show transactionResultByID E D id s = transactionResultByID E D' id t
    unfold transactionResultByID
    rw [(same .transactionResults (by simp [stores])).1]
  | systemTransactionResultByID blockID txID =>
    show systemTransactionResultByID E D blockID txID s = systemTransactionResultByID E D' blockID txID t
    unfold systemTransactionResultByID
    rw [(same .transactionResults (by simp [stores])).1]
  | ledgerByHeight height register =>
    show ledgerByHeight E D height register s = ledgerByHeight E D' height register t
    unfold ledgerByHeight
    rw [(same .ledger (by simp [stores])).2]
  | eventsByHeight height eventType =>
    show eventsByHeight E D height eventType s = eventsByHeight E D' height eventType t
    unfold eventsByHeight
    rw [(same .events (by simp [stores])).1]

/-! ### What every write keeps, a commit keeps -/

section
variable {σ : Type} {E : Encoding} {D : DataStore σ} {P : σ → Prop}

/-- What the setters of a backend and a change of the current height keep. -/
structure SettersKeep (D : DataStore σ) (P : σ → Prop) : Prop where
  setBytes : ∀ name key value, Keeps P (D.setBytes name key value)
  setBytesWithVersion : ∀ name key value version, Keeps P (D.setBytesWithVersion name key value version)
  setCurrentHeight : ∀ height s, P s → P (D.setCurrentHeight height s)

theorem keeps_storeBlock (setters : SettersKeep D P) (block : Block) : Keeps P (storeBlock E D block) := by
  refine keeps_bind (keeps_update (setters.setCurrentHeight block.height)) (fun _ => ?_)
  refine keeps_bind (keeps_attempt P _) (fun latest => ?_)
  refine keeps_bind (setters.setBytes _ _ _) (fun _ => ?_)
  refine keeps_bind (setters.setBytes _ _ _) (fun _ => ?_)
  split
  · exact setters.setBytes _ _ _
  · exact keeps_pure P ()

theorem keeps_commitBlock (setters : SettersKeep D P) (c : BlockContents) : Keeps P (commitBlock E D c) := by
  unfold commitBlock
  split
  · exact keeps_fail P _
  split
  · exact keeps_fail P _
  refine keeps_bind (keeps_storeBlock setters c.block) (fun _ => ?_)
  have metadata : Keeps P (storeSystemMetadata E D c) := by
    unfold storeSystemMetadata
    split
    · exact setters.setBytes _ _ _
    · exact keeps_pure P ()
  refine keeps_bind metadata (fun _ => ?_)
  refine keeps_bind (keeps_forM (fun _ => setters.setBytes _ _ _) _) (fun _ => ?_)
  refine keeps_bind (keeps_forM (fun _ => setters.setBytes _ _ _) _) (fun _ => ?_)
  refine keeps_bind (keeps_forM (fun _ => setters.setBytes _ _ _) _) (fun _ => ?_)
  refine keeps_bind (keeps_forM (fun _ => setters.setBytes _ _ _) _) (fun _ => ?_)
  refine keeps_bind (keeps_forM (fun _ => setters.setBytes _ _ _) _) (fun _ => ?_)
  refine keeps_bind (keeps_forM (fun _ => setters.setBytesWithVersion _ _ _ _) _) (fun _ => ?_)
  exact setters.setBytes _ _ _

theorem keeps_saveBlock (setters : SettersKeep D P) (static : Identifier → Bool) (c : BlockContents) :
    Keeps P ((store E D).saveBlock E static c) := by
  refine keeps_bind (keeps_commitBlock setters c) (fun _ => ?_)
  refine keeps_bind (keeps_forM (fun _ => setters.setBytes _ _ _) _) (fun _ => ?_)
  refine keeps_forM (fun entry => ?_) _
  split
  · exact keeps_pure P ()
  · exact setters.setBytes _ _ _

end

/-! ### The errors of a commit -/

section
variable {σ : Type} {E : Encoding} {D : DataStore σ} {P : StoreError → Prop}

/-- What a backend can fail with. -/
structure Fails (D : DataStore σ) (P : StoreError → Prop) : Prop where
  getBytes : ∀ name key s e, D.getBytes name key s = .error e → P e
  setBytes : ∀ name key value, Raises P (D.setBytes name key value)
  setBytesWithVersion : ∀ name key value version, Raises P (D.setBytesWithVersion name key value version)
  undecodable : P .undecodable

theorem raises_storeBlock (fails : Fails D P) (block : Block) : Raises P (storeBlock E D block) := by
  have latest (s : σ) (e : StoreError) (failed : latestBlockHeightOrZero E D s = .error e) : P e := by
    unfold latestBlockHeightOrZero latestBlockHeight decode at failed
    rcases read : D.getBytes .global Keys.latestBlock s with other | bytes
    · rw [read] at failed
      have known := fails.getBytes _ _ _ _ read
      cases other with
      | notFound => cases failed
      | _ => cases failed; exact known
    · rw [read] at failed
      rcases text : E.uint64.decode bytes with _ | height
      · simp only [Except.bind,text] at failed
        cases failed
        exact fails.undecodable
      · simp only [Except.bind,text] at failed
        cases failed
  refine raises_bind (raises_update P _) (fun _ => ?_)
  refine raises_bind (raises_attempt latest) (fun _ => ?_)
  refine raises_bind (fails.setBytes _ _ _) (fun _ => ?_)
  refine raises_bind (fails.setBytes _ _ _) (fun _ => ?_)
  split
  · exact fails.setBytes _ _ _
  · exact raises_pure P ()

/-- A commit fails with an error of its backend, or because counts disagree. -/
theorem raises_saveBlock (fails : Fails D P) (static : Identifier → Bool) {c : BlockContents}
    (transactions : c.transactions.entries.length ≠ c.transactionResults.entries.length →
      P (.transactionsCount c.transactions.entries.length c.transactionResults.entries.length))
    (systemTransactions : c.systemTransactions.length ≠ c.systemTransactionResults.entries.length →
      P (.systemTransactionsCount c.systemTransactions.length c.systemTransactionResults.entries.length)) :
    Raises P ((store E D).saveBlock E static c) := by
  have commit : Raises P (commitBlock E D c) := by
    unfold commitBlock
    split
    · next apart => exact fun _ e failed => by cases failed; exact transactions apart
    split
    · next apart => exact fun _ e failed => by cases failed; exact systemTransactions apart
    refine raises_bind (raises_storeBlock fails c.block) (fun _ => ?_)
    have metadata : Raises P (storeSystemMetadata E D c) := by
      unfold storeSystemMetadata
      split
      · exact fails.setBytes _ _ _
      · exact raises_pure P ()
    refine raises_bind metadata (fun _ => ?_)
    refine raises_bind (raises_forM (fun _ => fails.setBytes _ _ _) _) (fun _ => ?_)
    refine raises_bind (raises_forM (fun _ => fails.setBytes _ _ _) _) (fun _ => ?_)
    refine raises_bind (raises_forM (fun _ => fails.setBytes _ _ _) _) (fun _ => ?_)
    refine raises_bind (raises_forM (fun _ => fails.setBytes _ _ _) _) (fun _ => ?_)
    refine raises_bind (raises_forM (fun _ => fails.setBytes _ _ _) _) (fun _ => ?_)
    refine raises_bind (raises_forM (fun _ => fails.setBytesWithVersion _ _ _ _) _) (fun _ => ?_)
    exact fails.setBytes _ _ _
  refine raises_bind commit (fun _ => ?_)
  refine raises_bind (raises_forM (fun _ => fails.setBytes _ _ _) _) (fun _ => ?_)
  refine raises_forM (fun entry => ?_) _
  split
  · exact raises_pure P ()
  · exact fails.setBytes _ _ _

end

/-! ### The writes of a commit -/

/-- One call of a setter. -/
inductive Write where
  | plain (store : StoreName) (key value : Bytes)
  | versioned (store : StoreName) (key value : Bytes) (version : Nat)

section
variable {σ : Type} (E : Encoding) (D : DataStore σ)

def Write.perform : Write → StoreM σ Unit
  | .plain store key value => D.setBytes store key value
  | .versioned store key value version => D.setBytesWithVersion store key value version

/-- The write that makes a block the latest, unless it lies below the latest. -/
def tipWrites (latest : Nat) (block : Block) : List Write :=
  if latest ≤ block.height then [.plain .global Keys.latestBlock (E.uint64.encode block.height)] else []

/-- The writes that store a block, given the latest height before. -/
def blockWrites (latest : Nat) (block : Block) : List Write :=
  .plain .blocks (blockHeight block.height) (E.block.encode block) ::
    .plain .blockIndex (identifier (E.blockID block)) (E.uint64.encode block.height) :: tipWrites E latest block

/-- The record of the system transactions of a block, where there is one. -/
def systemWrites (c : BlockContents) : List Write :=
  if 0 < c.systemTransactions.length ∨ 0 < c.scheduledTransactionIDs.entries.length then
    [.plain .systemTransactions (identifier (E.blockID c.block))
      (E.systemTransactions.encode ⟨E.blockID c.block,c.systemTransactions,c.scheduledTransactionIDs⟩)]
  else []

variable {E} in
/-- A block with system transactions or scheduled ones has a record of both. -/
theorem mem_systemRecord {c : BlockContents} {w : Write} : w ∈ systemWrites E c ↔
    (0 < c.systemTransactions.length ∨ 0 < c.scheduledTransactionIDs.entries.length) ∧
      w = .plain .systemTransactions (identifier (E.blockID c.block))
        (E.systemTransactions.encode ⟨E.blockID c.block,c.systemTransactions,c.scheduledTransactionIDs⟩) := by
  unfold systemWrites
  split
  · next present => rw [List.mem_singleton,and_iff_right present]
  · next absent => exact iff_of_false List.not_mem_nil (fun both => absent both.1)

def collectionWrites (c : BlockContents) : List Write :=
  c.collections.map fun col => .plain .collections (identifier (E.collectionID col)) (E.collection.encode col)

def transactionWrites (bodies : GoMap Identifier TransactionBody) : List Write :=
  bodies.entries.map fun entry => .plain .transactions (identifier entry.1) (E.transaction.encode entry.2)

def resultWrites (c : BlockContents) : List Write :=
  c.transactionResults.entries.map fun entry =>
    .plain .transactionResults (identifier entry.1) (E.transactionResult.encode entry.2)

def systemResultWrites (c : BlockContents) : List Write :=
  c.systemTransactionResults.entries.map fun entry =>
    .plain .transactionResults (systemTransactionResult (E.blockID c.block) entry.1) (E.transactionResult.encode entry.2)

def ledgerWrites (c : BlockContents) : List Write :=
  c.executionSnapshot.entries.map fun entry => .versioned .ledger (E.registerText entry.1) entry.2 c.block.height

/-- The writes of a commit after those of its block. -/
def contentWrites (c : BlockContents) : List Write :=
  systemWrites E c ++ (collectionWrites E c ++ (transactionWrites E c.transactions ++ (resultWrites E c ++
    (transactionWrites E c.systemTransactionBodies ++ (systemResultWrites E c ++ (ledgerWrites E c ++
      [.plain .events (blockHeight c.block.height) (E.events.encode c.events)]))))))

/-- All writes of a commit in order. -/
def commitWrites (latest : Nat) (c : BlockContents) : List Write := blockWrites E latest c.block ++ contentWrites E c

private theorem storeBlock_run (block : Block) (s : σ) {latest : Nat}
    (read : latestBlockHeightOrZero E D (D.setCurrentHeight block.height s) = .ok latest) :
    storeBlock E D block s =
      (blockWrites E latest block).forM (Write.perform D) (D.setCurrentHeight block.height s) := by
  have start : (attempt (latestBlockHeightOrZero E D) : StoreM σ Nat) (D.setCurrentHeight block.height s)
      = (.ok latest,D.setCurrentHeight block.height s) := by simp [read]
  unfold storeBlock blockWrites tipWrites
  rw [bind_ok (update_run _ s),bind_ok start,forM_cons,forM_cons]
  split
  · rw [forM_singleton]; rfl
  · rfl

private theorem storeSystemMetadata_eq (c : BlockContents) :
    storeSystemMetadata E D c = (systemWrites E c).forM (Write.perform D) := by
  unfold storeSystemMetadata systemWrites
  split
  · rw [forM_singleton]; rfl
  · rfl

/-- A commit whose counts agree is its list of writes, one after the other. -/
theorem commitBlock_run (c : BlockContents) (counted : c.Counted) (s : σ) {latest : Nat}
    (read : latestBlockHeightOrZero E D (D.setCurrentHeight c.block.height s) = .ok latest) :
    commitBlock E D c s =
      (commitWrites E latest c).forM (Write.perform D) (D.setCurrentHeight c.block.height s) := by
  unfold commitBlock commitWrites contentWrites
  rw [if_neg (not_not.mpr counted.1),if_neg (not_not.mpr counted.2),forM_append,bind_run,bind_run,
    storeBlock_run E D c.block s read,storeSystemMetadata_eq]
  simp only [forM_append,collectionWrites,transactionWrites,resultWrites,systemResultWrites,ledgerWrites,forM_map,
    forM_singleton]
  rfl

/-- A commit whose counts disagree changes nothing. -/
theorem commitBlock_uncounted (c : BlockContents) (uncounted : ¬ c.Counted) (s : σ) :
    ∃ e, commitBlock E D c s = (.error e,s) := by
  unfold commitBlock
  by_cases first : c.transactions.entries.length = c.transactionResults.entries.length
  · by_cases second : c.systemTransactions.length = c.systemTransactionResults.entries.length
    · exact absurd ⟨first,second⟩ uncounted
    · rw [if_neg (not_not.mpr first),if_pos second]
      exact ⟨_,rfl⟩
  · rw [if_pos first]
    exact ⟨_,rfl⟩

def scheduledIndexWrites (c : BlockContents) : List Write :=
  c.scheduledTransactionIDs.entries.map fun entry =>
    .plain .scheduledTransactionIndex (scheduledTransactionID entry.1) (E.blockID c.block).bytes

def scheduledBlockIndexWrites (static : Identifier → Bool) (c : BlockContents) : List Write :=
  (c.systemTransactionResults.entries.filter (fun entry => !static entry.1)).map fun entry =>
    .plain .scheduledTransactionBlockIndex (identifier entry.1) (E.blockID c.block).bytes

/-- All writes of saving a block in order. -/
def saveWrites (static : Identifier → Bool) (latest : Nat) (c : BlockContents) : List Write :=
  commitWrites E latest c ++ (scheduledIndexWrites E c ++ scheduledBlockIndexWrites E static c)

/-- Saving a block whose counts agree is its list of writes, one after the other. -/
theorem saveBlock_run (static : Identifier → Bool) (c : BlockContents) (counted : c.Counted) (s : σ) {latest : Nat}
    (read : latestBlockHeightOrZero E D (D.setCurrentHeight c.block.height s) = .ok latest) :
    (store E D).saveBlock E static c s =
      (saveWrites E static latest c).forM (Write.perform D) (D.setCurrentHeight c.block.height s) := by
  have committed : (store E D).commitBlock c s = commitBlock E D c s := rfl
  unfold Store.saveBlock saveWrites scheduledIndexWrites scheduledBlockIndexWrites
  rw [forM_append,bind_run,bind_run,committed,commitBlock_run E D c counted s read,forM_append,forM_map,forM_map,
    forM_skip]
  rfl

theorem saveBlock_uncounted (static : Identifier → Bool) (c : BlockContents) (uncounted : ¬ c.Counted) (s : σ) :
    ∃ e, (store E D).saveBlock E static c s = (.error e,s) := by
  obtain ⟨e,refused⟩ := commitBlock_uncounted E D c uncounted s
  exact ⟨e,bind_error refused _⟩

end

namespace Write

def store : Write → StoreName
  | .plain store _ _ => store
  | .versioned store _ _ _ => store
def key : Write → Bytes
  | .plain _ key _ => key
  | .versioned _ key _ _ => key
def value : Write → Bytes
  | .plain _ _ value => value
  | .versioned _ _ value _ => value
/-- The write is one with a version. -/
def isVersioned : Write → Bool
  | .plain _ _ _ => false
  | .versioned _ _ _ _ => true
/-- The version a write is stored under where plain writes have version 0. -/
def version : Write → Nat
  | .plain _ _ _ => 0
  | .versioned _ _ _ version => version

end Write

/-- The writes to one store among some writes. -/
def writesTo (name : StoreName) (writes : List Write) : List Write := writes.filter fun w => w.store = name

theorem writesTo_append (name : StoreName) (front back : List Write) :
    writesTo name (front ++ back) = writesTo name front ++ writesTo name back := List.filter_append ..

theorem writesTo_all {name other : StoreName} {writes : List Write} (all : ∀ w ∈ writes, w.store = other) :
    writesTo name writes = if other = name then writes else [] := by
  split
  · next same => exact List.filter_eq_self.mpr (fun w member => by simpa [all w member] using same)
  · next different => exact List.filter_eq_nil_iff.mpr (fun w member => by simpa [all w member] using different)

theorem store_of_map {α : Type} {name : StoreName} {list : List α} {f : α → Write} (each : ∀ a, (f a).store = name) :
    ∀ w ∈ list.map f, w.store = name := by
  intro w member
  obtain ⟨a,_,rfl⟩ := List.mem_map.mp member
  exact each a

theorem store_of_ite {name : StoreName} {p : Prop} [Decidable p] {write : Write} (same : write.store = name) :
    ∀ w ∈ (if p then [write] else []), w.store = name := by
  intro w member
  split at member
  · rw [List.mem_singleton.mp member]; exact same
  · simp at member

section
variable (E : Encoding)

/-- The writes of a commit to each store. -/
def committedTo (latest : Nat) (c : BlockContents) : StoreName → List Write
  | .global => tipWrites E latest c.block
  | .blockIndex => [.plain .blockIndex (identifier (E.blockID c.block)) (E.uint64.encode c.block.height)]
  | .blocks => [.plain .blocks (blockHeight c.block.height) (E.block.encode c.block)]
  | .systemTransactions => systemWrites E c
  | .collections => collectionWrites E c
  | .transactions => transactionWrites E c.transactions ++ transactionWrites E c.systemTransactionBodies
  | .transactionResults => resultWrites E c ++ systemResultWrites E c
  | .events => [.plain .events (blockHeight c.block.height) (E.events.encode c.events)]
  | .ledger => ledgerWrites E c
  | .scheduledTransactionIndex | .scheduledTransactionBlockIndex => []

/-- The writes of saving a block to each store. -/
def savedTo (static : Identifier → Bool) (latest : Nat) (c : BlockContents) : StoreName → List Write
  | .scheduledTransactionIndex => scheduledIndexWrites E c
  | .scheduledTransactionBlockIndex => scheduledBlockIndexWrites E static c
  | name => committedTo E latest c name

theorem writesTo_commitWrites (latest : Nat) (c : BlockContents) (name : StoreName) :
    writesTo name (commitWrites E latest c) = committedTo E latest c name := by
  have single (w : Write) (rest : List Write) : writesTo name (w :: rest) =
      (if w.store = name then [w] else []) ++ writesTo name rest := by
    unfold writesTo
    rw [List.filter_cons]
    by_cases same : w.store = name <;> simp [same]
  have tip : writesTo name (tipWrites E latest c.block) = if .global = name then tipWrites E latest c.block else [] :=
    writesTo_all (store_of_ite rfl)
  have system : writesTo name (systemWrites E c) = if .systemTransactions = name then systemWrites E c else [] :=
    writesTo_all (store_of_ite rfl)
  have collections : writesTo name (collectionWrites E c) = if .collections = name then collectionWrites E c else [] :=
    writesTo_all (store_of_map (fun _ => rfl))
  have transactions (bodies : GoMap Identifier TransactionBody) : writesTo name (transactionWrites E bodies) =
      if .transactions = name then transactionWrites E bodies else [] :=
    writesTo_all (store_of_map (fun _ => rfl))
  have results : writesTo name (resultWrites E c) = if .transactionResults = name then resultWrites E c else [] :=
    writesTo_all (store_of_map (fun _ => rfl))
  have systemResults : writesTo name (systemResultWrites E c) =
      if .transactionResults = name then systemResultWrites E c else [] :=
    writesTo_all (store_of_map (fun _ => rfl))
  have ledger : writesTo name (ledgerWrites E c) = if .ledger = name then ledgerWrites E c else [] :=
    writesTo_all (store_of_map (fun _ => rfl))
  unfold commitWrites blockWrites contentWrites
  simp only [List.cons_append,single,writesTo_append,tip,system,collections,transactions,results,systemResults,ledger]
  cases name <;> simp [committedTo,writesTo,Write.store]

theorem writesTo_saveWrites (static : Identifier → Bool) (latest : Nat) (c : BlockContents) (name : StoreName) :
    writesTo name (saveWrites E static latest c) = savedTo E static latest c name := by
  have scheduled : writesTo name (scheduledIndexWrites E c) =
      if .scheduledTransactionIndex = name then scheduledIndexWrites E c else [] :=
    writesTo_all (store_of_map (fun _ => rfl))
  have scheduledBlock : writesTo name (scheduledBlockIndexWrites E static c) =
      if .scheduledTransactionBlockIndex = name then scheduledBlockIndexWrites E static c else [] :=
    writesTo_all (store_of_map (fun _ => rfl))
  unfold saveWrites
  rw [writesTo_append,writesTo_append,writesTo_commitWrites,scheduled,scheduledBlock]
  cases name <;> simp [committedTo,savedTo]

/-- Only the writes to the globals depend on the latest height. -/
theorem writesTo_commitWrites_fixed {name : StoreName} (proper : name ≠ .global) (latest : Nat) (c : BlockContents) :
    writesTo name (commitWrites E latest c) = committedTo E 0 c name := by
  rw [writesTo_commitWrites]
  cases name with
  | global => exact absurd rfl proper
  | _ => rfl

theorem writesTo_saveWrites_fixed {name : StoreName} (proper : name ≠ .global) (static : Identifier → Bool)
    (latest : Nat) (c : BlockContents) : writesTo name (saveWrites E static latest c) = savedTo E static 0 c name := by
  rw [writesTo_saveWrites]
  cases name with
  | global => exact absurd rfl proper
  | _ => rfl

variable {E} in
/-- The ledger is written with versions, and nothing else is. -/
theorem savedTo_isVersioned {static : Identifier → Bool} {name : StoreName} {latest : Nat} {c : BlockContents} {w : Write}
    (written : w ∈ savedTo E static latest c name) : w.isVersioned = decide (name = .ledger) := by
  have mapped {α : Type} {list : List α} {f : α → Write} {is : Bool} (all : ∀ a, (f a).isVersioned = is)
      (member : w ∈ list.map f) : w.isVersioned = is := by
    obtain ⟨a,_,rfl⟩ := List.mem_map.mp member
    exact all a
  have optional {p : Prop} [Decidable p] {write : Write} (plain : write.isVersioned = false)
      (member : w ∈ if p then [write] else []) : w.isVersioned = false := by
    split at member
    · rw [List.mem_singleton.mp member]; exact plain
    · cases member
  cases name with
  | ledger => exact mapped (fun _ => rfl) written
  | global => exact optional rfl written
  | blockIndex => rw [List.mem_singleton.mp written]; rfl
  | blocks => rw [List.mem_singleton.mp written]; rfl
  | systemTransactions => exact optional rfl written
  | collections => exact mapped (fun _ => rfl) written
  | transactions => exact (List.mem_append.mp written).elim (mapped fun _ => rfl) (mapped fun _ => rfl)
  | transactionResults => exact (List.mem_append.mp written).elim (mapped fun _ => rfl) (mapped fun _ => rfl)
  | events => rw [List.mem_singleton.mp written]; rfl
  | scheduledTransactionIndex => exact mapped (fun _ => rfl) written
  | scheduledTransactionBlockIndex => exact mapped (fun _ => rfl) written

variable {E} in
/-- Only the ledger is written with versions. -/
theorem savedTo_version {static : Identifier → Bool} {name : StoreName} (other : name ≠ .ledger) {latest : Nat}
    {c : BlockContents} {w : Write} (written : w ∈ savedTo E static latest c name) : w.version = 0 := by
  have plain := savedTo_isVersioned written
  rw [decide_eq_false other] at plain
  cases w with
  | plain _ _ _ => rfl
  | versioned _ _ _ _ => cases plain

variable {E} in
/-- Of the writes of a block, exactly those to the ledger have a version. -/
theorem saveWrites_isVersioned {static : Identifier → Bool} {latest : Nat} {c : BlockContents} {w : Write}
    (written : w ∈ saveWrites E static latest c) : w.isVersioned = decide (w.store = .ledger) := by
  have here : w ∈ savedTo E static latest c w.store := by
    rw [← writesTo_saveWrites]
    exact List.mem_filter.mpr ⟨written,decide_eq_true rfl⟩
  exact savedTo_isVersioned here

variable {E} in
/-- The writes to a store go to it. -/
theorem savedTo_store {static : Identifier → Bool} {latest : Nat} {c : BlockContents} {name : StoreName} {w : Write}
    (written : w ∈ savedTo E static latest c name) : w.store = name := by
  rw [← writesTo_saveWrites] at written
  simpa using (List.mem_filter.mp written).2

end
end FlowEmulator.DefaultStore
