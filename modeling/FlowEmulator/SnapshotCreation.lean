import FlowEmulator.Queries
import FlowEmulator.RollbackGuard
import FlowEmulator.Running
import FlowEmulator.Sessions

/-!
Creating a snapshot of a running emulator. The store copies its database and
answers as before, but the emulator is reloaded afterwards and begins a new
pending block. So nothing is disturbed exactly when the pending block has no
transactions.
-/
namespace FlowEmulator.Blockchain
open FlowEmulator.Fallible FlowEmulator.Run FlowEmulator.DefaultStore FlowEmulator.RollbackGuard

section
variable {σ : Type} (E : Encoding) (M : Machine) (config : Config) (B : Backend σ)

/-- Clients read the same as before, and the transactions of the pending block are still there. -/
structure Undisturbed (b after : Blockchain σ) : Prop where
  answers : ∀ query, B.answer query after.storage = B.answer query b.storage
  transactions : ∀ id, getTransaction E M config B id after = getTransaction E M config B id b
  results : ∀ id, getTransactionResult B id after = getTransactionResult B id b
  pending : ∀ id, b.pendingBlock.containsTransaction id = true → after.pendingBlock.containsTransaction id = true

/-- Creating a snapshot changes nothing that the store answers. -/
def Copying : Prop := ∀ name s after, B.createSnapshot name s = (.ok (),after) → ∀ query, B.answer query after = B.answer query s

end

/-! ### The stores -/

theorem sqlite_copying (E : Encoding) (choices : Sqlite.Choices) : Copying (Sqlite.backend E choices) := by
  intro name s after created query
  have same := Sqlite.createSnapshot_database created
  exact answer_congr E query (fun name _ => Sqlite.sameBytes_of_table (by rw [same]))

/-- A register that is not in the overlay does not depend on it. -/
theorem remote_forkedRegister {E : Encoding} {node : Remote.Node} {cacheChoices : Sqlite.Choices} (s : Remote.Store)
    (sql : Sqlite.Store) (height : Nat) (register : RegisterID) :
    (Remote.forkedRegister E node cacheChoices height register { s with overlay := sql }).1 =
      (Remote.forkedRegister E node cacheChoices height register s).1 := by
  have fetched : (Remote.fetchRegister E node height register { s with overlay := sql }).1 =
      (Remote.fetchRegister E node height register s).1 := by
    unfold Remote.fetchRegister
    rw [bind_ok (view_run _ _),bind_ok (view_run _ _)]
    dsimp only
    generalize (if s.forkHeight < height then s.forkHeight else height) = lookupHeight
    rcases node.getRegisterValues lookupHeight register with e | values
    · cases e <;> rfl
    · rfl
  unfold Remote.forkedRegister
  rw [bind_ok (view_run _ _),bind_ok (view_run _ _)]
  obtain ⟨overlay,chainID,forkHeight,forkBlockID,cacheStore⟩ := s
  cases cacheStore with
  | none => exact fetched
  | some cache =>
    dsimp only
    rcases Sqlite.getBytes cacheChoices .ledger (E.registerText register) cache with e | value
    · cases e with
      | notFound => exact fetched
      | _ => rfl
    · rfl

/-- What the store over a remote chain answers depends on the content of the overlay only. -/
theorem remote_answer {E : Encoding} {choices : Sqlite.Choices} {node : Remote.Node} {cacheChoices : Sqlite.Choices}
    {s : Remote.Store} {sql : Sqlite.Store} (same : sql.database = s.overlay.database) (query : Query) :
    (Remote.store E choices node cacheChoices).answer query { s with overlay := sql } =
      (Remote.store E choices node cacheChoices).answer query s := by
  have own (query : Query) : (Sqlite.store E choices).answer query sql = (Sqlite.store E choices).answer query s.overlay :=
    answer_congr E query (fun name _ => Sqlite.sameBytes_of_table (by rw [same]))
  have latest : latestBlockHeight E (Sqlite.dataStore choices) sql = latestBlockHeight E (Sqlite.dataStore choices) s.overlay :=
    own .latestBlockHeight
  have byHeight (height : Nat) : Remote.blockByHeight E choices node height { s with overlay := sql } =
      Remote.blockByHeight E choices node height s := by
    have found : DefaultStore.blockByHeight E (Sqlite.dataStore choices) height sql =
      DefaultStore.blockByHeight E (Sqlite.dataStore choices) height s.overlay := own (.blockByHeight height)
    unfold Remote.blockByHeight
    dsimp only
    rw [found,latest]
  cases query with
  | latestBlock =>
    show Remote.latestBlock E choices node { s with overlay := sql } = Remote.latestBlock E choices node s
    unfold Remote.latestBlock
    dsimp only
    rw [latest]
    simp only [byHeight]
  | blockByID id =>
    have found : DefaultStore.blockByID E (Sqlite.dataStore choices) id sql =
      DefaultStore.blockByID E (Sqlite.dataStore choices) id s.overlay := own (.blockByID id)
    show Remote.blockByID E choices node id { s with overlay := sql } = Remote.blockByID E choices node id s
    unfold Remote.blockByID
    dsimp only
    rw [found]
    simp only [byHeight]
  | blockByHeight height => exact byHeight height
  | ledgerByHeight height register =>
    have written : Sqlite.getBytesAtVersion choices .ledger (E.registerText register) height sql =
        Sqlite.getBytesAtVersion choices .ledger (E.registerText register) height s.overlay := by
      unfold Sqlite.getBytesAtVersion
      split
      · exact (Sqlite.sameBytes_of_table (by rw [same])).2 (E.registerText register) height
      · rfl
    show (Remote.ledgerByHeight E choices node cacheChoices height register { s with overlay := sql }).1 =
      (Remote.ledgerByHeight E choices node cacheChoices height register s).1
    unfold Remote.ledgerByHeight
    rw [bind_ok (view_run _ _),bind_ok (view_run _ _)]
    dsimp only
    rw [written]
    rcases Sqlite.getBytesAtVersion choices .ledger (E.registerText register) height s.overlay with e | value
    · cases e with
      | notFound => exact remote_forkedRegister s sql height register
      | _ => rfl
    · rfl
  | latestBlockHeight => exact own .latestBlockHeight
  | systemTransactionsForBlockID blockID => exact own (.systemTransactionsForBlockID blockID)
  | blockIDByScheduledTransactionID scheduledTxID => exact own (.blockIDByScheduledTransactionID scheduledTxID)
  | scheduledTransactionBlockIDByTxID txID => exact own (.scheduledTransactionBlockIDByTxID txID)
  | collectionByID id => exact own (.collectionByID id)
  | fullCollectionByID id => exact own (.fullCollectionByID id)
  | transactionByID id => exact own (.transactionByID id)
  | transactionResultByID id => exact own (.transactionResultByID id)
  | systemTransactionResultByID blockID txID => exact own (.systemTransactionResultByID blockID txID)
  | eventsByHeight height eventType => exact own (.eventsByHeight height eventType)

theorem remote_copying (E : Encoding) (choices : Sqlite.Choices) (node : Remote.Node) (cacheChoices : Sqlite.Choices) :
    Copying (Remote.backend E choices node cacheChoices) := by
  intro name s after created query
  have layered : forkLayer.run (Sqlite.createSnapshot name) s = (.ok (),after) := created
  obtain ⟨sql,run,rfl⟩ := Layer.run_result layered
  exact remote_answer (Sqlite.createSnapshot_database run) query

theorem mode_copying (E : Encoding) (choices : Sqlite.Choices) (mode : Mode) : Copying (mode.backend E choices) := by
  cases mode with
  | plain => exact sqlite_copying E choices
  | fork node options cachesLeft cacheChoices => exact remote_copying E choices node cacheChoices

/-! ### The emulator -/

section
variable {σ : Type} {E : Encoding} {M : Machine} {config : Config} {B : Backend σ} {b after : Blockchain σ}

/-- An emulator whose store has its latest block is left with the store's copy and a new pending block. -/
theorem createSnapshot_left (copying : Copying B) {latest : Block} (found : B.latestBlock b.storage = .ok latest) {tick : Tick}
    {name : String} (done : createSnapshot E M config B tick name b = (.ok (),after)) :
    (∀ query, B.answer query after.storage = B.answer query b.storage) ∧
      after.pendingBlock = newPendingBlock E tick latest := by
  unfold createSnapshot at done
  rw [bind_ok (view_run _ b)] at done
  split at done
  · rcases run : B.createSnapshot name b.storage with ⟨e | _,storage⟩
    · rw [bind_error (inStorage_error run)] at done
      cases done
    · have answers := copying name b.storage storage run
      have still : B.latestBlock storage = .ok latest := (answers .latestBlock).trans found
      rw [bind_ok (inStorage_ok run),reload_ok tick still] at done
      cases done
      exact ⟨answers,rfl⟩
  · cases done

/-- Two emulators whose stores answer the same and whose pending blocks have no
    transactions answer the same to clients. -/
theorem undisturbed_of_empty (answers : ∀ query, B.answer query after.storage = B.answer query b.storage)
    (vacant : ∀ id, b.pendingBlock.transactions.lookup id = none) (still : ∀ id, after.pendingBlock.transactions.lookup id = none) :
    Undisturbed E M config B b after := by
  refine ⟨answers,fun id => ?_,fun id => ?_,fun id contained => ?_⟩
  · have stored : B.transactionByID id after.storage = B.transactionByID id b.storage := answers (.transactionByID id)
    unfold getTransaction
    rw [vacant id,still id,stored]
  · have stored : B.transactionResultByID id after.storage = B.transactionResultByID id b.storage :=
      answers (.transactionResultByID id)
    have scheduled : B.scheduledTransactionBlockIDByTxID id after.storage = B.scheduledTransactionBlockIDByTxID id b.storage :=
      answers (.scheduledTransactionBlockIDByTxID id)
    have system (blockID : Identifier) : systemResult B blockID id after = systemResult B blockID id b := by
      have read : B.systemTransactionResultByID blockID id after.storage = B.systemTransactionResultByID blockID id b.storage :=
        answers (.systemTransactionResultByID blockID id)
      unfold systemResult
      rw [read]
    unfold getTransactionResult PendingBlock.containsTransaction
    rw [vacant id,still id,stored,scheduled]
    simp only [system]
  · unfold PendingBlock.containsTransaction at contained
    rw [vacant id] at contained
    cases contained

/-- A pending block without transactions has none under any identifier. -/
theorem lookup_empty {p : PendingBlock} (listed : Listed E p) (empty : p.empty = true) (id : Identifier) :
    p.transactions.lookup id = none := by
  have nothing : p.transactionIDs = [] := List.eq_nil_of_length_eq_zero (of_decide_eq_true empty)
  rw [AList.lookup_eq_none,listed.keys,nothing]
  exact List.not_mem_nil

/-- A snapshot is created without disturbing anything exactly when the pending block has no transactions. -/
theorem createSnapshot_iff (copying : Copying B) (listed : Listed E b.pendingBlock) {latest : Block}
    (found : B.latestBlock b.storage = .ok latest) {tick : Tick} {name : String}
    (done : createSnapshot E M config B tick name b = (.ok (),after)) :
    Undisturbed E M config B b after ↔ b.pendingBlock.empty = true := by
  obtain ⟨answers,fresh⟩ := createSnapshot_left copying found done
  have still (id : Identifier) : after.pendingBlock.transactions.lookup id = none := by
    rw [fresh]
    rfl
  constructor
  · intro undisturbed
    refine decide_eq_true ?_
    by_contra some
    -- the first transaction of the block would still have to be there
    obtain ⟨id,member⟩ := List.exists_mem_of_length_pos (Nat.pos_of_ne_zero some)
    have kept := undisturbed.pending id ((listed_contains listed id).mpr member)
    unfold PendingBlock.containsTransaction at kept
    rw [still id] at kept
    cases kept
  · intro empty
    exact undisturbed_of_empty answers (lookup_empty listed empty) still

end

section
variable {E : Encoding} {M : Machine} {config : Config} {choices : Sqlite.Choices} {mode : Mode}

/-- What is reached from a first start on an empty database is reached in a run. -/
theorem reached_running {b : Blockchain mode.Storage} (reached : RollbackGuard.Reached E M config choices mode b) :
    Running E M config (mode.backend E choices) (mode.reopen E choices) b := by
  obtain ⟨url,caches,storage,tick,autoMine,first,actions,_,started,throughout,last⟩ := reached
  exact reachable_any ⟨first,actions,⟨tick,autoMine,storage,started⟩,throughout,last⟩

theorem reached_act {b : Blockchain mode.Storage} (reached : RollbackGuard.Reached E M config choices mode b) {a : Action}
    (admitted : Admitted E choices mode b a) :
    RollbackGuard.Reached E M config choices mode (act E M config (mode.backend E choices) (mode.reopen E choices) a b) := by
  obtain ⟨url,caches,storage,tick,autoMine,first,actions,opened,started,throughout,rfl⟩ := reached
  refine ⟨url,caches,storage,tick,autoMine,first,actions ++ [a],opened,started,?_,?_⟩
  · exact throughout_append.mpr ⟨throughout,admitted,trivial⟩
  · rw [play_append,play_cons,play_nil]

/-- In every emulator that is reached, over a remote chain or not, creating a
    snapshot disturbs nothing exactly when the pending block has no transactions. -/
theorem createSnapshot_undisturbed_iff (faithful : mode.Faithful) {b after : Blockchain mode.Storage}
    (reached : RollbackGuard.Reached E M config choices mode b) {tick : Tick} {name : String}
    (done : createSnapshot E M config (mode.backend E choices) tick name b = (.ok (),after)) :
    Undisturbed E M config (mode.backend E choices) b after ↔ b.pendingBlock.empty = true := by
  obtain ⟨latest,standing⟩ := reached_standing faithful reached
  obtain ⟨block,found,_⟩ := sound_latestBlock (layered_mode E choices mode) standing.sound
  exact createSnapshot_iff (mode_copying E choices mode) (running_lasting lasting_listed (reached_running reached)) found done

end
/-! ### A snapshot of an emulator with a pending transaction -/

section
open FlowEmulator.Samples FlowEmulator.Chronicle

/-- An emulator that has started on an empty store has no snapshots. -/
theorem first_storage {E : Encoding} {M : Machine} {config : Config} {choices : Sqlite.Choices} {tick : Tick} {autoMine : Bool}
    {url : Sqlite.Url} {b : Blockchain Sqlite.Store}
    (started : newBlockchain E M config (Sqlite.backend E choices) tick autoMine (Sqlite.fresh url) = .ok b) :
    b.storage.url = url ∧ ∀ name, b.storage.databases (.snapshot name) = none := by
  obtain ⟨_,_,_,wrote,_⟩ := LinkedChain.first_wrote (Sqlite.fresh_tip E url) started
  have others (name : String) : Sqlite.DatabaseName.snapshot name ≠ (Sqlite.fresh url).db := by
    intro same
    cases same
  exact ⟨wrote.url,fun name => (wrote.others _ (others name)).trans (Sqlite.fresh_others url (others name))⟩

/-- A new emulator over a database in memory, and the same after a snapshot was created. -/
theorem snapshot_sample : ∃ b : Blockchain Sqlite.Store,
    RollbackGuard.Reached numberEncoding machine config .earliest .plain b ∧
    b.pendingBlock = newPendingBlock numberEncoding tick (genesis machine .emulator) ∧
    (∃ latest, (Sqlite.backend numberEncoding .earliest).latestBlock b.storage = .ok latest) ∧
    b.storage.url = .inMemory ∧ b.storage.databases (.snapshot "a") = none ∧
    ∀ id, (Sqlite.backend numberEncoding .earliest).transactionByID id b.storage = .error .notFound := by
  have bootstrapped (registers : Registers) : machine.bootstrap config.getChainID registers = .ok (∅,[]) := rfl
  obtain ⟨storage,created,accounted,missing⟩ := sample_begun (E := numberEncoding) bootstrapped false
  obtain ⟨url,free⟩ := first_storage created
  obtain ⟨last,_,_,found⟩ := Sqlite.recorded_latestBlock .earliest accounted.stored.recorded (Nat.le_refl 0)
  exact ⟨_,⟨.inMemory,Remote.noCaches,_,tick,false,_,[],rfl,created,trivial,rfl⟩,rfl,⟨last.block,found⟩,url,free "a",missing⟩

/-- Where a snapshot can be created it is. -/
theorem createSnapshot_succeeds {E : Encoding} {M : Machine} {config : Config} {choices : Sqlite.Choices}
    {b : Blockchain Sqlite.Store} {latest : Block} (found : (Sqlite.backend E choices).latestBlock b.storage = .ok latest)
    (supported : b.storage.url = .inMemory) {name : String} (free : b.storage.databases (.snapshot name) = none) (tick : Tick) :
    ∃ after, createSnapshot E M config (Sqlite.backend E choices) tick name b = (.ok (),after) := by
  have able : Sqlite.supportSnapshotsWithCurrentConfig b.storage = true := by
    unfold Sqlite.supportSnapshotsWithCurrentConfig
    rw [supported]
    rfl
  have supports : (Sqlite.backend E choices).supportSnapshots b.storage = true := able
  obtain ⟨storage,run⟩ : ∃ storage, Sqlite.createSnapshot name b.storage = (.ok (),storage) := by
    unfold Sqlite.createSnapshot
    rw [if_pos able]
    split
    · next content taken =>
      rw [free] at taken
      cases taken
    · exact ⟨_,rfl⟩
  have still : (Sqlite.backend E choices).latestBlock storage = .ok latest :=
    (sqlite_copying E choices name b.storage storage run .latestBlock).trans found
  have created : (Sqlite.backend E choices).createSnapshot name b.storage = (.ok (),storage) := run
  unfold createSnapshot
  rw [bind_ok (view_run _ b),if_pos supports,bind_ok (inStorage_ok created),reload_ok tick still]
  exact ⟨_,rfl⟩

theorem createSnapshot_undisturbed_iff_empty : ∃ b after : Blockchain Sqlite.Store,
    RollbackGuard.Reached numberEncoding machine config .earliest .plain b ∧
    createSnapshot numberEncoding machine config (Sqlite.backend numberEncoding .earliest) tick "a" b = (.ok (),after) ∧
    Undisturbed numberEncoding machine config (Sqlite.backend numberEncoding .earliest) b after := by
  obtain ⟨b,reached,pending,⟨_,found⟩,url,free,_⟩ := snapshot_sample
  have created : ∃ after, createSnapshot numberEncoding machine config (Sqlite.backend numberEncoding .earliest) tick "a" b =
      (.ok (),after) := createSnapshot_succeeds found url free tick
  obtain ⟨after,done⟩ := created
  have faithful : Mode.plain.Faithful := trivial
  refine ⟨b,after,reached,done,(createSnapshot_undisturbed_iff faithful reached done).mpr ?_⟩
  rw [pending]
  rfl

/-- A transaction is added to a new emulator and a snapshot is created. The
    transaction is gone then: it is not found any more, and it is not pending. -/
theorem createSnapshot_drops_transaction : ∃ b after : Blockchain Sqlite.Store,
    RollbackGuard.Reached numberEncoding machine config .earliest .plain b ∧
    createSnapshot numberEncoding machine config (Sqlite.backend numberEncoding .earliest) tick "a" b = (.ok (),after) ∧
    getTransaction numberEncoding machine config (Sqlite.backend numberEncoding .earliest) (digest 10) b = .ok (numbered 10) ∧
    getTransaction numberEncoding machine config (Sqlite.backend numberEncoding .earliest) (digest 10) after =
      .error (.transactionNotFound (digest 10)) ∧
    b.pendingBlock.containsTransaction (digest 10) = true ∧ after.pendingBlock.containsTransaction (digest 10) = false := by
  obtain ⟨⟨storage,_,entropy,mining⟩,reached,rfl,⟨latest,found⟩,url,free,missing⟩ := snapshot_sample
  let b : Blockchain Sqlite.Store := ⟨storage,(newPendingBlock numberEncoding tick
    (genesis machine .emulator)).addTransaction numberEncoding (numbered 10),entropy,mining⟩
  have added : act numberEncoding machine config (Sqlite.backend numberEncoding .earliest) (Mode.plain.reopen numberEncoding .earliest)
      (.request (.addTransaction (numbered 10))) ⟨storage,newPendingBlock numberEncoding tick (genesis machine .emulator),
        entropy,mining⟩ = b := congrArg Prod.snd (addTransaction_ok rfl rfl (missing _) rfl)
  have created : ∃ after, createSnapshot numberEncoding machine config (Sqlite.backend numberEncoding .earliest) tick "a" b =
      (.ok (),after) := createSnapshot_succeeds (b := b) found url free tick
  obtain ⟨after,done⟩ := created
  obtain ⟨answers,fresh⟩ := createSnapshot_left (sqlite_copying _ _) (b := b) found done
  have gone : (Sqlite.backend numberEncoding .earliest).transactionByID (digest 10) after.storage = .error .notFound :=
    (answers (.transactionByID (digest 10))).trans (missing _)
  refine ⟨b,after,?_,done,rfl,?_,rfl,?_⟩
  · rw [← added]
    exact reached_act reached trivial
  · unfold getTransaction
    rw [fresh,gone]
    rfl
  · rw [fresh]
    rfl

end
end FlowEmulator.Blockchain
