import FlowEmulator.Journals

/-!
The execution data of a block, as it is streamed to clients: one chunk for each
collection of the block, with the events of the results of its transactions. To
the last chunk the events `EVM.BlockExecuted` of the block are added. A block
without collections has one chunk, with the events of the EVM alone.
-/
namespace FlowEmulator.ExecutionData
open FlowEmulator.Blockchain FlowEmulator.Chronicle FlowEmulator.Journals FlowEmulator.DefaultStore
open FlowEmulator.Sqlite (Choices)

/-- The texts that stand for the types of events which contracts of the service
    account of a chain declare, by the name of the type. -/
structure Locations where
  typeID : ChainID → String → String
  typeID_injective : ∀ chain, Function.Injective (typeID chain)
  typeID_ne_empty : ∀ chain name, typeID chain name ≠ ""

def eventTypeTransactionExecuted : String := "EVM.TransactionExecuted"
def eventTypeBlockExecuted : String := "EVM.BlockExecuted"

structure LightTransactionResult where
  transactionID : Identifier
  failed : Bool

structure ChunkExecutionData where
  collection : Option (List TransactionBody)
  events : List Event
  transactionResults : List LightTransactionResult

structure BlockExecutionData where
  blockID : Identifier
  chunkExecutionDatas : List ChunkExecutionData

/-- A block that is not there yet is told apart from other failures. -/
inductive StreamError where
  | blockNotReady (e : QueryError)
  | query (e : QueryError)

def blockError : QueryError → StreamError
  | .storage (.blockNotFoundByHeight height) => .blockNotReady (.storage (.blockNotFoundByHeight height))
  | e => .query e

/-- The chunk of a collection, given its transactions and their results. -/
def chunkOf (transactions : List (TransactionBody × AccessTransactionResult)) : ChunkExecutionData where
  collection := some (transactions.map Prod.fst)
  events := transactions.flatMap fun each => each.2.events
  transactionResults := transactions.map fun each => ⟨each.2.transactionID,each.2.errorMessage ≠ ""⟩

/-- The events of the EVM join the chunks of the collections, or make a chunk of their own. -/
def withEvmEvents (evmTxEvents evmBlockEvents : List Event) (chunks : List ChunkExecutionData) : List ChunkExecutionData :=
  match chunks.getLast? with
  | some lastChunk => chunks.dropLast ++ [{ lastChunk with events := lastChunk.events ++ evmBlockEvents }]
  | none => [⟨none,evmTxEvents ++ evmBlockEvents,[]⟩]

section
variable {σ : Type} (E : Encoding) (M : Machine) (config : Config) (B : Backend σ) (L : Locations)

/-- A transaction of a collection and its result. -/
def transactionData (transactionID : Identifier) (b : Blockchain σ) :
    Except QueryError (TransactionBody × AccessTransactionResult) := do
  let tx ← getTransaction E M config B transactionID b
  let txResult ← getTransactionResult B transactionID b
  pure (tx,txResult)

def chunkData (collectionID : Identifier) (b : Blockchain σ) : Except QueryError ChunkExecutionData := do
  let lightCollection ← getCollectionByID B collectionID b
  let transactions ← traverse (fun _ transactionID => transactionData E M config B transactionID b) 0
    lightCollection.transactions
  pure (chunkOf transactions)

/-- The events of the EVM of a type, by the height of their block. -/
def evmEvents (height : Nat) (name : String) (b : Blockchain σ) : Except StoreError (List Event) :=
  getEventsByHeight B height (L.typeID config.getChainID name) b

def getExecutionDataFunc (height : Nat) (b : Blockchain σ) : Except StreamError BlockExecutionData := do
  let block ← (getBlockByHeight B height b).mapError blockError
  let chunks ← (traverse (fun _ collectionID => chunkData E M config B collectionID b) 0 block.guarantees).mapError .query
  let evmTxEvents ← (evmEvents config B L height eventTypeTransactionExecuted b).mapError fun e => .query (.storage e)
  let evmBlockEvents ← (evmEvents config B L height eventTypeBlockExecuted b).mapError fun e => .query (.storage e)
  pure ⟨E.blockID block,withEvmEvents evmTxEvents evmBlockEvents chunks⟩

end

/-- The events that pass a filter, chunk by chunk. -/
def eventsIn (filter : Event → Bool) (data : BlockExecutionData) : List Event :=
  data.chunkExecutionDatas.flatMap fun chunk => chunk.events.filter filter

/-- The execution data at a height can be read, and for each of the two types of
    events of the EVM its chunks have the events of that type of the block, no more
    and no fewer. -/
def Delivered {σ : Type} (E : Encoding) (M : Machine) (config : Config) (B : Backend σ) (L : Locations) (height : Nat)
    (b : Blockchain σ) : Prop :=
  ∃ data, getExecutionDataFunc E M config B L height b = .ok data ∧
    ∀ name ∈ [eventTypeTransactionExecuted,eventTypeBlockExecuted], ∃ events,
      getEventsByHeight B height (L.typeID config.getChainID name) b = .ok events ∧
      (eventsIn (fun event => event.type = L.typeID config.getChainID name) data).Perm events

/-- Only the system chunk transaction emits events of a type. -/
def ChunkOnly (M : Machine) (eventType : String) : Prop :=
  ∀ context tx index registers writes output, M.run context tx index registers = .ok (writes,output) →
    context.kind ≠ .systemChunk → ∀ event ∈ output.events, event.type ≠ eventType

/-! ### The chunks of a block of the chain -/

/-- The events of the results of the transactions of users of a block. -/
def resultEvents (c : BlockContents) : List Event :=
  c.userTransactions.flatMap fun id => ((c.transactionResults.lookup id).map StorableTransactionResult.events).getD []

/-- The events of all chunks of a block. -/
def streamed (L : Locations) (chain : ChainID) (c : BlockContents) : List Event :=
  (if c.userTransactions = [] then eventsOfType (L.typeID chain eventTypeTransactionExecuted) c.events
    else resultEvents c) ++ eventsOfType (L.typeID chain eventTypeBlockExecuted) c.events

section
variable {E : Encoding} {M : Machine} {config : Config} (choices : Choices) {cs seen : List BlockContents} {latest : Nat}
  {b : Blockchain Sqlite.Store} (accounted : Accounted E M config cs seen latest b) {c : BlockContents} (here : c ∈ cs)
include accounted here

theorem accounted_transactionData {id : Identifier} (user : id ∈ c.userTransactions) :
    ∃ each, transactionData E M config (Sqlite.backend E choices) id b = .ok each ∧
      each.2.events = ((c.transactionResults.lookup id).map StorableTransactionResult.events).getD [] := by
  have filled := stored_filled accounted.stored here
  obtain ⟨tx,found,_⟩ := accounted_transaction choices accounted here (.inl user)
  obtain ⟨result,recorded⟩ := Option.isSome_iff_exists.mp (AList.lookup_isSome.mpr ((filled.results id).mpr user))
  refine ⟨(tx,sealedResult id result),?_,by rw [recorded]; rfl⟩
  unfold transactionData
  rw [found,accounted_sealed choices accounted here recorded]
  rfl

theorem accounted_chunkData (collisionFree : CollisionFree E seen) {collectionID : Identifier}
    (guaranteed : collectionID ∈ c.block.guarantees) :
    ∃ chunk, chunkData E M config (Sqlite.backend E choices) collectionID b = .ok chunk ∧ chunk.events = resultEvents c := by
  obtain ⟨_,_,_,found⟩ := stored_guarantee choices accounted.stored collisionFree here guaranteed
  have collection : getCollectionByID (Sqlite.backend E choices) collectionID b = .ok ⟨c.userTransactions⟩ := by
    unfold getCollectionByID
    rw [found]
    rfl
  have each (_ : Nat) (id : Identifier) (user : id ∈ c.userTransactions) := accounted_transactionData choices accounted here user
  obtain ⟨transactions,read,related⟩ := traverse_related each 0
  have events := related_map related (fun _ _ same => same.symm)
  refine ⟨chunkOf transactions,?_,?_⟩
  · unfold chunkData
    rw [collection]
    show (traverse _ 0 c.userTransactions >>= _) = _
    rw [read]
    rfl
  · unfold chunkOf resultEvents
    rw [List.flatMap_def,List.flatMap_def,← events]

theorem accounted_evmEvents (eventType : String) : getEventsByHeight (Sqlite.backend E choices) c.block.height eventType b =
    .ok (eventsOfType eventType c.events) :=
  Sqlite.archived_events choices accounted.stored.archived accounted.stored.recorded.chain here eventType

/-- The execution data of a block of the chain can be read. -/
theorem accounted_executionData (collisionFree : CollisionFree E seen) (L : Locations) : ∃ data,
    getExecutionDataFunc E M config (Sqlite.backend E choices) L c.block.height b = .ok data ∧
      data.chunkExecutionDatas.flatMap ChunkExecutionData.events = streamed L config.getChainID c := by
  have filled := stored_filled accounted.stored here
  have block : getBlockByHeight (Sqlite.backend E choices) c.block.height b = .ok c.block := by
    unfold getBlockByHeight
    rw [show (Sqlite.backend E choices).blockByHeight c.block.height b.storage = .ok c.block from
      Sqlite.recorded_blockByHeight choices accounted.stored.recorded here]
    rfl
  have events (name : String) : evmEvents config (Sqlite.backend E choices) L c.block.height name b =
      .ok (eventsOfType (L.typeID config.getChainID name) c.events) := accounted_evmEvents choices accounted here _
  have answer {chunks : List ChunkExecutionData} (read : traverse (fun _ collectionID =>
      chunkData E M config (Sqlite.backend E choices) collectionID b) 0 c.block.guarantees = .ok chunks) :
      getExecutionDataFunc E M config (Sqlite.backend E choices) L c.block.height b = .ok ⟨E.blockID c.block,withEvmEvents
        (eventsOfType (L.typeID config.getChainID eventTypeTransactionExecuted) c.events)
        (eventsOfType (L.typeID config.getChainID eventTypeBlockExecuted) c.events) chunks⟩ := by
    unfold getExecutionDataFunc
    rw [block,events,events]
    show ((traverse _ 0 c.block.guarantees).mapError _ >>= _) = _
    rw [read]
    rfl
  have parts := filled.collections
  split at parts
  · next none =>
    have empty : c.block.guarantees = [] := by rw [filled.guarantees,parts]; rfl
    refine ⟨_,answer (by rw [empty]; rfl),?_⟩
    unfold streamed
    rw [if_pos none]
    exact List.append_nil _
  · next some =>
    have guaranteed : E.collectionID ⟨c.userTransactions⟩ ∈ c.block.guarantees := by
      rw [filled.guarantees,parts]
      exact List.mem_cons_self
    obtain ⟨chunk,read,same⟩ := accounted_chunkData choices accounted here collisionFree guaranteed
    obtain ⟨only,_,_,_⟩ := stored_guarantee choices accounted.stored collisionFree here guaranteed
    have chunks : traverse (fun _ collectionID => chunkData E M config (Sqlite.backend E choices) collectionID b) 0
        c.block.guarantees = .ok [chunk] := by
      rw [only,traverse,read]
      rfl
    refine ⟨_,answer chunks,?_⟩
    unfold streamed
    rw [if_neg some,← same]
    exact List.append_nil _

end
/-! ### Which events the chunks have -/

/-- The events of one type among those of a type. -/
theorem filter_eventsOfType {eventType other : String} (named : other ≠ "") (events : List Event) :
    (eventsOfType other events).filter (fun event => event.type = eventType) =
      if eventType = other then eventsOfType other events else [] := by
  unfold eventsOfType
  split
  · next same =>
    rw [List.filter_filter]
    refine List.filter_congr (fun event _ => ?_)
    simp [same,named]
  · next differ =>
    rw [List.filter_filter,List.filter_eq_nil_iff]
    intro event _
    simp only [named,decide_false,Bool.false_or,Bool.and_eq_true,decide_eq_true_eq,not_and]
    exact fun one two => differ (one.symm.trans two)

theorem eventsOfType_perm_iff {events front back : List Event} (parts : events.Perm (front ++ back)) {eventType : String}
    (named : eventType ≠ "") : (front.filter fun event => event.type = eventType).Perm (eventsOfType eventType events) ↔
      ∀ event ∈ back, event.type ≠ eventType := by
  have typed (list : List Event) : eventsOfType eventType list = list.filter fun event => event.type = eventType := by
    simp [eventsOfType,named]
  have whole := parts.filter fun event => event.type = eventType
  rw [List.filter_append] at whole
  rw [typed]
  constructor
  · intro same event member
    have lengths := (same.trans whole).length_eq
    rw [List.length_append] at lengths
    have none := List.filter_eq_nil_iff.mp (List.length_eq_zero_iff.mp (Nat.add_eq_left.mp lengths.symm)) event member
    simpa using none
  · intro absent
    have none : back.filter (fun event => event.type = eventType) = [] :=
      List.filter_eq_nil_iff.mpr (fun event member => by simpa using absent event member)
    rw [none,List.append_nil] at whole
    exact whole.symm

theorem credited_resultEvents {E : Encoding} {M : Machine} {c : BlockContents} {users others : List Execution}
    (credited : Credited E M c users others) : resultEvents c = emitted users := by
  unfold resultEvents emitted
  rw [credited.ids,transactionIDs,List.flatMap_map]
  refine List.flatMap_congr (fun run member => ?_)
  obtain ⟨result,found,same⟩ := credited.results run member
  rw [found]
  exact same

section
variable {E : Encoding} {M : Machine} {config : Config} {choices : Choices} {L : Locations} {c : BlockContents}

/-- What is delivered, in terms of the contents of the block. -/
theorem accounted_delivered_iff {cs seen : List BlockContents} {latest : Nat} {b : Blockchain Sqlite.Store}
    (accounted : Accounted E M config cs seen latest b) (here : c ∈ cs) (collisionFree : CollisionFree E seen) :
    Delivered E M config (Sqlite.backend E choices) L c.block.height b ↔
      ∀ name ∈ [eventTypeTransactionExecuted,eventTypeBlockExecuted],
        ((streamed L config.getChainID c).filter fun event => event.type = L.typeID config.getChainID name).Perm
          (eventsOfType (L.typeID config.getChainID name) c.events) := by
  obtain ⟨data,read,chunks⟩ := accounted_executionData choices accounted here collisionFree L
  have events (eventType : String) := accounted_evmEvents choices accounted here eventType
  have filtered (filter : Event → Bool) : eventsIn filter data = (streamed L config.getChainID c).filter filter := by
    rw [← chunks,List.filter_flatMap]
    rfl
  constructor
  · rintro ⟨_,again,each⟩ name known
    rw [read] at again
    cases again
    obtain ⟨_,found,same⟩ := each name known
    rw [events] at found
    cases found
    rw [← filtered]
    exact same
  · intro each
    refine ⟨data,read,fun name known => ⟨_,events _,?_⟩⟩
    rw [filtered]
    exact each name known

/-- The chunk of a block without transactions of users has its events of the EVM. -/
theorem streamed_whole (none : c.userTransactions = []) (chain : ChainID) :
    ∀ name ∈ [eventTypeTransactionExecuted,eventTypeBlockExecuted],
      ((streamed L chain c).filter fun event => event.type = L.typeID chain name).Perm
        (eventsOfType (L.typeID chain name) c.events) := by
  have apart : L.typeID chain eventTypeTransactionExecuted ≠ L.typeID chain eventTypeBlockExecuted :=
    (L.typeID_injective chain).ne (by decide)
  intro name known
  unfold streamed
  rw [if_pos none,List.filter_append,filter_eventsOfType (L.typeID_ne_empty _ _),filter_eventsOfType (L.typeID_ne_empty _ _)]
  rcases List.mem_cons.mp known with rfl | last
  · rw [if_pos rfl,if_neg apart,List.append_nil]
  · rw [List.mem_singleton.mp last,if_neg apart.symm,if_pos rfl,List.nil_append]

/-- The chunk of a block with transactions of users lacks the events
    `EVM.TransactionExecuted` of the other runs. -/
theorem streamed_whole_iff {users others : List Execution} (credited : Credited E M c users others)
    (some : c.userTransactions ≠ []) {chain : ChainID} (chunkOnly : ChunkOnly M (L.typeID chain eventTypeBlockExecuted)) :
    (∀ name ∈ [eventTypeTransactionExecuted,eventTypeBlockExecuted],
      ((streamed L chain c).filter fun event => event.type = L.typeID chain name).Perm
        (eventsOfType (L.typeID chain name) c.events)) ↔
      ∀ run ∈ others, ∀ event ∈ run.output.events, event.type ≠ L.typeID chain eventTypeTransactionExecuted := by
  have apart : L.typeID chain eventTypeTransactionExecuted ≠ L.typeID chain eventTypeBlockExecuted :=
    (L.typeID_injective chain).ne (by decide)
  have transactions : (streamed L chain c).filter (fun event => event.type = L.typeID chain eventTypeTransactionExecuted) =
      (emitted users).filter fun event => event.type = L.typeID chain eventTypeTransactionExecuted := by
    unfold streamed
    rw [if_neg some,credited_resultEvents credited,List.filter_append,filter_eventsOfType (L.typeID_ne_empty _ _),
      if_neg apart,List.append_nil]
  -- the system chunk is not among the runs of users
  have silent : (emitted users).filter (fun event => event.type = L.typeID chain eventTypeBlockExecuted) = [] := by
    refine List.filter_eq_nil_iff.mpr (fun event member => ?_)
    obtain ⟨run,here,emits⟩ := List.mem_flatMap.mp member
    obtain ⟨kind,_,_,ran⟩ := credited.ran run here
    have different := chunkOnly _ _ _ _ _ _ ran (by rw [kind]; decide) event emits
    simpa using different
  have blocks : (streamed L chain c).filter (fun event => event.type = L.typeID chain eventTypeBlockExecuted) =
      eventsOfType (L.typeID chain eventTypeBlockExecuted) c.events := by
    unfold streamed
    rw [if_neg some,credited_resultEvents credited,List.filter_append,silent,filter_eventsOfType (L.typeID_ne_empty _ _),
      if_pos rfl,List.nil_append]
  have emittedBy : (∀ event ∈ emitted others, event.type ≠ L.typeID chain eventTypeTransactionExecuted) ↔
      ∀ run ∈ others, ∀ event ∈ run.output.events, event.type ≠ L.typeID chain eventTypeTransactionExecuted :=
    ⟨fun all run here event emits => all event (List.mem_flatMap.mpr ⟨run,here,emits⟩),fun each event member => by
      obtain ⟨run,here,emits⟩ := List.mem_flatMap.mp member
      exact each run here event emits⟩
  rw [List.forall_mem_cons,List.forall_mem_singleton,transactions,blocks,← emittedBy,
    eventsOfType_perm_iff credited.events (L.typeID_ne_empty _ _)]
  exact and_iff_left (List.Perm.refl _)

/-- In every session, for every stored block: the events of the EVM are delivered
    exactly when the block has no collection, or no system transaction that was run
    for it has emitted an event `EVM.TransactionExecuted`. -/
theorem evm_events_delivered_iff {j : Journal} (journaled : Journaled E M config choices j)
    (collisionFree : CollisionFree E j.session.seen)
    (chunkOnly : ChunkOnly M (L.typeID config.getChainID eventTypeBlockExecuted)) :
    ∀ height block, (Sqlite.backend E choices).blockByHeight height j.session.emulator.storage = .ok block →
      ∃ runs, j.stored[height]? = some runs ∧
        (Delivered E M config (Sqlite.backend E choices) L height j.session.emulator ↔ block.guarantees = [] ∨
          ∀ run ∈ runs, ∀ event ∈ run.output.events,
            event.type ≠ L.typeID config.getChainID eventTypeTransactionExecuted) := by
  obtain ⟨cs,latest,explains⟩ := journaled_explains journaled
  have stored := explains.accounted.stored
  intro height block found
  obtain ⟨c,_,rfl,place⟩ := stored_found stored found
  have here := List.mem_of_getElem? place
  have same : c.block.height = height := by rw [(chain_getElem stored.recorded.chain place).1,Nat.zero_add]
  obtain ⟨inside,_⟩ := List.getElem?_eq_some_iff.mp place
  obtain ⟨runs,entry⟩ : ∃ runs, j.stored[height]? = some runs :=
    ⟨_,List.getElem?_eq_getElem (by rw [explains.count]; exact inside)⟩
  refine ⟨runs,entry,?_⟩
  rw [← same,accounted_delivered_iff explains.accounted here collisionFree,filled_empty (stored_filled stored here)]
  by_cases none : c.userTransactions = []
  · exact iff_of_true (streamed_whole none _) (.inl none)
  · obtain ⟨users,credited⟩ := explains.blocks height c _ place entry none
    rw [streamed_whole_iff credited none chunkOnly]
    exact (or_iff_right none).symm

end

/-! ### A block with a scheduled transaction -/

section
open FlowEmulator.Samples FlowEmulator.Run

/-- The types of the service account of the emulator's chain. -/
def emulatorLocations : Locations where
  typeID _ name := "A.f8d6e0586b0a20c7." ++ name
  typeID_injective _ := fun left right same => by simpa using same
  typeID_ne_empty _ name := by simp

/-- An event of the EVM that the transaction with a number emits. -/
def evmEvent (name : String) (n : Nat) : Event := ⟨"A.f8d6e0586b0a20c7." ++ name,digest n,0,0,[]⟩

/-- A machine on which transactions of users emit `EVM.TransactionExecuted` and
    the system chunk transaction emits `EVM.BlockExecuted`. The process transaction
    asks for one callback, which emits the given events. -/
def evmScheduler (scheduled : List Event) : Machine :=
  { scheduler with
    run := fun context tx index _ =>
      let events := match context.kind with
        | .user => [evmEvent eventTypeTransactionExecuted 10]
        | .scheduled => if tx.gasLimit = 1 then [⟨"pending",digest 1,index,0,[]⟩] else scheduled
        | .systemChunk => [evmEvent eventTypeBlockExecuted 3]
      .ok (∅,⟨[],events,0,0,none⟩) }

/-- The pending block of a new emulator, with one transaction of users that was executed. -/
def evmPending (scheduled : List Event) : PendingBlock :=
  let first := (newPendingBlock numberEncoding tick (genesis (evmScheduler scheduled) .emulator)).addTransaction numberEncoding
    (numbered 10)
  afterRun numberEncoding ⟨⟨.user,first.block numberEncoding,zeroID⟩,numbered 10,∅,
    ⟨[],[evmEvent eventTypeTransactionExecuted 10],0,0,none⟩⟩ first

/-- The journal of a session with a block that has the contents. -/
structure EvmBlock (scheduled : List Event) (j : Journal) (c : BlockContents) : Prop where
  journaled : Journaled numberEncoding (evmScheduler scheduled) scheduledConfig .earliest j
  collisionFree : CollisionFree numberEncoding j.session.seen
  accounted : Accounted numberEncoding (evmScheduler scheduled) scheduledConfig
    [genesisContents (evmScheduler scheduled) scheduledConfig ∅ [],c] j.session.seen 1 j.session.emulator
  block : c.block = (evmPending scheduled).block numberEncoding
  users : c.userTransactions = [digest 10]
  results : resultEvents c = [evmEvent eventTypeTransactionExecuted 10]
  runs : ∃ runs, j.stored[1]? = some runs ∧
    emitted runs = ⟨"pending",digest 1,1,0,[]⟩ :: scheduled ++ [evmEvent eventTypeBlockExecuted 3]
  events : c.events = evmEvent eventTypeTransactionExecuted 10 :: ⟨"pending",digest 1,1,0,[]⟩ :: scheduled ++
    [evmEvent eventTypeBlockExecuted 3]

theorem evm_executed (scheduled : List Event) : ∃ (j : Journal) (storage : Sqlite.Store),
    Journaled numberEncoding (evmScheduler scheduled) scheduledConfig .earliest j ∧
    j.session.emulator = ⟨storage,evmPending scheduled,zeroID,false⟩ ∧
    j.session.seen = [genesisContents (evmScheduler scheduled) scheduledConfig ∅ []] ∧ j.pending = [] ∧ j.stored = [[]] ∧
    Accounted numberEncoding (evmScheduler scheduled) scheduledConfig
      [genesisContents (evmScheduler scheduled) scheduledConfig ∅ []] j.session.seen 0 j.session.emulator := by
  have bootstrapped (registers : Registers) : (evmScheduler scheduled).bootstrap scheduledConfig.getChainID registers =
      .ok (∅,[]) := rfl
  have ran (header : Block) (registers : Registers) : (evmScheduler scheduled).run ⟨.user,header,zeroID⟩ (numbered 10) 0
      registers = .ok (∅,⟨[],[evmEvent eventTypeTransactionExecuted 10],0,0,none⟩) := rfl
  obtain ⟨storage,created,_,executed,accounted⟩ := sample_ran (E := numberEncoding) bootstrapped (numbered 10)
    (fun _ _ => rfl) ran rfl
  let start : Journal := ⟨⟨⟨storage,newPendingBlock numberEncoding tick (genesis (evmScheduler scheduled) .emulator),zeroID,
    false⟩,[genesisContents (evmScheduler scheduled) scheduledConfig ∅ []],[],false⟩,[],[[]]⟩
  have first : Journaled numberEncoding (evmScheduler scheduled) scheduledConfig .earliest start :=
    reachable_initial ⟨⟨.inMemory,tick,false,∅,[],created,bootstrapped _,rfl,rfl,rfl⟩,rfl,rfl⟩
  have second := reachable_step (a := .request (.addTransaction (numbered 10))) first trivial
  have third := reachable_step (a := .request .executeNextTransaction) second trivial
  rw [← executed] at accounted
  exact ⟨_,storage,third,executed,rfl,rfl,rfl,accounted⟩

theorem evm_committed (scheduled : List Event) : ∃ j c, EvmBlock scheduled j c := by
  obtain ⟨j,storage,journaled,emulator,seen,pending,stored,accounted⟩ := evm_executed scheduled
  obtain ⟨c,base,made,counted,sealed,runs⟩ : ∃ c base,
      (sealBlock numberEncoding (evmScheduler scheduled) scheduledConfig (Sqlite.backend numberEncoding .earliest)
        j.session.emulator).1 = .ok c ∧ c.Counted ∧
      Sealed numberEncoding (evmScheduler scheduled) scheduledConfig base (evmPending scheduled)
        (begun numberEncoding (evmScheduler scheduled) scheduledConfig (Sqlite.backend numberEncoding .earliest)
          j.session.emulator) c ∧
      emitted (begun numberEncoding (evmScheduler scheduled) scheduledConfig (Sqlite.backend numberEncoding .earliest)
        j.session.emulator) = ⟨"pending",digest 1,1,0,[]⟩ :: scheduled ++ [evmEvent eventTypeBlockExecuted 3] := by
    have tracked := accounted.underway.tracked
    rw [emulator] at tracked ⊢
    have ended : (attempted numberEncoding (evmScheduler scheduled) scheduledConfig (Sqlite.backend numberEncoding .earliest)
        ⟨storage,evmPending scheduled,zeroID,false⟩).2 = .ok (_,_) := rfl
    have distinct : [digest 1,digest 2,digest 3].Nodup := by decide
    have sealed := sealed_attempted ended
    exact ⟨_,_,rfl,(sealed_counted tracked.listed sealed).mpr ⟨rfl,distinct⟩,sealed,rfl⟩
  have users : c.userTransactions = [digest 10] := sealed_userTransactions sealed
  have results : resultEvents c = [evmEvent eventTypeTransactionExecuted 10] := by
    unfold resultEvents
    rw [users,List.flatMap_singleton,sealed.transactionResults,convert_lookup]
    have found : (evmPending scheduled).transactionResults.lookup (digest 10) =
        some ⟨⟨[],[evmEvent eventTypeTransactionExecuted 10],0,0,none⟩,0⟩ := AList.lookup_insert ..
    rw [found]
    rfl
  have ready : j.session.emulator.pendingBlock.index = j.session.emulator.pendingBlock.size := by
    rw [emulator]
    rfl
  obtain ⟨after,run,_,_,longer⟩ := accounted_commit_succeeds accounted tick ready made counted
  have apart : numberEncoding.blockID (genesisContents (evmScheduler scheduled) scheduledConfig ∅ []).block ≠
      numberEncoding.blockID c.block := by
    rw [sealed.block]
    show digest 0 ≠ digest 1
    decide
  have last : noteStep numberEncoding (evmScheduler scheduled) scheduledConfig .earliest (.request (.commitBlock tick)) j =
      ⟨⟨after,j.session.seen ++ [c],j.session.accepted,false⟩,[],j.stored ++ [j.pending ++
        begun numberEncoding (evmScheduler scheduled) scheduledConfig (Sqlite.backend numberEncoding .earliest)
          j.session.emulator]⟩ := by
    show note numberEncoding (evmScheduler scheduled) scheduledConfig .earliest (.commitBlock tick) j = _
    rw [note_commit_saved run,take_commit_saved run made]
  have next := reachable_step (a := .request (.commitBlock tick)) journaled trivial
  rw [last] at next
  refine ⟨_,c,next,?_,longer,sealed.block,users,results,⟨_,?_,runs⟩,by rw [sealed.events,runs]; rfl⟩
  · rw [seen]
    exact collisionFree_pair apart rfl sealed.collections
  · rw [pending,stored]
    rfl

theorem evm_chunkOnly {scheduled : List Event}
    (silent : ∀ event ∈ scheduled, event.type ≠ emulatorLocations.typeID .emulator eventTypeBlockExecuted) :
    ChunkOnly (evmScheduler scheduled) (emulatorLocations.typeID .emulator eventTypeBlockExecuted) := by
  intro context tx index registers writes output ran other event member
  cases ran
  cases kind : context.kind with
  | user =>
    rw [kind] at member
    rw [List.mem_singleton.mp member]
    decide
  | scheduled =>
    rw [kind] at member
    by_cases process : tx.gasLimit = 1
    · rw [if_pos process] at member
      rw [List.mem_singleton.mp member]
      show "pending" ≠ emulatorLocations.typeID .emulator eventTypeBlockExecuted
      decide
    · rw [if_neg process] at member
      exact silent event member
  | systemChunk => exact absurd kind other

section
variable {scheduled : List Event} {j : Journal} {c : BlockContents} (evm : EvmBlock scheduled j c)
include evm

theorem evm_height : c.block.height = 1 := by
  rw [evm.block]
  rfl

theorem evm_stored :
    (Sqlite.backend numberEncoding .earliest).blockByHeight 1 j.session.emulator.storage = .ok c.block := by
  rw [← evm_height evm]
  exact Sqlite.recorded_blockByHeight .earliest evm.accounted.stored.recorded (List.mem_cons_of_mem _ List.mem_cons_self)

theorem evm_guarantees : c.block.guarantees ≠ [] := by
  rw [evm.block]
  exact List.cons_ne_nil _ _

end

/-- The callback of the block emits nothing, and its transaction of users does. -/
theorem evm_events_delivered_iff_silent : ∃ j block,
    Journaled numberEncoding (evmScheduler []) scheduledConfig .earliest j ∧
    CollisionFree numberEncoding j.session.seen ∧
    ChunkOnly (evmScheduler []) (emulatorLocations.typeID .emulator eventTypeBlockExecuted) ∧
    (Sqlite.backend numberEncoding .earliest).blockByHeight 1 j.session.emulator.storage = .ok block ∧ block.guarantees ≠ [] ∧
    Delivered numberEncoding (evmScheduler []) scheduledConfig (Sqlite.backend numberEncoding .earliest) emulatorLocations 1
      j.session.emulator := by
  obtain ⟨j,c,evm⟩ := evm_committed []
  have chunkOnly := evm_chunkOnly (fun event absent => absurd absent List.not_mem_nil)
  obtain ⟨runs,entry,delivered⟩ := evm_events_delivered_iff evm.journaled evm.collisionFree chunkOnly 1 c.block (evm_stored evm)
  refine ⟨j,c.block,evm.journaled,evm.collisionFree,chunkOnly,evm_stored evm,evm_guarantees evm,delivered.mpr (.inr ?_)⟩
  obtain ⟨_,same,emits⟩ := evm.runs
  rw [entry] at same
  cases same
  intro run here event emitsEvent
  have member : event ∈ emitted runs := List.mem_flatMap.mpr ⟨run,here,emitsEvent⟩
  rw [emits] at member
  rcases List.mem_cons.mp member with rfl | last
  · decide
  · rw [List.mem_singleton.mp last]
    decide

/-- The callback of the block executes a transaction of the EVM. Its event is one
    of the block, and no chunk has it. -/
theorem scheduled_event_lost : ∃ j block data,
    Journaled numberEncoding (evmScheduler [evmEvent eventTypeTransactionExecuted 2]) scheduledConfig .earliest j ∧
    CollisionFree numberEncoding j.session.seen ∧
    ChunkOnly (evmScheduler [evmEvent eventTypeTransactionExecuted 2])
      (emulatorLocations.typeID .emulator eventTypeBlockExecuted) ∧
    (Sqlite.backend numberEncoding .earliest).blockByHeight 1 j.session.emulator.storage = .ok block ∧
    getExecutionDataFunc numberEncoding (evmScheduler [evmEvent eventTypeTransactionExecuted 2]) scheduledConfig
      (Sqlite.backend numberEncoding .earliest) emulatorLocations 1 j.session.emulator = .ok data ∧
    eventsIn (fun event => event.type = emulatorLocations.typeID .emulator eventTypeTransactionExecuted) data =
      [evmEvent eventTypeTransactionExecuted 10] ∧
    getEventsByHeight (Sqlite.backend numberEncoding .earliest) 1
      (emulatorLocations.typeID .emulator eventTypeTransactionExecuted) j.session.emulator =
      .ok [evmEvent eventTypeTransactionExecuted 10,evmEvent eventTypeTransactionExecuted 2] ∧
    ¬ Delivered numberEncoding (evmScheduler [evmEvent eventTypeTransactionExecuted 2]) scheduledConfig
      (Sqlite.backend numberEncoding .earliest) emulatorLocations 1 j.session.emulator := by
  obtain ⟨j,c,evm⟩ := evm_committed [evmEvent eventTypeTransactionExecuted 2]
  have here : c ∈ [genesisContents (evmScheduler [evmEvent eventTypeTransactionExecuted 2]) scheduledConfig ∅ [],c] :=
    List.mem_cons_of_mem _ List.mem_cons_self
  have chunkOnly : ChunkOnly (evmScheduler [evmEvent eventTypeTransactionExecuted 2])
      (emulatorLocations.typeID .emulator eventTypeBlockExecuted) := evm_chunkOnly (by decide)
  obtain ⟨data,read,chunks⟩ :=
    accounted_executionData .earliest evm.accounted here evm.collisionFree emulatorLocations
  have events := accounted_evmEvents .earliest evm.accounted here
    (emulatorLocations.typeID .emulator eventTypeTransactionExecuted)
  rw [evm_height evm] at read events
  have some : c.userTransactions ≠ [] := by
    rw [evm.users]
    exact List.cons_ne_nil _ _
  have delivered : eventsIn (fun event => event.type = emulatorLocations.typeID .emulator eventTypeTransactionExecuted) data =
      [evmEvent eventTypeTransactionExecuted 10] := by
    unfold eventsIn
    rw [← List.filter_flatMap,chunks,streamed,if_neg some,evm.results,evm.events]
    decide
  have block : eventsOfType (emulatorLocations.typeID .emulator eventTypeTransactionExecuted) c.events =
      [evmEvent eventTypeTransactionExecuted 10,evmEvent eventTypeTransactionExecuted 2] := by
    rw [evm.events]
    decide
  rw [block] at events
  refine ⟨j,c.block,data,evm.journaled,evm.collisionFree,chunkOnly,evm_stored evm,read,delivered,events,?_⟩
  rintro ⟨_,again,each⟩
  rw [read] at again
  cases again
  obtain ⟨_,found,same⟩ := each eventTypeTransactionExecuted List.mem_cons_self
  have found := events.symm.trans found
  cases found
  exact absurd ((congrArg List.length delivered).symm.trans same.length_eq) (by decide)

end
end FlowEmulator.ExecutionData
