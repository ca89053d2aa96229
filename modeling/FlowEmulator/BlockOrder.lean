import FlowEmulator.Lookups
import FlowEmulator.StateTransition

/-!
The transactions of a block in order. What clients read for a block by its
identifier, its transactions and their results, is in the order of the runs: the
transactions of users, the process transaction with the callbacks, the system
chunk. The run at each place was given that place as its index, and the events of
the block are those of the results one after the other.
-/
namespace FlowEmulator.BlockOrder
open FlowEmulator.Blockchain FlowEmulator.Chronicle FlowEmulator.Run FlowEmulator.StateTransition
open FlowEmulator.Sqlite (Choices)

/-- The collection of a block, as the results of its transactions of users name it. -/
def collectionOf (E : Encoding) (c : BlockContents) : Identifier := (c.collections.head?.map E.collectionID).getD zeroID

section
variable {E : Encoding} {M : Machine} {config : Config} {base : Registers} {p : PendingBlock} {users system : List Execution}
  {c : BlockContents} (made : Made E M config base p users system c)
include made

theorem made_distinct : (transactionIDs E system).Nodup := (sealed_systemCount made.sealed).mp made.counted.2

theorem made_events : c.events = emitted (users ++ system) := by
  rw [made.sealed.events,made.intact.events,emitted_append]

theorem made_system : system ≠ [] := by
  obtain ⟨before,chunk,rfl,_⟩ := made.sealed.order
  simp

theorem made_result {run : Execution} (here : run ∈ users) : c.transactionResults.lookup (E.transactionID run.tx) =
    some (toStorableResult run.output (E.blockID c.block) c.block.height (collectionOf E c)) := by
  obtain ⟨i,place⟩ := List.mem_iff_getElem?.mp here
  unfold collectionOf
  rw [made.sealed.transactionResults,convert_lookup,tallied_lookup made.intact.tallied made.listed place,made.sealed.block,
    made.sealed.collections]
  rfl

end

section
variable {E : Encoding} {M : Machine} {config : Config} {choices : Choices} {cs seen : List BlockContents} {latest : Nat}
  {b : Blockchain Sqlite.Store} (accounted : Accounted E M config cs seen latest b) (collisionFree : CollisionFree E seen)
  {c : BlockContents} (here : c ∈ cs) {users system : List Execution}
include accounted collisionFree here

variable (choices) in
theorem accounted_block : getBlockByID (Sqlite.backend E choices) (E.blockID c.block) b = .ok c.block := by
  unfold getBlockByID
  rw [stored_block choices accounted.stored collisionFree here]
  rfl

variable (choices) in
/-- The collections of a block are read one after the other, in the order of its transactions of users. -/
theorem accounted_collections {α : Type} {ofUser : Nat → Identifier → Except QueryError α} {front : List α}
    (read : traverse ofUser 0 c.userTransactions = .ok front) : ∃ parts, traverse (fun i colID => do
      let collection ← (getCollectionByID (Sqlite.backend E choices) colID b).mapError (.collection i colID)
      traverse ofUser 0 collection.transactions) 0 c.block.guarantees = .ok parts ∧ parts.flatten = front := by
  have filled := stored_filled accounted.stored here
  have parts := filled.collections
  split at parts
  · next empty =>
    rw [empty] at read
    cases read
    rw [filled.guarantees,parts]
    exact ⟨[],rfl,rfl⟩
  · have guaranteed : E.collectionID ⟨c.userTransactions⟩ ∈ c.block.guarantees := by
      rw [filled.guarantees,parts]
      exact List.mem_cons_self
    obtain ⟨only,_,_,found⟩ := stored_guarantee choices accounted.stored collisionFree here guaranteed
    have collection : getCollectionByID (Sqlite.backend E choices) (E.collectionID ⟨c.userTransactions⟩) b =
        .ok ⟨c.userTransactions⟩ := by
      unfold getCollectionByID
      rw [found]
      rfl
    refine ⟨[front],?_,by simp⟩
    rw [only,traverse,collection]
    show (traverse ofUser 0 c.userTransactions >>= _) = _
    rw [read]
    rfl

/-- What is taken for each transaction of a block, given what its transactions of users and of the system are listed by. -/
theorem accounted_byBlockID {ι : Type} {idOf : ι → Identifier} {users system : List ι} (some : system ≠ [])
    (userIDs : c.userTransactions = users.map idOf) (systemIDs : c.systemTransactions = system.map idOf) {α : Type}
    {R : ι → α → Prop} {ofUser ofSystem : Nat → Identifier → Except QueryError α}
    (each : ∀ j, ∀ tx ∈ users, ∃ a, ofUser j (idOf tx) = .ok a ∧ R tx a)
    (eachSystem : ∀ j, ∀ tx ∈ system, ∃ a, ofSystem j (idOf tx) = .ok a ∧ R tx a) :
    ∃ front back, byBlockID (Sqlite.backend E choices) ofUser ofSystem (E.blockID c.block) b = .ok (front ++ back) ∧
      List.Forall₂ R users front ∧ List.Forall₂ R system back := by
  obtain ⟨front,readFront,frontRelated⟩ := traverse_related each 0
  obtain ⟨back,readBack,backRelated⟩ := traverse_related eachSystem 0
  rw [← traverse_map ofUser idOf,← userIDs] at readFront
  rw [← traverse_map ofSystem idOf,← systemIDs] at readBack
  obtain ⟨parts,readParts,flat⟩ := accounted_collections choices accounted collisionFree here readFront
  have record := stored_systemTransactions choices accounted.stored collisionFree here
    (by rw [systemIDs]; exact mt List.map_eq_nil_iff.mp some)
  refine ⟨front,back,?_,frontRelated,backRelated⟩
  unfold byBlockID
  rw [accounted_block choices accounted collisionFree here]
  show (traverse _ 0 c.block.guarantees >>= _) = _
  rw [readParts]
  show ((_ : Except QueryError SystemTransactions) >>= _) = _
  rw [record]
  show (traverse ofSystem 0 c.systemTransactions >>= _) = _
  rw [readBack]
  show Except.ok (parts.flatten ++ back) = _
  rw [flat]

variable (choices) in
/-- What is taken for each transaction of a block, when it has the identifier of the transaction. -/
theorem accounted_identified (some : c.systemTransactions ≠ []) {α : Type} {idOf : α → Identifier}
    {ofUser ofSystem : Nat → Identifier → Except QueryError α}
    (each : ∀ j, ∀ id ∈ c.userTransactions, ∃ a, ofUser j id = .ok a ∧ idOf a = id)
    (eachSystem : ∀ j, ∀ id ∈ c.systemTransactions, ∃ a, ofSystem j id = .ok a ∧ idOf a = id) :
    ∃ users system, byBlockID (Sqlite.backend E choices) ofUser ofSystem (E.blockID c.block) b = .ok (users ++ system) ∧
      users.map idOf = c.userTransactions ∧ system.map idOf = c.systemTransactions := by
  obtain ⟨users,system,read,ofUsers,ofSystem⟩ := accounted_byBlockID accounted collisionFree here some
    (List.map_id _).symm (List.map_id _).symm each eachSystem
  have ids {ids : List Identifier} {answers : List α} (related : List.Forall₂ (fun id a => idOf a = id) ids answers) :
      answers.map idOf = ids := by
    rw [← List.map_id ids]
    exact (related_map related (fun _ _ same => same.symm)).symm
  exact ⟨users,system,read,ids ofUsers,ids ofSystem⟩

variable (choices) in
theorem accounted_bodies (some : c.systemTransactions ≠ []) : ∃ users system,
    getTransactionsByBlockID E M config (Sqlite.backend E choices) (E.blockID c.block) b = .ok (users ++ system) ∧
      users.map E.transactionID = c.userTransactions ∧ system.map E.transactionID = c.systemTransactions := by
  have each {j : Nat} {id : Identifier} (member : id ∈ c.userTransactions ∨ id ∈ c.systemTransactions) : ∃ tx,
      (getTransaction E M config (Sqlite.backend E choices) id b).mapError (QueryError.transaction j id) = .ok tx ∧
        E.transactionID tx = id := by
    obtain ⟨tx,found,same⟩ := accounted_transaction choices accounted here member
    rw [found]
    exact ⟨tx,rfl,same⟩
  exact accounted_identified choices accounted collisionFree here some (fun _ _ member => each (.inl member))
    (fun _ _ member => each (.inr member))

theorem accounted_transactions (some : system ≠ []) (userIDs : c.userTransactions = transactionIDs E users)
    (systemIDs : c.systemTransactions = transactionIDs E system) :
    ∃ txs, getTransactionsByBlockID E M config (Sqlite.backend E choices) (E.blockID c.block) b = .ok txs ∧
      txs.map E.transactionID = transactionIDs E (users ++ system) := by
  have present : c.systemTransactions ≠ [] := by
    rw [systemIDs]
    exact mt List.map_eq_nil_iff.mp some
  obtain ⟨front,back,read,ofUsers,ofSystem⟩ := accounted_bodies choices accounted collisionFree here present
  refine ⟨front ++ back,read,?_⟩
  rw [List.map_append,ofUsers,ofSystem,userIDs,systemIDs]
  exact List.map_append.symm

variable (choices) in
theorem accounted_results {base : Registers} {p : PendingBlock} (made : Made E M config base p users system c) :
    ∃ results, getTransactionResultsByBlockID (Sqlite.backend E choices) (E.blockID c.block) b = .ok results ∧
      List.Forall₂ (fun run result => ∃ collectionID, result = resultOf E c.block collectionID run) (users ++ system)
        results := by
  let ran (run : Execution) (result : AccessTransactionResult) : Prop :=
    ∃ collectionID, result = resultOf E c.block collectionID run
  have answered : ∃ front back,
      getTransactionResultsByBlockID (Sqlite.backend E choices) (E.blockID c.block) b = .ok (front ++ back) ∧
        List.Forall₂ ran users front ∧ List.Forall₂ ran system back := by
    refine accounted_byBlockID accounted collisionFree here (made_system made) (made_users made).symm
      made.sealed.systemTransactions (fun j run member => ?_) (fun j run member => ?_)
    · rw [accounted_sealed choices accounted here (made_result made member)]
      exact ⟨_,rfl,_,rfl⟩
    · have found := sealed_systemResult made.sealed (made_distinct made) member
      unfold systemResult
      rw [stored_systemResult choices accounted.stored collisionFree here found]
      exact ⟨_,rfl,_,rfl⟩
  obtain ⟨front,back,read,ofUsers,ofSystem⟩ := answered
  exact ⟨front ++ back,read,List.rel_append ofUsers ofSystem⟩

end

/-- What clients read for a block, given the runs of its transactions. -/
structure Reads {σ : Type} (E : Encoding) (M : Machine) (config : Config) (B : Backend σ) (b : Blockchain σ) (block : Block)
    (runs : List Execution) : Prop where
  indexes : ∀ (i : Nat) run, runs[i]? = some run →
    ∃ registers, M.run run.context run.tx i registers = .ok (run.writes,run.output)
  transactions : ∃ txs, getTransactionsByBlockID E M config B (E.blockID block) b = .ok txs ∧
    txs.map E.transactionID = transactionIDs E runs
  results : ∃ results, getTransactionResultsByBlockID B (E.blockID block) b = .ok results ∧
    results.map AccessTransactionResult.transactionID = transactionIDs E runs ∧
    (∀ (i : Nat) run, runs[i]? = some run → ∃ collectionID, results[i]? = some (resultOf E block collectionID run)) ∧
    getEventsByHeight B block.height "" b = .ok (results.flatMap AccessTransactionResult.events)
  byIndex : ∀ toJson version, (∀ run ∈ runs, ∃ events, convertEvents toJson version run.output.events = .ok events) →
    ∀ (i : Nat) run, runs[i]? = some run → ∃ collectionID events,
      convertEvents toJson version run.output.events = .ok events ∧
      getTransactionResultByIndex B toJson version (E.blockID block) i b =
        .ok { resultOf E block collectionID run with events := events }
  stamps : (∀ context tx index registers writes output, M.run context tx index registers = .ok (writes,output) →
      ∀ event ∈ output.events, event.transactionIndex = index) →
    ∀ (i : Nat) run, runs[i]? = some run → ∀ event ∈ run.output.events, event.transactionIndex = i

section
variable {E : Encoding} {M : Machine} {config : Config} {choices : Choices}

theorem traced_reads {x : Session} {cs : List BlockContents} {latest : Nat} (traced : Traced E M config choices cs latest x)
    (collisionFree : CollisionFree E x.seen) {height : Nat} {c : BlockContents} (place : cs[height+1]? = some c) :
    ∃ users system, transactionIDs E users = c.userTransactions ∧
      SystemOrder E M config system c.scheduledTransactionIDs ∧
      Reads E M config (Sqlite.backend E choices) x.emulator c.block (users ++ system) := by
  obtain ⟨p,users,system,made⟩ := traced.blocks height c place
  have accounted := traced.accounted
  have here := List.mem_of_getElem? place
  obtain ⟨results,read,related⟩ := accounted_results choices accounted collisionFree here made
  have indexes (i : Nat) (run : Execution) (atI : (users ++ system)[i]? = some run) :
      ∃ registers, M.run run.context run.tx i registers = .ok (run.writes,run.output) := by
    have ran := trail_getElem (made_trail made) atI
    rw [Nat.zero_add] at ran
    exact ⟨_,ran⟩
  refine ⟨users,system,made_users made,made.sealed.order,indexes,
    accounted_transactions accounted collisionFree here (made_system made) (made_users made).symm
      made.sealed.systemTransactions,⟨results,read,?_,fun i run atI => ?_,?_⟩,fun toJson version convertible i run atI => ?_,
    fun stamping i run atI event member => ?_⟩
  · refine (related_map related (fun run result same => ?_)).symm
    obtain ⟨collectionID,rfl⟩ := same
    rfl
  · obtain ⟨_,there,collectionID,rfl⟩ := related_getElem related atI
    exact ⟨collectionID,there⟩
  · have events : (users ++ system).map (fun run => run.output.events) = results.map AccessTransactionResult.events := by
      refine related_map related (fun run result same => ?_)
      obtain ⟨collectionID,rfl⟩ := same
      rfl
    have stored : getEventsByHeight (Sqlite.backend E choices) c.block.height "" x.emulator =
        .ok (DefaultStore.eventsOfType "" c.events) :=
      Sqlite.archived_events choices accounted.stored.archived accounted.stored.recorded.chain here ""
    rw [stored,DefaultStore.eventsOfType_all,made_events made,emitted,List.flatMap_def,List.flatMap_def,events]
  · obtain ⟨_,there,collectionID,rfl⟩ := related_getElem related atI
    have all (result : AccessTransactionResult) (member : result ∈ results) :
        ∃ events, convertEvents toJson version result.events = .ok events := by
      obtain ⟨j,atJ⟩ := List.mem_iff_getElem?.mp member
      obtain ⟨other,inRuns,_,rfl⟩ := related_getElem related.flip atJ
      exact convertible other (List.mem_of_getElem? inRuns)
    obtain ⟨events,done,answer⟩ := getTransactionResultByIndex_ok read all there
    exact ⟨collectionID,events,done,answer⟩
  · obtain ⟨_,ran⟩ := indexes i run atI
    exact stamping _ _ _ _ _ _ ran event member

/-- In every session without retried commits, for every stored block above the
    first, what clients read by the block's identifier and by its height is in the
    order of the runs, and the runs were given their places as indexes. -/
theorem transactions_in_order {x : Session} (reached : Reached E M config choices NotRetried x)
    (collisionFree : CollisionFree E x.seen) :
    ∀ height block, (Sqlite.backend E choices).blockByHeight (height+1) x.emulator.storage = .ok block →
      ∃ c ∈ x.seen, c.block = block ∧ ∃ users system, transactionIDs E users = c.userTransactions ∧
        SystemOrder E M config system c.scheduledTransactionIDs ∧
        Reads E M config (Sqlite.backend E choices) x.emulator block (users ++ system) := by
  obtain ⟨cs,latest,traced⟩ := reached_traced reached
  intro height block found
  obtain ⟨c,known,rfl,place⟩ := stored_found traced.accounted.stored found
  exact ⟨c,known,rfl,traced_reads traced collisionFree place⟩

end

open FlowEmulator.Samples in
theorem transactions_in_order_sample : ∃ x, Reached numberEncoding scheduler scheduledConfig .earliest NotRetried x ∧
    CollisionFree numberEncoding x.seen ∧
    (∃ block, (Sqlite.backend numberEncoding .earliest).blockByHeight 1 x.emulator.storage = .ok block) ∧
    ∀ height block, (Sqlite.backend numberEncoding .earliest).blockByHeight (height+1) x.emulator.storage = .ok block →
      ∃ c ∈ x.seen, c.block = block ∧ ∃ users system, transactionIDs numberEncoding users = c.userTransactions ∧
        SystemOrder numberEncoding scheduler scheduledConfig system c.scheduledTransactionIDs ∧
        Reads numberEncoding scheduler scheduledConfig (Sqlite.backend numberEncoding .earliest) x.emulator block
          (users ++ system) := by
  obtain ⟨start,c,sample⟩ := sample_committed
  have reached := sample_notRetried sample
  have collisionFree := sample_collisionFree sample
  exact ⟨sampleCommitted start,reached,collisionFree,⟨c.block,sample_stored sample⟩,
    transactions_in_order reached collisionFree⟩

end FlowEmulator.BlockOrder
