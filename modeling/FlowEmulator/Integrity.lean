import FlowEmulator.Lookups

/-!
References in the stored data: a guarantee of a block leads to the collection of
its transactions, the collection to the bodies, and each transaction to a result
that names the block and the collection. This holds in every session, through
rollbacks, and what is in no block is reported as pending or unknown.
-/
namespace FlowEmulator.Integrity
open FlowEmulator.Blockchain FlowEmulator.Chronicle FlowEmulator.Run
open FlowEmulator.Sqlite (Choices)

/-- What a guarantee of a block with the given transactions of users leads to. -/
structure Resolves {σ : Type} (E : Encoding) (B : Backend σ) (b : Blockchain σ) (block : Block) (transactions : List Identifier)
    (guarantee : Identifier) : Prop where
  collection : B.collectionByID guarantee b.storage = .ok ⟨transactions⟩
  bodies : ∃ bodies, B.fullCollectionByID guarantee b.storage = .ok bodies ∧ bodies.map E.transactionID = transactions
  results : ∀ id ∈ transactions, ∃ result, getTransactionResult B id b = .ok result ∧ result.status = .sealed ∧
    result.blockID = E.blockID block ∧ result.blockHeight = block.height ∧ result.collectionID = guarantee

/-- The transaction is in a collection of a stored block. -/
def InCollection {σ : Type} (B : Backend σ) (b : Blockchain σ) (id : Identifier) : Prop :=
  ∃ height block guarantee collection, B.blockByHeight height b.storage = .ok block ∧ guarantee ∈ block.guarantees ∧
    B.collectionByID guarantee b.storage = .ok collection ∧ id ∈ collection.transactions

section
variable {E : Encoding} {M : Machine} {config : Config} {choices : Choices} {cs seen : List BlockContents} {latest : Nat}
  {b : Blockchain Sqlite.Store} (accounted : Accounted E M config cs seen latest b) (collisionFree : CollisionFree E seen)
include accounted collisionFree

theorem accounted_resolves {c : BlockContents} (here : c ∈ cs) {guarantee : Identifier}
    (guaranteed : guarantee ∈ c.block.guarantees) :
    Resolves E (Sqlite.backend E choices) b c.block c.userTransactions guarantee := by
  obtain ⟨_,rfl,whole,found⟩ := stored_guarantee choices accounted.stored collisionFree here guaranteed
  have filled := stored_filled accounted.stored here
  refine ⟨found,stored_fullCollection choices accounted.stored collisionFree here guaranteed,fun id user => ?_⟩
  obtain ⟨result,recorded⟩ := Option.isSome_iff_exists.mp (AList.lookup_isSome.mpr ((filled.results id).mpr user))
  obtain ⟨blockID,blockHeight,collectionID⟩ := filled.placed id result recorded
  refine ⟨_,accounted_sealed choices accounted here recorded,rfl,blockID,blockHeight,?_⟩
  rw [whole] at collectionID
  exact collectionID

/-- A transaction of users in the chain is in a collection. -/
theorem accounted_inCollection {c : BlockContents} (here : c ∈ cs) {id : Identifier} (user : id ∈ c.userTransactions) :
    InCollection (Sqlite.backend E choices) b id := by
  have filled := stored_filled accounted.stored here
  have parts := filled.collections
  rw [if_neg (List.ne_nil_of_mem user)] at parts
  have guaranteed : E.collectionID ⟨c.userTransactions⟩ ∈ c.block.guarantees := by
    rw [filled.guarantees,parts]
    exact List.mem_cons_self
  exact ⟨c.block.height,c.block,_,_,Sqlite.recorded_blockByHeight choices accounted.stored.recorded here,guaranteed,
    (accounted_resolves accounted collisionFree here guaranteed).collection,user⟩

end

section
variable {E : Encoding} {M : Machine} {config : Config} {choices : Choices}

/-- In every session the guarantees of the stored blocks lead to what was
    committed with the block, the transactions of the pending block are reported as
    pending, and those that are nowhere as unknown. -/
theorem references_resolve {x : Session} (reached : Reached E M config choices (fun _ _ => True) x)
    (collisionFree : CollisionFree E x.seen) :
    (∀ height block, (Sqlite.backend E choices).blockByHeight height x.emulator.storage = .ok block →
      ∃ c ∈ x.seen, c.block = block ∧ ∀ guarantee ∈ block.guarantees,
        Resolves E (Sqlite.backend E choices) x.emulator block c.userTransactions guarantee) ∧
    (∀ id ∈ x.emulator.pendingBlock.transactionIDs,
      getTransactionResult (Sqlite.backend E choices) id x.emulator = .ok { status := .pending }) ∧
    (∀ id, ¬ InCollection (Sqlite.backend E choices) x.emulator id → id ∉ x.emulator.pendingBlock.transactionIDs →
      (Sqlite.backend E choices).scheduledTransactionBlockIDByTxID id x.emulator.storage = .error .notFound →
      getTransactionResult (Sqlite.backend E choices) id x.emulator = .ok { status := .unknown }) := by
  obtain ⟨cs,latest,accounted⟩ := reached_chained reached
  refine ⟨fun height block found => ?_,fun id pending => accounted_pending choices accounted pending,
    fun id nowhere outside unscheduled => ?_⟩
  · obtain ⟨c,here,rfl,_⟩ := Sqlite.recorded_found choices accounted.stored.recorded found
    exact ⟨c,accounted.stored.archived.known c here,rfl,
      fun guarantee guaranteed => accounted_resolves accounted collisionFree here guaranteed⟩
  · exact accounted_unknown choices accounted outside
      (fun c here user => nowhere (accounted_inCollection accounted collisionFree here user)) unscheduled

end

open FlowEmulator.Samples in
theorem references_resolve_sample : ∃ x, Reached numberEncoding scheduler scheduledConfig .earliest (fun _ _ => True) x ∧
    CollisionFree numberEncoding x.seen ∧ (∃ c ∈ x.seen, c.userTransactions = [digest 10]) ∧
    (∀ height block, (Sqlite.backend numberEncoding .earliest).blockByHeight height x.emulator.storage = .ok block →
      ∃ c ∈ x.seen, c.block = block ∧ ∀ guarantee ∈ block.guarantees,
        Resolves numberEncoding (Sqlite.backend numberEncoding .earliest) x.emulator block c.userTransactions guarantee) := by
  obtain ⟨start,c,sample⟩ := sample_committed
  have reached := sample_reached_any sample
  have collisionFree := sample_collisionFree sample
  exact ⟨sampleCommitted start,reached,collisionFree,⟨c,sample_member sample,sample_userTransactions sample⟩,
    (references_resolve reached collisionFree).1⟩

end FlowEmulator.Integrity
