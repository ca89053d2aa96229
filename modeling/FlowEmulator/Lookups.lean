import FlowEmulator.Queries
import FlowEmulator.Sessions

/-!
What is found for the blocks of a chain: their collections, the transactions of
users and of the system, and the results of both. Identifiers are hashes, so the
results assume that what was committed has no collisions.
-/
namespace FlowEmulator.Chronicle
open FlowEmulator.DefaultStore FlowEmulator.Blockchain
open FlowEmulator.Sqlite (Choices)

/-- No two different blocks, and no two different collections, that were committed have one identifier. -/
structure CollisionFree (E : Encoding) (seen : List BlockContents) : Prop where
  blocks : ∀ c ∈ seen, ∀ d ∈ seen, E.blockID c.block = E.blockID d.block → c.block = d.block
  collections : ∀ c ∈ seen, ∀ left ∈ c.collections, ∀ d ∈ seen, ∀ right ∈ d.collections,
    E.collectionID left = E.collectionID right → left = right

section
variable {E : Encoding} {M : Machine} {config : Config} (choices : Choices) {cs seen : List BlockContents} {latest : Nat}
  {s : Sqlite.Store} (stored : Stored E M config cs seen latest s) {c : BlockContents}
include stored

theorem stored_block (collisionFree : CollisionFree E seen) (here : c ∈ cs) :
    (Sqlite.backend E choices).blockByID (E.blockID c.block) s = .ok c.block :=
  Sqlite.recorded_blockByID choices stored.recorded (fun c here d there =>
    collisionFree.blocks c (stored.archived.known c here) d (stored.archived.known d there)) here

/-- A guarantee of a block stands for the collection of all its transactions of users. -/
theorem stored_guarantee (collisionFree : CollisionFree E seen) (here : c ∈ cs) {id : Identifier}
    (guaranteed : id ∈ c.block.guarantees) : c.block.guarantees = [id] ∧ id = E.collectionID ⟨c.userTransactions⟩ ∧
      c.collections = [⟨c.userTransactions⟩] ∧
      (Sqlite.backend E choices).collectionByID id s = .ok ⟨c.userTransactions⟩ := by
  have filled := stored_filled stored here
  have whole : c.collections = [⟨c.userTransactions⟩] := by
    have parts := filled.collections
    split at parts
    · rw [filled.guarantees,parts] at guaranteed
      cases guaranteed
    · exact parts
  have guarantees : c.block.guarantees = [E.collectionID ⟨c.userTransactions⟩] := by
    rw [filled.guarantees,whole]
    rfl
  rw [guarantees] at guaranteed
  obtain rfl := List.mem_singleton.mp guaranteed
  have member : ⟨c.userTransactions⟩ ∈ c.collections := by rw [whole]; exact List.mem_cons_self
  refine ⟨guarantees,rfl,whole,?_⟩
  exact Sqlite.archived_collection choices stored.archived here member (fun d there other otherMember same =>
    collisionFree.collections d (stored.archived.known d there) other otherMember c (stored.archived.known c here) _ member same)

/-- A transaction of a block is found, with a body that has its identifier. -/
theorem stored_transaction (here : c ∈ cs) {id : Identifier} (member : id ∈ c.userTransactions ∨ id ∈ c.systemTransactions) :
    ∃ tx, (Sqlite.backend E choices).transactionByID id s = .ok tx ∧ E.transactionID tx = id := by
  have filled := stored_filled stored here
  have inside := member.imp (filled.transactions id).mpr (filled.system id).mpr
  obtain ⟨d,there,tx,body,found⟩ := Sqlite.archived_transaction choices stored.archived here inside
  have other := stored_filled stored there
  exact ⟨tx,found,body.elim (other.bodies id tx) (other.systemBodies id tx)⟩

/-- The full collection of a block has bodies with the identifiers of its transactions, in order. -/
theorem stored_fullCollection (collisionFree : CollisionFree E seen) (here : c ∈ cs) {id : Identifier}
    (guaranteed : id ∈ c.block.guarantees) : ∃ bodies,
      (Sqlite.backend E choices).fullCollectionByID id s = .ok bodies ∧ bodies.map E.transactionID = c.userTransactions := by
  obtain ⟨_,_,_,found⟩ := stored_guarantee choices stored collisionFree here guaranteed
  have each (ids : List Identifier) (inside : ∀ id ∈ ids, id ∈ c.userTransactions) : ∃ bodies,
      ids.mapM (fun txID => transactionByID E (Sqlite.dataStore choices) txID s) = .ok bodies ∧
        bodies.map E.transactionID = ids := by
    induction ids with
    | nil => exact ⟨[],rfl,rfl⟩
    | cons id rest ih =>
      obtain ⟨tx,body,same⟩ := stored_transaction choices stored here (.inl (inside id List.mem_cons_self))
      have body : transactionByID E (Sqlite.dataStore choices) id s = .ok tx := body
      obtain ⟨bodies,later,ids⟩ := ih (fun other member => inside other (List.mem_cons_of_mem id member))
      refine ⟨tx :: bodies,?_,by rw [List.map_cons,same,ids]⟩
      rw [List.mapM_cons,body,later]
      rfl
  obtain ⟨bodies,read,ids⟩ := each c.userTransactions (fun _ member => member)
  have found : collectionByID E (Sqlite.dataStore choices) id s = .ok ⟨c.userTransactions⟩ := found
  refine ⟨bodies,?_,ids⟩
  show fullCollectionByID E (Sqlite.dataStore choices) id s = .ok bodies
  unfold fullCollectionByID
  rw [found]
  exact read

/-- A transaction of users is in one block of the chain. -/
theorem stored_once {d : BlockContents} (here : c ∈ cs) (there : d ∈ cs) {id : Identifier}
    (left : id ∈ c.userTransactions) (right : id ∈ d.userTransactions) : c = d :=
  once stored.distinct here there left right

/-- The result of a transaction of users is found. -/
theorem stored_result (here : c ∈ cs) {id : Identifier} {result : StorableTransactionResult}
    (found : c.transactionResults.lookup id = some result) :
    (Sqlite.backend E choices).transactionResultByID id s = .ok result := by
  refine Sqlite.archived_result choices stored.archived here found (fun d there member => ?_)
  have inside : id ∈ c.transactionResults := AList.lookup_isSome.mp (Option.isSome_iff_exists.mpr ⟨result,found⟩)
  have left := ((stored_filled stored here).results id).mp inside
  have right := ((stored_filled stored there).results id).mp member
  rw [stored_once stored here there left right]

theorem stored_noResult {id : Identifier} (none : ∀ c ∈ cs, id ∉ c.userTransactions) :
    (Sqlite.backend E choices).transactionResultByID id s = .error .notFound :=
  Sqlite.archived_noResult choices stored.archived
    (fun d there member => none d there (((stored_filled stored there).results id).mp member))

/-- The result of a system transaction is found by its block. -/
theorem stored_systemResult (collisionFree : CollisionFree E seen) (here : c ∈ cs) {id : Identifier}
    {result : StorableTransactionResult} (found : c.systemTransactionResults.lookup id = some result) :
    (Sqlite.backend E choices).systemTransactionResultByID (E.blockID c.block) id s = .ok result :=
  Sqlite.archived_systemResult choices stored.archived here found (fun d there same => by
    rw [collisionFree.blocks d (stored.archived.known d there) c (stored.archived.known c here) same])

/-- The system transactions of a block are found by its identifier, also after
    rollbacks: a removed block with the same identifier was at the same height. -/
theorem stored_systemTransactions (collisionFree : CollisionFree E seen) (here : c ∈ cs) (some : c.systemTransactions ≠ []) :
    (Sqlite.backend E choices).systemTransactionsForBlockID (E.blockID c.block) s =
      .ok ⟨E.blockID c.block,c.systemTransactions,c.scheduledTransactionIDs⟩ :=
  Sqlite.archived_systemTransactions choices stored.archived here some (fun d there same => by
    rw [collisionFree.blocks d there c (stored.archived.known c here) same])

theorem stored_noSystemTransactions {id : Identifier} (none : ∀ d ∈ seen, E.blockID d.block = id →
    d.systemTransactions = [] ∧ d.scheduledTransactionIDs.entries = []) :
    (Sqlite.backend E choices).systemTransactionsForBlockID id s = .error .notFound :=
  Sqlite.archived_noSystemTransactions choices stored.archived none

end

/-- The result of a run as clients see it when its block is committed. -/
def resultOf (E : Encoding) (block : Block) (collectionID : Identifier) (run : Execution) : AccessTransactionResult :=
  sealedResult (E.transactionID run.tx) (toStorableResult run.output (E.blockID block) block.height collectionID)

/-! ### The status of a transaction -/

section
variable {E : Encoding} {M : Machine} {config : Config} (choices : Choices) {cs seen : List BlockContents} {latest : Nat}
  {b : Blockchain Sqlite.Store} (accounted : Accounted E M config cs seen latest b) {id : Identifier}
include accounted

theorem accounted_pending (member : id ∈ b.pendingBlock.transactionIDs) :
    getTransactionResult (Sqlite.backend E choices) id b = .ok { status := .pending } :=
  if_pos ((listed_contains accounted.underway.tracked.listed id).mpr member)

/-- Outside the pending block the store is asked. -/
theorem accounted_stored (outside : id ∉ b.pendingBlock.transactionIDs) :
    getTransactionResult (Sqlite.backend E choices) id b =
      match (Sqlite.backend E choices).transactionResultByID id b.storage with
      | .ok result => .ok (sealedResult id result)
      | .error .notFound => match (Sqlite.backend E choices).scheduledTransactionBlockIDByTxID id b.storage with
        | .ok blockID => systemResult (Sqlite.backend E choices) blockID id b
        | .error _ => .ok { status := .unknown }
      | .error e => .error (.storage e) :=
  if_neg (mt (listed_contains accounted.underway.tracked.listed id).mp outside)

/-- A transaction of the chain is not in the pending block. -/
theorem accounted_outside {c : BlockContents} (here : c ∈ cs) (member : id ∈ c.userTransactions ∨ id ∈ c.systemTransactions) :
    id ∉ b.pendingBlock.transactionIDs := by
  intro pending
  have filled := stored_filled accounted.stored here
  have fresh := accounted.underway.fresh id pending c here
  exact member.elim (fun user => fresh.1 ((filled.transactions id).mpr user))
    (fun system => fresh.2 ((filled.system id).mpr system))

/-- A transaction of the chain is found, with a body that has its identifier. -/
theorem accounted_transaction {c : BlockContents} (here : c ∈ cs)
    (member : id ∈ c.userTransactions ∨ id ∈ c.systemTransactions) :
    ∃ tx, getTransaction E M config (Sqlite.backend E choices) id b = .ok tx ∧ E.transactionID tx = id := by
  obtain ⟨tx,found,same⟩ := stored_transaction choices accounted.stored here member
  have absent : b.pendingBlock.transactions.lookup id = none := by
    rw [AList.lookup_eq_none,accounted.underway.tracked.listed.keys]
    exact accounted_outside accounted here member
  refine ⟨tx,?_,same⟩
  unfold getTransaction
  rw [absent]
  dsimp only
  rw [found]

/-- A transaction of users in the chain is sealed, with the result of its block. -/
theorem accounted_sealed {c : BlockContents} (here : c ∈ cs) {result : StorableTransactionResult}
    (found : c.transactionResults.lookup id = some result) :
    getTransactionResult (Sqlite.backend E choices) id b = .ok (sealedResult id result) := by
  have inside : id ∈ c.transactionResults := AList.lookup_isSome.mp (Option.isSome_iff_exists.mpr ⟨result,found⟩)
  have user := ((stored_filled accounted.stored here).results id).mp inside
  rw [accounted_stored choices accounted (accounted_outside accounted here (.inl user)),
    stored_result choices accounted.stored here found]

/-- A transaction that was neither sent nor scheduled is not known. -/
theorem accounted_unknown (outside : id ∉ b.pendingBlock.transactionIDs) (none : ∀ c ∈ cs, id ∉ c.userTransactions)
    {e : StoreError} (unscheduled : (Sqlite.backend E choices).scheduledTransactionBlockIDByTxID id b.storage = .error e) :
    getTransactionResult (Sqlite.backend E choices) id b = .ok { status := .unknown } := by
  rw [accounted_stored choices accounted outside,stored_noResult choices accounted.stored none,unscheduled]

end

/-- The block has the transaction as one of users, or as one of the system that is not static. -/
def Carries (E : Encoding) (M : Machine) (config : Config) (id : Identifier) (c : BlockContents) : Prop :=
  id ∈ c.userTransactions ∨ id ∈ c.systemTransactions ∧ static E M config id = false

section
variable {E : Encoding} {M : Machine} {config : Config} (choices : Choices) {cs : List BlockContents} {latest : Nat}
  {b : Blockchain Sqlite.Store} (accounted : Accounted E M config cs cs latest b) {id : Identifier}
include accounted

/-- Without rollbacks a transaction that a block of the chain carries is sealed. -/
theorem accounted_carried {c : BlockContents} (here : c ∈ cs) (carries : Carries E M config id c) :
    ∃ result, getTransactionResult (Sqlite.backend E choices) id b = .ok (sealedResult id result) := by
  by_cases sent : ∃ d ∈ cs, id ∈ d.userTransactions
  · obtain ⟨d,there,user⟩ := sent
    have member := ((stored_filled accounted.stored there).results id).mpr user
    obtain ⟨result,found⟩ := Option.isSome_iff_exists.mp (AList.lookup_isSome.mpr member)
    exact ⟨result,accounted_sealed choices accounted there found⟩
  · rcases carries with user | ⟨system,dynamic⟩
    · exact absurd ⟨c,here,user⟩ sent
    · obtain ⟨d,there,member,indexed⟩ := Sqlite.archived_someScheduledBlock choices accounted.stored.archived here
        (((stored_filled accounted.stored here).systemResults id).mpr system) dynamic
      obtain ⟨result,found⟩ := Sqlite.archived_someSystemResult choices accounted.stored.archived there member
      have indexed : (Sqlite.backend E choices).scheduledTransactionBlockIDByTxID id b.storage = .ok (E.blockID d.block) :=
        indexed
      have found : (Sqlite.backend E choices).systemTransactionResultByID (E.blockID d.block) id b.storage = .ok result := found
      refine ⟨result,?_⟩
      rw [accounted_stored choices accounted (accounted_outside accounted here (.inr system)),
        stored_noResult choices accounted.stored (fun e member user => sent ⟨e,member,user⟩),indexed]
      dsimp only
      unfold systemResult
      rw [found]

/-- A transaction that is neither in the pending block nor carried is unknown. -/
theorem accounted_uncarried (outside : id ∉ b.pendingBlock.transactionIDs) (none : ∀ c ∈ cs, ¬ Carries E M config id c) :
    getTransactionResult (Sqlite.backend E choices) id b = .ok { status := .unknown } := by
  have unscheduled : (Sqlite.backend E choices).scheduledTransactionBlockIDByTxID id b.storage = .error .notFound :=
    Sqlite.archived_noScheduledBlock choices accounted.stored.archived (fun d there ⟨member,dynamic⟩ =>
      none d there (.inr ⟨((stored_filled accounted.stored there).systemResults id).mp member,dynamic⟩))
  exact accounted_unknown choices accounted outside (fun c here user => none c here (.inl user)) unscheduled

end

/-- Two blocks with different identifiers, one of them without collections and the other with one. -/
theorem collisionFree_pair {E : Encoding} {first second : BlockContents} {only : LightCollection}
    (apart : E.blockID first.block ≠ E.blockID second.block) (empty : first.collections = [])
    (one : second.collections = [only]) : CollisionFree E [first,second] := by
  have single (c : BlockContents) (here : c ∈ [first,second]) (any : LightCollection) (member : any ∈ c.collections) :
      any = only := by
    rcases List.mem_cons.mp here with rfl | last
    · rw [empty] at member
      cases member
    · rw [List.mem_singleton.mp last,one] at member
      exact List.mem_singleton.mp member
  refine ⟨fun left leftHere right rightHere same => ?_,fun left leftHere one oneHere right rightHere other otherHere _ => ?_⟩
  · rcases List.mem_cons.mp leftHere with rfl | leftLast <;> rcases List.mem_cons.mp rightHere with rfl | rightLast
    · rfl
    · exact absurd (List.mem_singleton.mp rightLast ▸ same) apart
    · exact absurd (List.mem_singleton.mp leftLast ▸ same) apart.symm
    · rw [List.mem_singleton.mp leftLast,List.mem_singleton.mp rightLast]
  · rw [single left leftHere one oneHere,single right rightHere other otherHere]

open FlowEmulator.Samples in
theorem sample_collisionFree {start : Session} {c : BlockContents} (sample : SampleBlock start c) :
    CollisionFree numberEncoding (sampleCommitted start).seen := by
  have apart : numberEncoding.blockID (genesisContents scheduler scheduledConfig ∅ []).block ≠
      numberEncoding.blockID c.block := by
    rw [sample.block]
    decide
  rw [sample.seen]
  exact collisionFree_pair apart rfl sample.collections

end FlowEmulator.Chronicle
