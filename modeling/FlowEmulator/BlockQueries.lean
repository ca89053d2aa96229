import FlowEmulator.BlockOrder
import FlowEmulator.Rollback

/-!
The queries for all transactions of a block and for all their results. They
answer for every block of the chain that was sealed, with the system transactions
that are listed for it. The first block has no record of system transactions:
there the list is empty and both queries fail.
-/
namespace FlowEmulator.BlockQueries
open FlowEmulator.Blockchain FlowEmulator.Chronicle FlowEmulator.Run FlowEmulator.BlockOrder
open FlowEmulator.Sqlite (Choices Unindexed)

/-- The queries for a block answer: for its transactions of users, and then for the system transactions that are listed. -/
structure Total {σ : Type} (E : Encoding) (M : Machine) (config : Config) (B : Backend σ) (b : Blockchain σ)
    (c : BlockContents) : Prop where
  transactions : ∃ users system,
    getTransactionsByBlockID E M config B (E.blockID c.block) b = .ok (users ++ system) ∧
    users.map E.transactionID = c.userTransactions ∧
    getSystemTransactionsForBlock B (E.blockID c.block) b = .ok (system.map E.transactionID)
  results : ∃ users system,
    getTransactionResultsByBlockID B (E.blockID c.block) b = .ok (users ++ system) ∧
    users.map AccessTransactionResult.transactionID = c.userTransactions ∧
    getSystemTransactionsForBlock B (E.blockID c.block) b = .ok (system.map AccessTransactionResult.transactionID)

section
variable {E : Encoding} {M : Machine} {config : Config} {choices : Choices}

/-! ### The blocks at height 0 -/

/-- The session has a chain, and no block at height 0 that was committed has system transactions. -/
def Rooted (E : Encoding) (M : Machine) (config : Config) (x : Session) : Prop :=
  Chained E M config x ∧ ∀ c ∈ x.seen, c.block.height = 0 → Unindexed c

theorem rooted_started {x : Session} (started : Started E M config choices x) : Rooted E M config x := by
  refine ⟨chained_started started,fun c member _ => ?_⟩
  obtain ⟨writes,events,_,seen,_⟩ := started_accounted started
  rw [seen] at member
  rw [List.mem_singleton.mp member]
  exact ⟨rfl,rfl⟩

theorem rooted_take (x : Session) (call : Call) (rooted : Rooted E M config x) :
    Rooted E M config (take E M config choices call x) := by
  obtain ⟨⟨cs,latest,accounted⟩,bare⟩ := rooted
  obtain ⟨height,longer,_⟩ := accounted_take choices accounted call
  refine ⟨⟨_,height,longer⟩,fun d member zero => ?_⟩
  rcases List.mem_append.mp member with before | now
  · exact bare d before zero
  · -- a block that is committed now stands after the whole chain
    obtain ⟨i,atI⟩ := List.mem_iff_getElem?.mp now
    have place : (cs ++ committedBy E M config choices x.emulator call)[cs.length+i]? = some d := by
      rw [List.getElem?_append_right (Nat.le_add_right _ _),Nat.add_sub_cancel_left]
      exact atI
    have above := (chain_getElem longer.stored.recorded.chain place).1
    have count := accounted.stored.recorded.count
    omega

theorem rooted_rollBack (x : Session) (tick : Tick) (height : Nat) (rooted : Rooted E M config x) :
    Rooted E M config (rollBack E M config choices tick height x) :=
  ⟨chained_rollBack x tick height rooted.1,rooted.2⟩

theorem reached_rooted {condition : Session → Call → Prop} {x : Session} (reached : Reached E M config choices condition x) :
    Rooted E M config x :=
  reached_keeps (fun _ => rooted_started) (fun x c rooted _ => rooted_take x c rooted) rooted_rollBack reached

theorem sealed_system {base : Registers} {p : PendingBlock} {runs : List Execution} {c : BlockContents}
    (sealed : Sealed E M config base p runs c) : c.systemTransactions ≠ [] := by
  obtain ⟨before,chunk,rfl,_⟩ := sealed.order
  rw [sealed.systemTransactions]
  simp [transactionIDs]

/-- A block above height 0 was sealed, with the system chunk at least. -/
theorem origin_above {c : BlockContents} (origin : Origin E M config c) (above : 0 < c.block.height) :
    c.systemTransactions ≠ [] := by
  cases origin with
  | first writes events same =>
    subst same
    exact absurd above (Nat.lt_irrefl 0)
  | sealed base p runs tracked sealed => exact sealed_system sealed

/-- A block without system transactions is the first one, and has no collections. -/
theorem origin_bare {c : BlockContents} (origin : Origin E M config c) (bare : c.systemTransactions = []) :
    c.block.guarantees = [] := by
  cases origin with
  | first writes events same =>
    subst same
    rfl
  | sealed base p runs tracked sealed => exact absurd bare (sealed_system sealed)

/-! ### The queries -/

variable {cs seen : List BlockContents} {latest : Nat} {b : Blockchain Sqlite.Store}
  (accounted : Accounted E M config cs seen latest b) (collisionFree : CollisionFree E seen)
  {c : BlockContents} (here : c ∈ cs)
include accounted collisionFree here

variable (choices) in
theorem accounted_systemTransactions (some : c.systemTransactions ≠ []) :
    getSystemTransactionsForBlock (Sqlite.backend E choices) (E.blockID c.block) b = .ok c.systemTransactions := by
  unfold getSystemTransactionsForBlock
  rw [stored_systemTransactions choices accounted.stored collisionFree here some]

/-- A block with system transactions is answered for. -/
theorem total_sealed (some : c.systemTransactions ≠ []) : Total E M config (Sqlite.backend E choices) b c := by
  have filled := stored_filled accounted.stored here
  have listed := accounted_systemTransactions choices accounted collisionFree here some
  constructor
  · obtain ⟨users,system,read,ofUsers,ofSystem⟩ := accounted_bodies choices accounted collisionFree here some
    exact ⟨users,system,read,ofUsers,by rw [listed,ofSystem]⟩
  · have answered : ∃ users system,
        getTransactionResultsByBlockID (Sqlite.backend E choices) (E.blockID c.block) b = .ok (users ++ system) ∧
          users.map AccessTransactionResult.transactionID = c.userTransactions ∧
          system.map AccessTransactionResult.transactionID = c.systemTransactions := by
      refine accounted_identified choices accounted collisionFree here some (fun j id member => ?_) (fun j id member => ?_)
      · obtain ⟨result,found⟩ := Option.isSome_iff_exists.mp (AList.lookup_isSome.mpr ((filled.results id).mpr member))
        rw [accounted_sealed choices accounted here found]
        exact ⟨_,rfl,rfl⟩
      · obtain ⟨result,found⟩ :=
          Option.isSome_iff_exists.mp (AList.lookup_isSome.mpr ((filled.systemResults id).mpr member))
        unfold systemResult
        rw [stored_systemResult choices accounted.stored collisionFree here found]
        exact ⟨_,rfl,rfl⟩
    obtain ⟨users,system,read,ofUsers,ofSystem⟩ := answered
    exact ⟨users,system,read,ofUsers,by rw [listed,ofSystem]⟩

variable (choices) in
/-- For a block without a record the list of system transactions is empty, and the queries fail. -/
theorem unanswered_bare (bare : c.systemTransactions = [])
    (none : ∀ d ∈ seen, E.blockID d.block = E.blockID c.block → Unindexed d) :
    getSystemTransactionsForBlock (Sqlite.backend E choices) (E.blockID c.block) b = .ok [] ∧
      ∀ {α : Type} (ofUser ofSystem : Nat → Identifier → Except QueryError α),
        byBlockID (Sqlite.backend E choices) ofUser ofSystem (E.blockID c.block) b =
          .error (.systemTransactions .notFound) := by
  have missing := stored_noSystemTransactions choices accounted.stored none
  constructor
  · unfold getSystemTransactionsForBlock
    rw [missing]
  · intro α ofUser ofSystem
    unfold byBlockID
    rw [accounted_block choices accounted collisionFree here,missing]
    show (traverse _ 0 c.block.guarantees >>= _) = _
    rw [origin_bare (accounted.stored.origin c here) bare]
    rfl

omit accounted collisionFree here in
/-- In every session, for every stored block, the queries for its transactions and for their results answer, with the
    system transactions that are listed for it, exactly when it is not the block at height 0. -/
theorem block_queries_total_iff {x : Session} (reached : Reached E M config choices (fun _ _ => True) x)
    (collisionFree : CollisionFree E x.seen) :
    ∀ height block, (Sqlite.backend E choices).blockByHeight height x.emulator.storage = .ok block →
      ∃ c ∈ x.seen, c.block = block ∧
        (Total E M config (Sqlite.backend E choices) x.emulator c ↔ 0 < height) := by
  obtain ⟨⟨cs,latest,accounted⟩,bare⟩ := reached_rooted reached
  intro height block found
  obtain ⟨c,known,rfl,place⟩ := stored_found accounted.stored found
  have here := List.mem_of_getElem? place
  have level : c.block.height = height := by
    rw [(chain_getElem accounted.stored.recorded.chain place).1,Nat.zero_add]
  refine ⟨c,known,rfl,?_⟩
  subst level
  rcases Nat.eq_zero_or_pos c.block.height with zero | above
  · refine iff_of_false (fun total => ?_) (by rw [zero]; exact Nat.lt_irrefl 0)
    obtain ⟨_,fails⟩ := unanswered_bare choices accounted collisionFree here (bare c known zero).1
      (fun d there same => bare d there (by rw [collisionFree.blocks d there c known same,zero]))
    obtain ⟨users,system,read,_⟩ := total.transactions
    unfold getTransactionsByBlockID at read
    rw [fails] at read
    cases read
  · exact iff_of_true (total_sealed accounted collisionFree here (origin_above (accounted.stored.origin c here) above)) above

end

/-! ### The first block -/

section
open FlowEmulator.Samples

/-- The first block of an emulator with one more block: no system transactions are listed, and the queries fail. -/
theorem first_block_unanswered : ∃ x block,
    Reached numberEncoding scheduler scheduledConfig .earliest (fun _ _ => True) x ∧ CollisionFree numberEncoding x.seen ∧
    (Sqlite.backend numberEncoding .earliest).blockByHeight 0 x.emulator.storage = .ok block ∧
    getSystemTransactionsForBlock (Sqlite.backend numberEncoding .earliest) (numberEncoding.blockID block) x.emulator =
      .ok [] ∧
    getTransactionsByBlockID numberEncoding scheduler scheduledConfig (Sqlite.backend numberEncoding .earliest)
      (numberEncoding.blockID block) x.emulator = .error (.systemTransactions .notFound) ∧
    getTransactionResultsByBlockID (Sqlite.backend numberEncoding .earliest) (numberEncoding.blockID block) x.emulator =
      .error (.systemTransactions .notFound) := by
  obtain ⟨start,c,sample⟩ := sample_committed
  have reached := sample_reached_any sample
  have collisionFree := sample_collisionFree sample
  have bare := (reached_rooted reached).2
  have accounted := sample.accounted
  rw [← sample.seen] at accounted
  have known : genesisContents scheduler scheduledConfig ∅ [] ∈ (sampleCommitted start).seen := by
    rw [sample.seen]
    exact List.mem_cons_self
  have only (d : BlockContents) (there : d ∈ (sampleCommitted start).seen) (same : numberEncoding.blockID d.block =
      numberEncoding.blockID (genesisContents scheduler scheduledConfig ∅ []).block) : Unindexed d := by
    refine bare d there ?_
    rw [collisionFree.blocks d there _ known same]
    rfl
  obtain ⟨listed,fails⟩ := unanswered_bare .earliest accounted collisionFree known rfl only
  have stored := Sqlite.recorded_blockByHeight .earliest accounted.stored.recorded known
  exact ⟨sampleCommitted start,_,reached,collisionFree,stored,listed,fails _ _,fails _ _⟩

theorem block_queries_total_sample : ∃ x block,
    Reached numberEncoding scheduler scheduledConfig .earliest (fun _ _ => True) x ∧ CollisionFree numberEncoding x.seen ∧
    (Sqlite.backend numberEncoding .earliest).blockByHeight 1 x.emulator.storage = .ok block ∧
    ∃ c ∈ x.seen, c.block = block ∧
      Total numberEncoding scheduler scheduledConfig (Sqlite.backend numberEncoding .earliest) x.emulator c := by
  obtain ⟨start,c,sample⟩ := sample_committed
  have reached := sample_reached_any sample
  have collisionFree := sample_collisionFree sample
  have stored := sample_stored sample
  obtain ⟨d,known,same,total⟩ := block_queries_total_iff reached collisionFree 1 c.block stored
  exact ⟨sampleCommitted start,c.block,reached,collisionFree,stored,d,known,same,total.mpr Nat.one_pos⟩

end
end FlowEmulator.BlockQueries
