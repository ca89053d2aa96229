import FlowEmulator.Accounts
import FlowEmulator.Lookups
import FlowEmulator.Production

/-!
What is committed stays. Of the blocks up to a height, every query about their
parts and about the ledgers at their heights is answered from what was committed,
and goes on to be, whatever requests are made and whatever rollbacks to that
height or above.
-/
namespace FlowEmulator.Chronicle
open FlowEmulator.DefaultStore FlowEmulator.Blockchain FlowEmulator.Run
open FlowEmulator.Sqlite (Choices)

/-- A transaction in the contents of a block, of users or of the system. -/
def Body (c : BlockContents) (id : Identifier) (tx : TransactionBody) : Prop :=
  c.transactions.lookup id = some tx ∨ c.systemTransactionBodies.lookup id = some tx

/-- No two different blocks, collections or transactions that were committed have one identifier. -/
structure NoCollisions (E : Encoding) (seen : List BlockContents) : Prop extends CollisionFree E seen where
  transactions : ∀ c ∈ seen, ∀ d ∈ seen, ∀ id tx other, Body c id tx → Body d id other → tx = other

/-- The queries about the first blocks of a chain answer from their contents. -/
structure Recalled {σ : Type} (E : Encoding) (M : Machine) (config : Config) (B : Backend σ) (front : List BlockContents)
    (b : Blockchain σ) : Prop where
  byHeight : ∀ c ∈ front, getBlockByHeight B c.block.height b = .ok c.block
  byID : ∀ c ∈ front, getBlockByID B (E.blockID c.block) b = .ok c.block
  collection : ∀ c ∈ front, ∀ id ∈ c.block.guarantees, getCollectionByID B id b = .ok ⟨c.userTransactions⟩
  transaction : ∀ c ∈ front, ∀ id tx, Body c id tx → getTransaction E M config B id b = .ok tx
  result : ∀ c ∈ front, ∀ id result, c.transactionResults.lookup id = some result →
    getTransactionResult B id b = .ok (sealedResult id result)
  events : ∀ c ∈ front, ∀ eventType, getEventsByHeight B c.block.height eventType b = .ok (eventsOfType eventType c.events)
  systemTransactions : ∀ c ∈ front, c.systemTransactions ≠ [] →
    getSystemTransactionsForBlock B (E.blockID c.block) b = .ok c.systemTransactions
  systemResult : ∀ c ∈ front, ∀ id result, c.systemTransactionResults.lookup id = some result →
    systemResult B (E.blockID c.block) id b = .ok (sealedResult id result)
  ledger : ∀ height, height < front.length → ∀ r, b.ledger B height r = .ok (ledgerAt front height r)

/-- The step makes no rollback below a height. -/
def Spares (height : Nat) : Step → Prop
  | .request _ => True
  | .rollback _ target => height ≤ target

/-- The chain of a session begins with some blocks. -/
def Begins (E : Encoding) (M : Machine) (config : Config) (front : List BlockContents) (x : Session) : Prop :=
  ∃ cs latest, Accounted E M config cs x.seen latest x.emulator ∧ front <+: cs

section
variable {E : Encoding} {M : Machine} {config : Config} {choices : Choices} {cs seen front : List BlockContents} {latest : Nat}
  {b : Blockchain Sqlite.Store} {x : Session}

theorem noCollisions_subset {less : List BlockContents} (free : NoCollisions E seen) (inside : less ⊆ seen) :
    NoCollisions E less where
  blocks c here d there := free.blocks c (inside here) d (inside there)
  collections c here left member d there := free.collections c (inside here) left member d (inside there)
  transactions c here d there := free.transactions c (inside here) d (inside there)

/-- The body that is found for a transaction of the chain is the one that was committed. -/
theorem accounted_body (accounted : Accounted E M config cs seen latest b) (free : NoCollisions E seen) {c : BlockContents}
    (here : c ∈ cs) {id : Identifier} {tx : TransactionBody} (body : Body c id tx) :
    getTransaction E M config (Sqlite.backend E choices) id b = .ok tx := by
  have known := accounted.stored.archived.known
  have filled := stored_filled accounted.stored here
  have inside : id ∈ c.transactions ∨ id ∈ c.systemTransactionBodies :=
    body.imp (fun found => AList.lookup_isSome.mp (Option.isSome_iff_exists.mpr ⟨tx,found⟩))
      (fun found => AList.lookup_isSome.mp (Option.isSome_iff_exists.mpr ⟨tx,found⟩))
  obtain ⟨d,there,other,otherBody,found⟩ := Sqlite.archived_transaction choices accounted.stored.archived here inside
  obtain rfl := free.transactions c (known c here) d (known d there) id tx other body otherBody
  have absent : b.pendingBlock.transactions.lookup id = none := by
    rw [AList.lookup_eq_none,accounted.underway.tracked.listed.keys]
    exact accounted_outside accounted here (inside.imp (filled.transactions id).mp (filled.system id).mp)
  have stored : (Sqlite.backend E choices).transactionByID id b.storage = .ok tx := found
  rw [getTransaction,absent]
  dsimp only
  rw [stored]

variable (choices) in
/-- The first blocks of a chain are recalled. -/
theorem accounted_recalled (accounted : Accounted E M config cs seen latest b) (free : NoCollisions E seen)
    (isFront : front <+: cs) : Recalled E M config (Sqlite.backend E choices) front b := by
  have stored := accounted.stored
  have inside (c : BlockContents) (here : c ∈ front) : c ∈ cs := isFront.subset here
  have answered {α : Type} (missing : QueryError) {answer : Except StoreError α} {value : α} (read : answer = .ok value) :
      orMissing missing answer = .ok value := by
    rw [read]
    rfl
  refine ⟨fun c here => ?_,fun c here => ?_,fun c here id guaranteed => ?_,fun c here id tx body => ?_,
    fun c here id result found => ?_,fun c here eventType => ?_,fun c here some => ?_,fun c here id result found => ?_,
    fun height low r => ?_⟩
  · exact answered _ (Sqlite.recorded_blockByHeight choices stored.recorded (inside c here))
  · exact answered _ (stored_block choices stored free.toCollisionFree (inside c here))
  · exact answered _ (stored_guarantee choices stored free.toCollisionFree (inside c here) guaranteed).2.2.2
  · exact accounted_body accounted free (inside c here) body
  · exact accounted_sealed choices accounted (inside c here) found
  · exact Sqlite.archived_events choices stored.archived stored.recorded.chain (inside c here) eventType
  · rw [getSystemTransactionsForBlock,stored_systemTransactions choices stored free.toCollisionFree (inside c here) some]
  · rw [Blockchain.systemResult,stored_systemResult choices stored free.toCollisionFree (inside c here) found]
  · obtain ⟨more,rfl⟩ := isFront
    rw [← ledgerAt_append low more]
    exact congrFun (stored_ledger choices stored height) r

/-! ### Whole runs -/

theorem begins_take (begins : Begins E M config front x) (c : Call) : Begins E M config front (take E M config choices c x) := by
  obtain ⟨cs,latest,accounted,isFront⟩ := begins
  obtain ⟨height,longer,_⟩ := accounted_take choices accounted c
  exact ⟨_,height,longer,isFront.trans (List.prefix_append ..)⟩

/-- A rollback cuts the chain behind its height. -/
theorem begins_rollBack (begins : Begins E M config front x) (tick : Tick) {height : Nat} (short : front.length ≤ height+1) :
    Begins E M config front (rollBack E M config choices tick height x) := by
  obtain ⟨cs,latest,accounted,isFront⟩ := begins
  rcases accounted_rollback accounted tick height with refused | ⟨_,_,_,cut⟩
  · refine ⟨cs,latest,?_,isFront⟩
    show Accounted E M config cs x.seen latest
      (rollbackToBlockHeight E M config (Sqlite.backend E choices) tick height x.emulator).2
    rw [refused]
    exact accounted
  · exact ⟨_,height,cut,List.prefix_take_iff.mpr ⟨isFront,short⟩⟩

theorem begins_step {height : Nat} (length : front.length = height+1) (x : Session) (s : Step)
    (begins : Begins E M config front x) (spares : Spares height s) :
    Begins E M config front (step E M config choices s x) := by
  cases s with
  | request r =>
    have keeps (x : Session) (c : Call) (begins : Begins E M config front x) (_ : True) :
        Begins E M config front (take E M config choices c x) := begins_take begins c
    exact play_keeps keeps begins (throughout_all fun _ _ => trivial)
  | rollback tick target =>
    have above : height ≤ target := spares
    exact begins_rollBack begins tick (by omega)

/-- What was committed is not forgotten, also when it is rolled back. -/
theorem seen_steps (steps : List Step) (x : Session) : x.seen <+: (play (step E M config choices) steps x).seen := by
  have keeps (y : Session) (s : Step) (isFront : x.seen <+: y.seen) (_ : True) :
      x.seen <+: (step E M config choices s y).seen := by
    cases s with
    | request r => exact isFront.trans (seen_request r y)
    | rollback tick height => exact isFront
  exact play_keeps keeps List.prefix_rfl (throughout_all fun _ _ => trivial)

/-- A block that is found at a height ends a front of the chain. -/
theorem reached_front {condition : Session → Call → Prop} (reached : Reached E M config choices condition x) {height : Nat}
    {block : Block} (found : getBlockByHeight (Sqlite.backend E choices) height x.emulator = .ok block) :
    ∃ front c, Begins E M config (front ++ [c]) x ∧ (front ++ [c]).length = height+1 ∧ c.block = block := by
  obtain ⟨cs,latest,accounted⟩ := reached_chained reached
  obtain ⟨c,_,same,place⟩ := stored_found accounted.stored (orMissing_ok found)
  obtain ⟨low,there⟩ := List.getElem?_eq_some_iff.mp place
  have parts : cs.take height ++ [c] = cs.take (height+1) := by rw [← there,List.take_concat_get' cs height low]
  refine ⟨cs.take height,c,⟨cs,latest,accounted,?_⟩,?_,same⟩
  · rw [parts]
    exact List.take_prefix ..
  · rw [parts,List.length_take]
    omega

/-- Whatever is done after a block was committed, as long as no rollback goes
    below it, all queries about it and the blocks below it answer as before. -/
theorem committed_blocks_final {condition : Session → Call → Prop} (reached : Reached E M config choices condition x)
    {height : Nat} {block : Block} (found : getBlockByHeight (Sqlite.backend E choices) height x.emulator = .ok block)
    (steps : List Step) (spared : ∀ s ∈ steps, Spares height s)
    (free : NoCollisions E (play (step E M config choices) steps x).seen) :
    ∃ front c, (front ++ [c]).length = height+1 ∧ c.block = block ∧
      Recalled E M config (Sqlite.backend E choices) (front ++ [c]) x.emulator ∧
      Recalled E M config (Sqlite.backend E choices) (front ++ [c]) (play (step E M config choices) steps x).emulator := by
  obtain ⟨front,c,begins,length,same⟩ := reached_front reached found
  have later : Begins E M config (front ++ [c]) (play (step E M config choices) steps x) :=
    play_keeps (begins_step length) begins (throughout_all spared)
  obtain ⟨cs,latest,accounted,isFront⟩ := begins
  obtain ⟨ds,last,accountedLater,isFrontLater⟩ := later
  exact ⟨front,c,length,same,
    accounted_recalled choices accounted (noCollisions_subset free (seen_steps steps x).subset) isFront,
    accounted_recalled choices accountedLater free isFrontLater⟩

end

section
open FlowEmulator.Samples

/-- In the sample session a user's transaction has number 10, those of the system have numbers 1, 2 and 3. -/
theorem sample_noCollisions {start : Session} {c : BlockContents} (sample : SampleBlock start c) :
    NoCollisions numberEncoding (sampleCommitted start).seen := by
  have filled := stored_filled sample.accounted.stored (List.mem_cons_of_mem _ List.mem_cons_self)
  have one (d : BlockContents) (here : d ∈ (sampleCommitted start).seen) {id : Identifier} {tx : TransactionBody}
      (body : Body d id tx) : d = c := by
    rw [sample.seen] at here
    rcases List.mem_cons.mp here with rfl | last
    · rcases body with wrong | wrong <;> cases wrong
    · exact List.mem_singleton.mp last
  refine ⟨sample_collisionFree sample,fun d here e there id tx other body otherBody => ?_⟩
  obtain rfl := one d here body
  obtain rfl := one e there otherBody
  have apart : ¬ (id ∈ e.userTransactions ∧ id ∈ e.systemTransactions) := by
    rw [sample_userTransactions sample,sample.system]
    rintro ⟨user,system⟩
    rw [List.mem_singleton.mp user] at system
    exact absurd system (by decide)
  have user {tx : TransactionBody} (found : e.transactions.lookup id = some tx) : id ∈ e.userTransactions :=
    (filled.transactions id).mp (AList.lookup_isSome.mp (Option.isSome_iff_exists.mpr ⟨tx,found⟩))
  have system {tx : TransactionBody} (found : e.systemTransactionBodies.lookup id = some tx) : id ∈ e.systemTransactions :=
    (filled.system id).mp (AList.lookup_isSome.mp (Option.isSome_iff_exists.mpr ⟨tx,found⟩))
  rcases body with left | left <;> rcases otherBody with right | right
  · exact Option.some.inj (left.symm.trans right)
  · exact absurd ⟨user left,system right⟩ apart
  · exact absurd ⟨user right,system left⟩ apart
  · exact Option.some.inj (left.symm.trans right)

/-- A block stays when the clock is set and a rollback to its height is tried. -/
theorem committed_blocks_final_sample : ∃ start c, SampleBlock start c ∧
    getBlockByHeight (Sqlite.backend numberEncoding .earliest) 1
      (play (step numberEncoding scheduler scheduledConfig .earliest) [.request (.setClock time),.rollback tick 1]
        (sampleCommitted start)).emulator = .ok c.block := by
  obtain ⟨start,c,sample⟩ := sample_committed
  have found : getBlockByHeight (Sqlite.backend numberEncoding .earliest) 1 (sampleCommitted start).emulator = .ok c.block := by
    rw [getBlockByHeight,sample_stored sample]
    rfl
  have same : (play (step numberEncoding scheduler scheduledConfig .earliest) [.request (.setClock time),.rollback tick 1]
      (sampleCommitted start)).seen = (sampleCommitted start).seen := List.append_nil _
  obtain ⟨front,last,_,block,_,after⟩ := committed_blocks_final (sample_reached_any sample) found
    [.request (.setClock time),.rollback tick 1] (by simp [Spares]) (same ▸ sample_noCollisions sample)
  have read := after.byHeight last (by simp)
  rw [block,sample_height sample] at read
  exact ⟨start,c,sample,read⟩

end
end FlowEmulator.Chronicle
