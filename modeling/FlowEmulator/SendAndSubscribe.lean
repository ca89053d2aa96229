import FlowEmulator.Failures
import FlowEmulator.StatusStream

/-!
Sending a transaction and subscribing to its statuses in one call. The transaction
is sent first, and then the block it refers to is looked up, where the stream
begins. The check of a sent transaction need not ask for that block, so the call
can fail with the transaction taken in. With blocks mined automatically the sending
itself can fail after that.
-/
namespace FlowEmulator.StatusStream
open FlowEmulator.Fallible FlowEmulator.Blockchain FlowEmulator.Chronicle
open FlowEmulator.Sqlite (Choices)

/-- Why a subscription fails. -/
inductive SubscriptionFailure where
  | sending (e : EmulatorError)
  | startBlock (e : QueryError)
deriving DecidableEq

section
variable {σ : Type} (E : Encoding) (M : Machine) (config : Config) (B : Backend σ)

def createTransactionSubscription (txID startBlockID : Identifier) (version : EventEncodingVersion) (b : Blockchain σ) :
    Except SubscriptionFailure Subscription := do
  let startBlock ← (getBlockByID B startBlockID b).mapError .startBlock
  pure ⟨txID,startBlock.height,version⟩

def sendAndSubscribeTransactionStatuses (tick : Tick) (tx : TransactionBody) (version : EventEncodingVersion) :
    Fallible SubscriptionFailure (Blockchain σ) Subscription := do
  inside id (fun after _ => after) .sending (sendTransaction E M config B tick tx)
  attempt (createTransactionSubscription B (E.transactionID tx) tx.referenceBlockID version)

/-- The transaction is neither in the pending block nor in the store, unless it was before. -/
structure NotTaken (tx : TransactionBody) (b after : Blockchain σ) : Prop where
  pending : after.pendingBlock.containsTransaction (E.transactionID tx) = true →
    b.pendingBlock.containsTransaction (E.transactionID tx) = true
  committed : ∀ body, B.transactionByID (E.transactionID tx) after.storage = .ok body →
    B.transactionByID (E.transactionID tx) b.storage = .ok body

/-- A call that fails takes nothing in, whatever the virtual machine answers to its runs. -/
def FailsAtomically (tick : Tick) (tx : TransactionBody) (version : EventEncodingVersion) (b : Blockchain σ) : Prop :=
  ∀ run e after, sendAndSubscribeTransactionStatuses E { M with run := run } config B tick tx version b = (.error e,after) →
    NotTaken E B tx b after

/-- The emulator with a transaction in its pending block. -/
def queue (tx : TransactionBody) (b : Blockchain σ) : Blockchain σ :=
  { b with pendingBlock := b.pendingBlock.addTransaction E tx }

end

section
variable {σ : Type} {E : Encoding} {M : Machine} {config : Config} {B : Backend σ} {tick : Tick} {tx : TransactionBody}
  {version : EventEncodingVersion} {b after : Blockchain σ}

theorem sendAndSubscribe_unsent {e : EmulatorError} (failed : sendTransaction E M config B tick tx b = (.error e,after)) :
    sendAndSubscribeTransactionStatuses E M config B tick tx version b = (.error (.sending e),after) :=
  bind_error (inside_error failed) _

/-- A transaction that is sent stays so, whether its block is found or not. -/
theorem sendAndSubscribe_sent (sent : sendTransaction E M config B tick tx b = (.ok (),after)) :
    sendAndSubscribeTransactionStatuses E M config B tick tx version b =
      (createTransactionSubscription B (E.transactionID tx) tx.referenceBlockID version after,after) :=
  bind_ok (inside_ok sent) _

variable (B b version) in
/-- The subscription needs the block it starts at, and nothing else. -/
theorem createTransactionSubscription_ok (txID startBlockID : Identifier) :
    (∃ sub, createTransactionSubscription B txID startBlockID version b = .ok sub) ↔
      ∃ block, getBlockByID B startBlockID b = .ok block := by
  unfold createTransactionSubscription
  cases getBlockByID B startBlockID b <;> simp [Except.mapError,bind,Except.bind,pure,Except.pure]

/-- A transaction that is refused is not taken in. -/
theorem refused_notTaken (refused : ¬ Acceptable E M B tx b) {e : SubscriptionFailure}
    (failed : sendAndSubscribeTransactionStatuses E M config B tick tx version b = (.error e,after)) : NotTaken E B tx b after := by
  obtain ⟨_,unadded⟩ := unacceptable_refused refused
  have unsent : sendTransaction E M config B tick tx b = (.error _,b) := bind_error unadded _
  rw [sendAndSubscribe_unsent unsent] at failed
  cases failed
  exact ⟨fun same => same,fun _ same => same⟩

/-- Where nothing can be run a block with transactions that wait is not executed. -/
theorem unrun_executeBlock (unrun : ∀ context tx index registers, ∃ message, M.run context tx index registers = .error message)
    (waiting : b.pendingBlock.index < b.pendingBlock.size) : ∃ e after, executeBlock E M B b = (.error e,after) := by
  obtain ⟨e,after,failed⟩ : ∃ e after, executeNextTransaction E M B b = (.error e,after) := by
    have executes := executeNextTransaction_executes E M B b
    generalize executeNextTransaction E M B b = out at executes ⊢
    cases executes with
    | executed tx _ _ writes output ran =>
      obtain ⟨_,fails⟩ := unrun (b.context E .user) tx b.pendingBlock.index (b.registers B)
      rw [ran] at fails
      cases fails
    | _ => exact ⟨_,_,rfl⟩
  have incomplete : b.pendingBlock.executionComplete = false := decide_eq_false (Nat.not_le.mpr waiting)
  have filled : b.pendingBlock.empty = false := decide_eq_false (Nat.ne_of_gt (Nat.zero_lt_of_lt waiting))
  refine ⟨e,after,?_⟩
  obtain ⟨rest,count⟩ := Nat.exists_eq_add_of_lt waiting
  have fuel : b.pendingBlock.size-b.pendingBlock.index = rest+1 := by omega
  unfold executeBlock
  rw [bind_ok (view_run _ b),incomplete,fuel]
  show executeRemaining E M B (rest+1) [] b = _
  unfold executeRemaining
  rw [bind_ok (view_run _ b),incomplete,filled]
  exact bind_error failed _

theorem queue_contains : (queue E tx b).pendingBlock.containsTransaction (E.transactionID tx) = true :=
  Option.isSome_iff_exists.mpr ⟨tx,AList.lookup_insert _⟩

section
variable (acceptable : Acceptable E M B tx b)
include acceptable

theorem sendTransaction_acceptable : sendTransaction E M config B tick tx b = (if b.autoMine then do
      let _ ← executeAndCommitBlock E M config B tick
      pure ()
    else pure () : EmulatorM σ Unit) (queue E tx b) := by
  rw [sendTransaction,bind_ok (acceptable_added acceptable),bind_ok (view_run _ _)]
  rfl

/-- A transaction that was acceptable and is in the pending block was taken in. -/
theorem taken_pending (contained : after.pendingBlock.containsTransaction (E.transactionID tx) = true) :
    ¬ NotTaken E B tx b after := by
  intro none
  have before := none.pending contained
  rw [acceptable.fresh] at before
  cases before

/-- Sending fails with the transaction in the pending block. -/
theorem failed_taken {e : EmulatorError} (failed : sendTransaction E M config B tick tx b = (.error e,after)) :
    ¬ NotTaken E B tx b after := by
  rcases sendTransaction_failed failed with ⟨refused,_⟩ | ⟨_,contained⟩
  · exact absurd acceptable refused
  · exact taken_pending acceptable contained

/-- Without automatic mining the transaction is in the pending block, and the store is the same. -/
theorem sendAndSubscribe_idle (idle : b.autoMine = false) : sendAndSubscribeTransactionStatuses E M config B tick tx version b =
    (createTransactionSubscription B (E.transactionID tx) tx.referenceBlockID version b,queue E tx b) := by
  have sent : sendTransaction E M config B tick tx b = (.ok (),queue E tx b) := by
    rw [sendTransaction_acceptable acceptable,idle]
    rfl
  exact sendAndSubscribe_sent sent

/-- With automatic mining the call fails and takes the transaction in where nothing can be run. -/
theorem sendAndSubscribe_unrun (mining : b.autoMine = true)
    (unrun : ∀ context tx index registers, ∃ message, M.run context tx index registers = .error message) :
    ∃ e after, sendAndSubscribeTransactionStatuses E M config B tick tx version b = (.error e,after) ∧ ¬ NotTaken E B tx b after := by
  have waiting : (queue E tx b).pendingBlock.index < (queue E tx b).pendingBlock.size := by
    show b.pendingBlock.index < (b.pendingBlock.transactionIDs ++ [E.transactionID tx]).length
    rw [acceptable.idle,List.length_append]
    exact Nat.succ_pos _
  obtain ⟨e,after,unexecuted⟩ := unrun_executeBlock (E := E) (B := B) unrun waiting
  have unsent : sendTransaction E M config B tick tx b = (.error e,after) := by
    rw [sendTransaction_acceptable acceptable,mining,if_pos rfl]
    exact bind_error (bind_error unexecuted _) _
  exact ⟨_,after,sendAndSubscribe_unsent unsent,failed_taken acceptable unsent⟩

end

/-- What is accepted does not depend on what the virtual machine answers to a run. -/
theorem acceptable_run (run) : Acceptable E { M with run := run } B tx b ↔ Acceptable E M B tx b :=
  ⟨fun h => ⟨h.idle,h.fresh,h.missing,h.valid⟩,fun h => ⟨h.idle,h.fresh,h.missing,h.valid⟩⟩

/-- Without automatic mining the call must find the block that the transaction
    refers to. With it the call must find nothing to do, as a run can always fail. -/
theorem failsAtomically_known : FailsAtomically E M config B tick tx version b ↔
    (Acceptable E M B tx b → b.autoMine = false ∧ ∃ block, getBlockByID B tx.referenceBlockID b = .ok block) := by
  have subscribed := createTransactionSubscription_ok B version b (E.transactionID tx) tx.referenceBlockID
  refine ⟨fun atomic acceptable => ?_,fun condition run e after failed => ?_⟩
  · cases mining : b.autoMine with
    | true =>
      let halt : Context → TransactionBody → Nat → Registers → Except String (WriteSet × ProcedureOutput) :=
        fun _ _ _ _ => .error "run"
      obtain ⟨e,after,failed,taken⟩ : ∃ e after, sendAndSubscribeTransactionStatuses E { M with run := halt } config B tick tx
          version b = (.error e,after) ∧ ¬ NotTaken E B tx b after :=
        sendAndSubscribe_unrun ((acceptable_run halt).mpr acceptable) mining fun _ _ _ _ => ⟨_,rfl⟩
      exact absurd (atomic halt e after failed) taken
    | false =>
      refine ⟨rfl,subscribed.mp ?_⟩
      rcases made : createTransactionSubscription B (E.transactionID tx) tx.referenceBlockID version b with e | sub
      · have failed : sendAndSubscribeTransactionStatuses E M config B tick tx version b = _ := sendAndSubscribe_idle acceptable mining
        rw [made] at failed
        exact absurd (atomic M.run e _ failed) (taken_pending acceptable queue_contains)
      · exact ⟨sub,rfl⟩
  · by_cases acceptable : Acceptable E M B tx b
    · obtain ⟨idle,known⟩ := condition acceptable
      obtain ⟨sub,made⟩ := subscribed.mpr known
      rw [sendAndSubscribe_idle ((acceptable_run run).mpr acceptable) idle,made] at failed
      cases failed
    · exact refused_notTaken (fun other => acceptable ((acceptable_run run).mp other)) failed

end

section
variable {E : Encoding} {M : Machine} {config : Config} {choices : Choices} {cs seen : List BlockContents} {latest : Nat}
  {b after : Blockchain Sqlite.Store}

/-- The blocks of the chain are found by their identifiers. -/
theorem accounted_getBlockByID (choices : Choices) (accounted : Accounted E M config cs seen latest b) {c : BlockContents}
    (here : c ∈ cs) {id : Identifier} (named : E.blockID c.block = id) :
    ∃ block, getBlockByID (Sqlite.backend E choices) id b = .ok block := by
  subst named
  obtain ⟨d,_,_,found⟩ := Sqlite.archived_blockByID choices accounted.stored.archived here
    fun d there e other same => chain_height_inj accounted.stored.recorded.chain there other same
  have found : (Sqlite.backend E choices).blockByID (E.blockID c.block) b.storage = .ok d.block := found
  exact ⟨d.block,by rw [getBlockByID,found]; rfl⟩

/-- Executing and committing the pending block adds its transactions to the chain. -/
theorem accounted_executeAndCommitBlock (accounted : Accounted E M config cs seen latest b) {tick : Tick} {block : Block}
    {results : List TransactionResult}
    (run : executeAndCommitBlock E M config (Sqlite.backend E choices) tick b = (.ok (block,results),after)) :
    ∃ c, c.userTransactions = b.pendingBlock.transactionIDs ∧ Accounted E M config (cs ++ [c]) (seen ++ [c]) (latest+1) after := by
  obtain ⟨_,middle,executed,rest⟩ := bind_eq_ok.mp run
  obtain ⟨_,_,committed,same⟩ := bind_eq_ok.mp rest
  cases same
  let P (s : Blockchain Sqlite.Store) : Prop := Accounted E M config cs seen latest s ∧
    s.pendingBlock.transactionIDs = b.pendingBlock.transactionIDs
  have each : Keeps P (executeNextTransaction E M (Sqlite.backend E choices)) := by
    rintro s ⟨here,ids⟩
    exact ⟨accounted_execute here,executes_transactions.trans ids⟩
  have kept := keeps_executeBlock each b ⟨accounted,rfl⟩
  rw [executed] at kept
  obtain ⟨still,ids⟩ := kept
  have commits : Committed E M config choices cs seen latest tick middle _ := accounted_commit still tick
  rw [committed] at commits
  cases commits with
  | saved c _ ready made counted sealed pending longer =>
    exact ⟨c,(sealed_userTransactions sealed).trans ids,longer⟩

/-- A transaction that was acceptable is taken in by a call that fails, in the pending block or with it in the chain. -/
theorem acceptable_taken (accounted : Accounted E M config cs seen latest b) {tick : Tick} {tx : TransactionBody}
    {version : EventEncodingVersion} (acceptable : Acceptable E M (Sqlite.backend E choices) tx b) {e : SubscriptionFailure}
    (failed : sendAndSubscribeTransactionStatuses E M config (Sqlite.backend E choices) tick tx version b = (.error e,after)) :
    ¬ NotTaken E (Sqlite.backend E choices) tx b after := by
  rcases sent : sendTransaction E M config (Sqlite.backend E choices) tick tx b with ⟨stopped | _,middle⟩
  · rw [sendAndSubscribe_unsent sent] at failed
    cases failed
    exact failed_taken acceptable sent
  -- it was sent, so that only the subscription failed, which changes nothing
  rw [sendAndSubscribe_sent sent] at failed
  obtain ⟨_,rfl⟩ := Prod.mk.inj failed
  rw [sendTransaction_acceptable acceptable] at sent
  cases mining : b.autoMine with
  | false =>
    rw [mining] at sent
    cases sent
    exact taken_pending acceptable queue_contains
  | true =>
    rw [mining,if_pos rfl] at sent
    obtain ⟨⟨block,results⟩,_,run,same⟩ := bind_eq_ok.mp sent
    cases same
    have queued : Accounted E M config cs seen latest (queue E tx b) := by
      have still : Accounted E M config cs seen latest (addTransaction E M (Sqlite.backend E choices) tx b).2 :=
        accounted_add accounted tx
      rw [acceptable_added acceptable] at still
      exact still
    obtain ⟨c,ids,longer⟩ := accounted_executeAndCommitBlock queued run
    have member : E.transactionID tx ∈ c.userTransactions := by
      rw [ids]
      exact List.mem_append_right _ List.mem_cons_self
    obtain ⟨body,found,_⟩ := stored_transaction choices longer.stored (List.mem_append_right _ List.mem_cons_self) (.inl member)
    intro none
    have before := none.committed body found
    rw [acceptable.missing] at before
    cases before

variable (choices) in
/-- In every session a call that fails takes nothing in exactly if the transaction
    is refused. Whatever the virtual machine answers, this is so exactly if it is
    refused, or no blocks are mined automatically and the block that it refers to is known. -/
theorem failsAtomically_iff {x : Session} (reached : Chronicle.Reached E M config choices (fun _ _ => True) x) (tick : Tick)
    (tx : TransactionBody) (version : EventEncodingVersion) :
    (FailsAtomically E M config (Sqlite.backend E choices) tick tx version x.emulator ↔
      (Acceptable E M (Sqlite.backend E choices) tx x.emulator → x.emulator.autoMine = false ∧
        ∃ block, getBlockByID (Sqlite.backend E choices) tx.referenceBlockID x.emulator = .ok block)) ∧
    ∀ e after, sendAndSubscribeTransactionStatuses E M config (Sqlite.backend E choices) tick tx version x.emulator =
        (.error e,after) →
      (NotTaken E (Sqlite.backend E choices) tx x.emulator after ↔ ¬ Acceptable E M (Sqlite.backend E choices) tx x.emulator) := by
  obtain ⟨cs,latest,accounted⟩ := reached_chained reached
  refine ⟨failsAtomically_known,fun e after failed => ?_⟩
  exact ⟨fun none acceptable => acceptable_taken accounted acceptable failed none,fun refused => refused_notTaken refused failed⟩

end
section
open FlowEmulator.Samples

/-- An encoding under which no block has the empty identifier. -/
def properEncoding : Encoding := { numberEncoding with blockID := fun b => digest (b.height+1) }

/-- A session with a new emulator that does not mine automatically. -/
theorem proper_begun : ∃ x, Chronicle.Reached properEncoding machine config .earliest (fun _ _ => True) x ∧
    Accounted properEncoding machine config [genesisContents machine config ∅ []] x.seen 0 x.emulator ∧
    x.emulator.autoMine = false ∧ x.emulator.pendingBlock = newPendingBlock properEncoding tick (genesis machine .emulator) ∧
    ∀ tx, Acceptable properEncoding machine (Sqlite.backend properEncoding .earliest) tx x.emulator := by
  have bootstrapped (registers : Registers) : machine.bootstrap config.getChainID registers = .ok (∅,[]) := rfl
  obtain ⟨storage,created,accounted,missing⟩ := sample_begun (E := properEncoding) bootstrapped false
  let x : Session := ⟨⟨storage,newPendingBlock properEncoding tick (genesis machine .emulator),zeroID,false⟩,
    [genesisContents machine config ∅ []],[],false⟩
  refine ⟨x,⟨x,[],⟨.inMemory,tick,false,∅,[],created,bootstrapped _,rfl,rfl,rfl⟩,trivial,rfl⟩,accounted,rfl,rfl,fun tx => ?_⟩
  exact ⟨rfl,rfl,missing _,rfl⟩

/-- A transaction with the empty reference is sent. The subscription fails, and the
    transaction is in the pending block. -/
theorem failed_subscription_takes_transaction : ∃ x after,
    Chronicle.Reached properEncoding machine config .earliest (fun _ _ => True) x ∧ (numbered 10).referenceBlockID = zeroID ∧
    sendAndSubscribeTransactionStatuses properEncoding machine config (Sqlite.backend properEncoding .earliest) tick (numbered 10)
      .ccf x.emulator = (.error (.startBlock (.blockNotFoundByID zeroID)),after) ∧
    x.emulator.pendingBlock.containsTransaction (digest 10) = false ∧
    after.pendingBlock.containsTransaction (digest 10) = true := by
  obtain ⟨x,reached,accounted,idle,pending,acceptable⟩ := proper_begun
  have sent : sendTransaction properEncoding machine config (Sqlite.backend properEncoding .earliest) tick (numbered 10) x.emulator =
      (.ok (),queue properEncoding (numbered 10) x.emulator) := by
    rw [sendTransaction_acceptable (acceptable _),idle]
    rfl
  have missing : (Sqlite.backend properEncoding .earliest).blockByID zeroID x.emulator.storage = .error .notFound := by
    refine Sqlite.archived_noID .earliest accounted.stored.archived fun d only => ?_
    rw [List.mem_singleton.mp only]
    decide
  have contained : (queue properEncoding (numbered 10) x.emulator).pendingBlock.containsTransaction (digest 10) = true := queue_contains
  refine ⟨x,_,reached,rfl,?_,(acceptable (numbered 10)).fresh,contained⟩
  rw [sendAndSubscribe_sent sent]
  have unknown : getBlockByID (Sqlite.backend properEncoding .earliest) zeroID (queue properEncoding (numbered 10) x.emulator) =
      .error (.blockNotFoundByID zeroID) := by
    show orMissing _ ((Sqlite.backend properEncoding .earliest).blockByID zeroID x.emulator.storage) = _
    rw [missing]
    rfl
  show ((getBlockByID _ zeroID _).mapError _ >>= _,_) = _
  rw [unknown]
  rfl

/-- A transaction that refers to the genesis block is taken in with its subscription, or not at all. -/
theorem failsAtomically_iff_known : ∃ x tx,
    Chronicle.Reached properEncoding machine config .earliest (fun _ _ => True) x ∧
    Acceptable properEncoding machine (Sqlite.backend properEncoding .earliest) tx x.emulator ∧
    FailsAtomically properEncoding machine config (Sqlite.backend properEncoding .earliest) tick tx .ccf x.emulator := by
  obtain ⟨x,reached,accounted,idle,_,acceptable⟩ := proper_begun
  let tx : TransactionBody := { numbered 10 with referenceBlockID := digest 1 }
  have known : ∃ block, getBlockByID (Sqlite.backend properEncoding .earliest) (digest 1) x.emulator = .ok block :=
    accounted_getBlockByID .earliest accounted List.mem_cons_self rfl
  exact ⟨x,tx,reached,acceptable tx,(failsAtomically_iff .earliest reached tick tx .ccf).1.mpr fun _ => ⟨idle,known⟩⟩

end
end FlowEmulator.StatusStream
