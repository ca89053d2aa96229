import FlowEmulator.LinkedChain

/-!
The pending block as a state machine. Over any store, calls that add, execute,
commit and reset keep the list of transactions, the two maps, the events and the
index in step, as long as the virtual machine does not stop and no commit fails
once it has begun. Each call is refused exactly in the states it is meant to be
refused in, and the counts a store checks before it commits agree.
-/
namespace FlowEmulator
open FlowEmulator.Fallible FlowEmulator.Run

/-- The parts of a pending block agree with each other. -/
structure Consistent (p : PendingBlock) : Prop where
  distinct : p.transactionIDs.Nodup
  keys : ∀ id, id ∈ p.transactions ↔ id ∈ p.transactionIDs
  bound : p.index ≤ p.transactionIDs.length
  results : ∀ id, id ∈ p.transactionResults ↔ id ∈ p.transactionIDs.take p.index
  positions : ∀ i id, i < p.index → p.transactionIDs[i]? = some id →
    ∃ result, p.transactionResults.lookup id = some result ∧ result.index = i
  events : p.events = (p.transactionIDs.take p.index).flatMap fun id =>
    (p.transactionResults.lookup id).elim [] fun result => result.output.events

section
variable {E : Encoding} {M : Machine} {base : Registers} {p : PendingBlock} {runs : List Execution}

theorem intact_consistent (intact : Intact E M base p runs) (listed : Listed E p) : Consistent p := by
  refine ⟨listed.distinct,listed.keys,listed.bound,fun id => ?_,fun i id low here => ?_,?_⟩
  · rw [intact.results,mem_collect,indexed_keys,intact.ids]
    exact ⟨fun member => member.resolve_left (AList.notMem_empty id),.inr⟩
  · have place : (transactionIDs E runs)[i]? = some id := by
      rw [intact.ids,List.getElem?_take_of_lt low]
      exact here
    rw [transactionIDs,List.getElem?_map] at place
    obtain ⟨run,atRun,rfl⟩ := Option.map_eq_some_iff.mp place
    exact ⟨_,tallied_lookup intact.tallied listed atRun,rfl⟩
  · rw [← intact.ids,intact.events,emitted,transactionIDs,List.flatMap_map]
    refine List.flatMap_congr (fun run member => ?_)
    obtain ⟨i,here⟩ := List.mem_iff_getElem?.mp member
    rw [tallied_lookup intact.tallied listed here]
    rfl

end

namespace Blockchain
section
variable {σ : Type} (E : Encoding) (M : Machine) (config : Config) (B : Backend σ)

/-- The remaining transactions, as many as are given, run without a fatal error. -/
def RunsAll : Nat → Blockchain σ → Prop
  | 0, _ => True
  | fuel+1, b => Runs E M B b ∧
    ∀ result after, executeNextTransaction E M B b = (.ok result,after) → RunsAll fuel after

/-- The calls of the state machine: those that execute run without a fatal
    error, and a commit that is not refused succeeds. -/
def Allowed (b : Blockchain σ) : Request → Prop
  | .addTransaction _ => True
  | .executeNextTransaction => Runs E M B b
  | .executeBlock => RunsAll E M B (b.pendingBlock.size-b.pendingBlock.index) b
  | .commitBlock tick => b.pendingBlock.index < b.pendingBlock.size ∨
    ∃ block after, commitBlock E M config B tick b = (.ok block,after)
  | .resetPendingBlock _ => True
  | _ => False

/-- The emulators that allowed calls reach from a start on some store. -/
def Reached (b : Blockchain σ) : Prop :=
  ∃ tick autoMine storage start requests, newBlockchain E M config B tick autoMine storage = .ok start ∧
    Throughout (request E M config B) (Allowed E M config B) requests start ∧
    play (request E M config B) requests start = b

/-- The pending block is in order, whatever store it is on. -/
def Orderly (b : Blockchain σ) : Prop :=
  Listed E b.pendingBlock ∧ ∃ runs, Intact E M (b.base B) b.pendingBlock runs

/-- A store reports that counts disagree only where they do. -/
structure Honest : Prop where
  transactions : ∀ static c s n m, c.transactions.entries.length = c.transactionResults.entries.length →
    (B.saveBlock E static c s).1 ≠ .error (.transactionsCount n m)
  systemTransactions : ∀ static c s n m, c.systemTransactions.length = c.systemTransactionResults.entries.length →
    (B.saveBlock E static c s).1 ≠ .error (.systemTransactionsCount n m)

end

section
variable {σ : Type} {E : Encoding} {M : Machine} {config : Config} {B : Backend σ}

theorem orderly_new {b : Blockchain σ} {tick : Tick} {prev : Block}
    (pending : b.pendingBlock = newPendingBlock E tick prev) : Orderly E M B b := by
  unfold Orderly
  rw [pending]
  exact ⟨listed_new E tick prev,[],intact_new E M _ tick prev⟩

theorem orderly_add (tx : TransactionBody) {b : Blockchain σ} (orderly : Orderly E M B b) :
    Orderly E M B (addTransaction E M B tx b).2 := by
  obtain ⟨listed,runs,intact⟩ := orderly
  have adds := addTransaction_adds E M B tx b
  exact ⟨adds_listed adds listed,runs,adds_intact adds listed intact⟩

theorem orderly_executeNext {b : Blockchain σ} (orderly : Orderly E M B b) (runs : Runs E M B b) :
    Orderly E M B (executeNextTransaction E M B b).2 := by
  obtain ⟨listed,_,intact⟩ := orderly
  have executes := executeNextTransaction_executes E M B b
  refine ⟨executes_listed executes listed,?_⟩
  rcases executes_intact executes listed intact with still | ⟨failed,_⟩
  · exact still
  · exact absurd runs failed

theorem orderly_executeRemaining {fuel : Nat} {results : List TransactionResult} {b : Blockchain σ}
    (orderly : Orderly E M B b) (runs : RunsAll E M B fuel b) :
    Orderly E M B (executeRemaining E M B fuel results b).2 := by
  induction fuel generalizing results b with
  | zero => exact orderly
  | succ fuel ih =>
    have next := orderly_executeNext orderly runs.1
    unfold executeRemaining
    rw [bind_ok (view_run _ b)]
    split
    · exact orderly
    · rcases run : executeNextTransaction E M B b with ⟨e | result,after⟩
      · rw [run] at next
        rw [bind_error run]
        exact next
      · rw [run] at next
        rw [bind_ok run]
        exact ih next (runs.2 result after run)

theorem orderly_executeBlock {b : Blockchain σ} (orderly : Orderly E M B b)
    (runs : RunsAll E M B (b.pendingBlock.size-b.pendingBlock.index) b) : Orderly E M B (executeBlock E M B b).2 := by
  unfold executeBlock
  rw [bind_ok (view_run _ b)]
  split
  · exact orderly
  · exact orderly_executeRemaining orderly runs

theorem orderly_commit (tick : Tick) {b : Blockchain σ} (orderly : Orderly E M B b)
    (allowed : b.pendingBlock.index < b.pendingBlock.size ∨
      ∃ block after, commitBlock E M config B tick b = (.ok block,after)) :
    Orderly E M B (commitBlock E M config B tick b).2 := by
  have commits : Commits E M config B tick b (commitBlock E M config B tick b) := commitBlock_commits tick b
  generalize commitBlock E M config B tick b = out at commits allowed ⊢
  cases commits with
  | refused waiting => exact orderly
  | unsealed ready e failed =>
    rcases allowed with waiting | ⟨block,after,done⟩
    · omega
    · cases done
  | unsaved ready c sealed e storage run =>
    rcases allowed with waiting | ⟨block,after,done⟩
    · omega
    · cases done
  | committed ready c made sealed storage run => exact orderly_new rfl

theorem orderly_step (b : Blockchain σ) (r : Request) (orderly : Orderly E M B b) (allowed : Allowed E M config B b r) :
    Orderly E M B (request E M config B r b) := by
  cases r with
  | addTransaction tx => exact orderly_add tx orderly
  | executeNextTransaction => exact orderly_executeNext orderly allowed
  | executeBlock => exact orderly_executeBlock orderly allowed
  | commitBlock tick => exact orderly_commit tick orderly allowed
  | resetPendingBlock tick =>
    show Orderly E M B (resetPendingBlock E B tick b).2
    rcases resetPendingBlock_run tick b with same | ⟨block,_,done⟩
    · rw [same]
      exact orderly
    · rw [done]
      exact orderly_new rfl
  | sendTransaction tick tx => cases allowed
  | executeAndCommitBlock tick => cases allowed
  | setClock now => cases allowed
  | setAutoMine on => cases allowed

theorem reached_orderly {b : Blockchain σ} (reached : Reached E M config B b) : Orderly E M B b := by
  obtain ⟨tick,autoMine,storage,start,requests,started,throughout,rfl⟩ := reached
  obtain ⟨_,block,pending⟩ := new_renewed started
  exact play_keeps orderly_step (orderly_new pending) throughout

/-! ### Refusals -/

theorem add_refused (tx : TransactionBody) (b : Blockchain σ) :
    (addTransaction E M B tx b).1 = .error (.pendingBlockMidExecution (b.pendingBlock.id E)) ↔ 0 < b.pendingBlock.index := by
  have adds := addTransaction_adds E M B tx b
  generalize addTransaction E M B tx b = out at adds ⊢
  cases adds with
  | started started => exact ⟨fun _ => started,fun _ => rfl⟩
  | repeated idle listed => exact ⟨nofun,fun started => by omega⟩
  | stored idle fresh body found => exact ⟨nofun,fun started => by omega⟩
  | unreadable idle fresh e failed other => exact ⟨nofun,fun started => by omega⟩
  | invalid idle fresh missing message rejected => exact ⟨nofun,fun started => by omega⟩
  | added idle fresh missing valid => exact ⟨nofun,fun started => by omega⟩

theorem execute_refused {b : Blockchain σ} (listed : Listed E b.pendingBlock) :
    (executeNextTransaction E M B b).1 = .error (.pendingBlockTransactionsExhausted (b.pendingBlock.id E)) ↔
      b.pendingBlock.index = b.pendingBlock.transactionIDs.length := by
  have bound : b.pendingBlock.index ≤ b.pendingBlock.transactionIDs.length := listed.bound
  have executes := executeNextTransaction_executes E M B b
  have waiting (incomplete : b.pendingBlock.executionComplete = false) :
      b.pendingBlock.index < b.pendingBlock.transactionIDs.length := Nat.lt_of_not_le (of_decide_eq_false incomplete)
  generalize executeNextTransaction E M B b = out at executes ⊢
  cases executes with
  | exhausted complete =>
    have reached : b.pendingBlock.transactionIDs.length ≤ b.pendingBlock.index := of_decide_eq_true complete
    exact ⟨fun _ => by omega,fun _ => rfl⟩
  | missing incomplete next => exact ⟨nofun,fun all => by have := waiting incomplete; omega⟩
  | failed tx incomplete next message fatal =>
    exact ⟨nofun,fun all => by have := waiting incomplete; omega⟩
  | unmerged tx incomplete next writes output ran fatal =>
    exact ⟨nofun,fun all => by have := waiting incomplete; omega⟩
  | executed tx incomplete next writes output ran merged =>
    refine ⟨fun refused => ?_,fun all => by have := waiting incomplete; omega⟩
    dsimp only at refused
    split at refused <;> cases refused

/-- Errors of the system transactions are neither refusals nor errors of the store. -/
theorem attempted_error {b : Blockchain σ} {e : EmulatorError} (failed : (attempted E M config B b).2 = .error e) :
    e ≠ .pendingBlockCommitBeforeExecution (b.pendingBlock.id E) ∧ e ≠ .pendingBlockMidExecution (b.pendingBlock.id E) ∧
      ∀ stored, e ≠ .storage stored := by
  have fatal (message : String) : EmulatorError.fatal message ≠ .pendingBlockCommitBeforeExecution (b.pendingBlock.id E) ∧
      EmulatorError.fatal message ≠ .pendingBlockMidExecution (b.pendingBlock.id E) ∧
      ∀ stored, EmulatorError.fatal message ≠ .storage stored := ⟨nofun,nofun,fun _ => nofun⟩
  cases closed : b.pendingBlock.finalized with
  | false =>
    rw [attempted_open closed] at failed
    exact attemptSystem_raises (P := fun e => e ≠ _ ∧ e ≠ _ ∧ ∀ stored, e ≠ .storage stored) fatal
      (fun error => ⟨nofun,nofun,fun _ => nofun⟩) _ _ e failed
  | true =>
    rw [attempted_finalized closed] at failed
    cases failed
    cases firstSystemTransaction M config <;> exact fatal _

theorem commit_refused (tick : Tick) (b : Blockchain σ) :
    ((commitBlock E M config B tick b).1 = .error (.pendingBlockCommitBeforeExecution (b.pendingBlock.id E)) ∨
        (commitBlock E M config B tick b).1 = .error (.pendingBlockMidExecution (b.pendingBlock.id E))) ↔
      b.pendingBlock.transactionIDs ≠ [] ∧ b.pendingBlock.index < b.pendingBlock.transactionIDs.length := by
  have commits : Commits E M config B tick b (commitBlock E M config B tick b) := commitBlock_commits tick b
  generalize commitBlock E M config B tick b = out at commits ⊢
  cases commits with
  | refused waiting =>
    refine ⟨fun _ => ⟨fun none => ?_,waiting⟩,fun _ => ?_⟩
    · rw [PendingBlock.size,none] at waiting
      cases waiting
    · dsimp only
      split
      · exact .inl rfl
      · exact .inr rfl
  | unsealed ready e failed =>
    obtain ⟨first,second,_⟩ := attempted_error failed
    refine ⟨fun refused => ?_,fun waiting => absurd waiting.2 (Nat.not_lt.mpr ready)⟩
    rcases refused with same | same
    · exact absurd (Except.error.inj same) first
    · exact absurd (Except.error.inj same) second
  | unsaved ready c sealed e storage run =>
    refine ⟨fun refused => ?_,fun waiting => absurd waiting.2 (Nat.not_lt.mpr ready)⟩
    rcases refused with same | same <;> cases same
  | committed ready c made sealed storage run =>
    refine ⟨fun refused => ?_,fun waiting => absurd waiting.2 (Nat.not_lt.mpr ready)⟩
    rcases refused with same | same <;> cases same

/-! ### Counts -/

/-- A commit does not fail for the number of results of an orderly block, nor
    for that of system transactions with distinct identifiers. -/
theorem commit_counts (honest : Honest E B) {b : Blockchain σ} (orderly : Orderly E M B b) (tick : Tick) (n m : Nat) :
    (commitBlock E M config B tick b).1 ≠ .error (.storage (.transactionsCount n m)) ∧
      ((transactionIDs E (attempted E M config B b).1).Nodup →
        (commitBlock E M config B tick b).1 ≠ .error (.storage (.systemTransactionsCount n m))) := by
  obtain ⟨listed,runs,intact⟩ := orderly
  have commits : Commits E M config B tick b (commitBlock E M config B tick b) := commitBlock_commits tick b
  generalize commitBlock E M config B tick b = out at commits ⊢
  cases commits with
  | refused waiting =>
    dsimp only
    split <;> exact ⟨nofun,fun _ => nofun⟩
  | unsealed ready e failed =>
    obtain ⟨_,_,stored⟩ := attempted_error failed
    exact ⟨fun same => stored _ (Except.error.inj same),fun _ same => stored _ (Except.error.inj same)⟩
  | unsaved ready c sealed e storage run =>
    have count := tallied_count intact.tallied listed
    have bound := listed.bound
    have answer : (B.saveBlock E (static E M config) c b.storage).1 = .error e := by rw [run]
    refine ⟨fun same => ?_,fun distinct same => ?_⟩
    · cases same
      exact honest.transactions _ _ _ n m ((sealed_count listed sealed).mpr (by omega)) answer
    · cases same
      exact honest.systemTransactions _ _ _ n m ((sealed_systemCount sealed).mpr distinct) answer
  | committed ready c made sealed storage run => exact ⟨nofun,fun _ => nofun⟩

/-- In every state that is reached the parts of the pending block agree, each
    call is refused exactly where it should be, and no commit fails because a
    count of transactions and a count of results disagree. -/
theorem pending_consistent (honest : Honest E B) {b : Blockchain σ} (reached : Reached E M config B b) :
    Consistent b.pendingBlock ∧
    (∀ tx, (addTransaction E M B tx b).1 = .error (.pendingBlockMidExecution (b.pendingBlock.id E)) ↔
      0 < b.pendingBlock.index) ∧
    ((executeNextTransaction E M B b).1 = .error (.pendingBlockTransactionsExhausted (b.pendingBlock.id E)) ↔
      b.pendingBlock.index = b.pendingBlock.transactionIDs.length) ∧
    (∀ tick, ((commitBlock E M config B tick b).1 = .error (.pendingBlockCommitBeforeExecution (b.pendingBlock.id E)) ∨
        (commitBlock E M config B tick b).1 = .error (.pendingBlockMidExecution (b.pendingBlock.id E))) ↔
      b.pendingBlock.transactionIDs ≠ [] ∧ b.pendingBlock.index < b.pendingBlock.transactionIDs.length) ∧
    ∀ tick n m, (commitBlock E M config B tick b).1 ≠ .error (.storage (.transactionsCount n m)) ∧
      ((transactionIDs E (attempted E M config B b).1).Nodup →
        (commitBlock E M config B tick b).1 ≠ .error (.storage (.systemTransactionsCount n m))) := by
  obtain ⟨listed,runs,intact⟩ := reached_orderly reached
  exact ⟨intact_consistent intact listed,fun tx => add_refused tx b,execute_refused listed,
    fun tick => commit_refused tick b,commit_counts honest ⟨listed,runs,intact⟩⟩

/-- The SQL store reports counts honestly. -/
theorem honest_sqlite (E : Encoding) (choices : Sqlite.Choices) : Honest E (Sqlite.backend E choices) := by
  have fails {P : StoreError → Prop} (missing : P .notFound) (undecodable : P .undecodable) :
      DefaultStore.Fails (Sqlite.dataStore choices) P := by
    refine ⟨fun name key s e failed => ?_,fun _ _ _ => raises_update P _,fun _ _ _ _ => raises_update P _,undecodable⟩
    change Sqlite.selectAtVersion choices name key 0 s = .error e at failed
    unfold Sqlite.selectAtVersion at failed
    split at failed
    · cases failed; exact missing
    · split at failed
      · cases failed
      · cases failed; exact undecodable
  refine ⟨fun static c s n m same failed => ?_,fun static c s n m same failed => ?_⟩
  · refine DefaultStore.raises_saveBlock (P := fun e => e ≠ .transactionsCount n m) (fails nofun nofun) static
      (fun apart => absurd same apart) (fun _ => nofun) s _ failed rfl
  · refine DefaultStore.raises_saveBlock (P := fun e => e ≠ .systemTransactionsCount n m) (fails nofun nofun) static
      (fun _ => nofun) (fun apart => absurd same apart) s _ failed rfl

end

section
open FlowEmulator.Samples

/-- A transaction is added and the block is executed. -/
theorem pending_consistent_sample : ∃ b, Reached heightEncoding machine config (Sqlite.backend heightEncoding .earliest) b ∧
    Consistent b.pendingBlock := by
  obtain ⟨start,started,_,pending,_⟩ := LinkedChain.sample_started .inMemory
  have runs {b : Blockchain Sqlite.Store} (opened : b.pendingBlock.finalized = false) :
      Runs heightEncoding machine (Sqlite.backend heightEncoding .earliest) b :=
    fun _ _ _ => ⟨_,_,by rw [on_open opened]; rfl,rfl⟩
  have all (fuel : Nat) {b : Blockchain Sqlite.Store} (opened : b.pendingBlock.finalized = false) :
      RunsAll heightEncoding machine (Sqlite.backend heightEncoding .earliest) fuel b := by
    induction fuel generalizing b with
    | zero => trivial
    | succ fuel ih =>
      refine ⟨runs opened,fun _ after run => ih ?_⟩
      have kept := executes_finalized (executeNextTransaction_executes heightEncoding machine
        (Sqlite.backend heightEncoding .earliest) b)
      rw [run] at kept
      exact kept.trans opened
  have added : (request heightEncoding machine config (Sqlite.backend heightEncoding .earliest)
      (.addTransaction transaction) start).pendingBlock.finalized = false := by
    have adds := addTransaction_adds heightEncoding machine (Sqlite.backend heightEncoding .earliest) transaction start
    exact (adds_finalized adds).trans (by rw [pending]; rfl)
  have reached : Reached heightEncoding machine config (Sqlite.backend heightEncoding .earliest) _ :=
    ⟨tick,false,_,start,[.addTransaction transaction,.executeBlock],started,⟨trivial,all _ added,trivial⟩,rfl⟩
  exact ⟨_,reached,(pending_consistent (honest_sqlite heightEncoding .earliest) reached).1⟩

end
end Blockchain
end FlowEmulator
