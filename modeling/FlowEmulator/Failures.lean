import FlowEmulator.Retry
import FlowEmulator.Running

/-!
Requests that fail. A transaction that the virtual machine cannot run, or whose
writes cannot be merged, is passed over: the index has moved, there is no result,
and the block cannot be committed any more. A transaction that is sent while
blocks are mined automatically stays in the pending block when it cannot be
executed or committed.
-/
namespace FlowEmulator.Blockchain
open FlowEmulator.Fallible FlowEmulator.Run

section
variable {σ : Type} (E : Encoding) (M : Machine) (config : Config) (B : Backend σ)

/-- There is a next transaction, and it cannot be run or its writes cannot be merged. -/
def Fatal (b : Blockchain σ) : Prop :=
  b.pendingBlock.index < b.pendingBlock.size ∧ ∃ tx, b.pendingBlock.nextTransaction = some tx ∧
    ((∃ message, (M.on b.pendingBlock).run (b.context E .user) tx b.pendingBlock.index (b.registers B) = .error message) ∨
      ∃ writes output,
        (M.on b.pendingBlock).run (b.context E .user) tx b.pendingBlock.index (b.registers B) = .ok (writes,output) ∧
        M.mergeable b.pendingBlock.ledgerState writes = false)

/-- A block is not saved when its counts disagree. -/
def Checking : Prop := ∀ c s, ¬ c.Counted → ∃ e, (B.saveBlock E (static E M config) c s).1 = .error e

end

section
variable {σ : Type} {E : Encoding} {M : Machine} {config : Config} {B : Backend σ} {b : Blockchain σ}

/-! ### Fatal errors -/

/-- A fatal error moves the index and leaves the results. -/
theorem fatal_moves (fatal : Fatal E M B b) : ∃ message, (executeNextTransaction E M B b).1 = .error (.fatal message) ∧
    (executeNextTransaction E M B b).2.pendingBlock.index = b.pendingBlock.index+1 ∧
    (executeNextTransaction E M B b).2.pendingBlock.transactionResults = b.pendingBlock.transactionResults := by
  obtain ⟨waiting,tx,next,failure⟩ := fatal
  have executes := executeNextTransaction_executes E M B b
  generalize executeNextTransaction E M B b = out at executes ⊢
  cases executes with
  | exhausted complete =>
    have reached : b.pendingBlock.size ≤ b.pendingBlock.index := of_decide_eq_true complete
    omega
  | missing _ none =>
    rw [next] at none
    cases none
  | failed other _ _ message _ => exact ⟨message,rfl,rfl,rfl⟩
  | unmerged other _ _ writes output _ _ => exact ⟨"merge",rfl,rfl,rfl⟩
  | executed other _ found writes output ran merged opened =>
    obtain rfl := Option.some.inj (next.symm.trans found)
    rw [on_open opened] at failure
    rcases failure with ⟨message,failed⟩ | ⟨_,_,again,unmerged⟩
    · rw [ran] at failed
      cases failed
    · rw [ran] at again
      cases again
      rw [merged] at unmerged
      cases unmerged

/-- The transactions of the block are listed, and at most the executed ones have a result. -/
structure Bounded (E : Encoding) (p : PendingBlock) : Prop where
  listed : Listed E p
  results : p.transactionResults.entries.length ≤ p.index

theorem bounded_adds {tx : TransactionBody} {out : Except EmulatorError Unit × Blockchain σ} (adds : Adds E M B tx b out)
    (bounded : Bounded E b.pendingBlock) : Bounded E out.2.pendingBlock := by
  refine ⟨adds_listed adds bounded.listed,?_⟩
  cases adds <;> exact bounded.results

theorem bounded_executes {out : Except EmulatorError TransactionResult × Blockchain σ} (executes : Executes E M B b out)
    (bounded : Bounded E b.pendingBlock) : Bounded E out.2.pendingBlock := by
  refine ⟨executes_listed executes bounded.listed,?_⟩
  cases executes with
  | exhausted complete => exact bounded.results
  | missing incomplete next => exact bounded.results
  | failed tx incomplete next message fatal => exact Nat.le_succ_of_le bounded.results
  | unmerged tx incomplete next writes output ran fatal => exact Nat.le_succ_of_le bounded.results
  | executed tx incomplete next writes output ran merged =>
    exact (length_insert_le b.pendingBlock.transactionResults _ _).trans (Nat.succ_le_succ bounded.results)

theorem lasting_bounded : Lasting E M B (Bounded E) where
  new tick block := ⟨listed_new E tick block,Nat.le_refl 0⟩
  adds := bounded_adds
  executes := bounded_executes
  record bounded _ := ⟨listed_moved bounded.listed rfl rfl bounded.listed.bound,bounded.results⟩
  finalize bounded := ⟨listed_moved bounded.listed rfl rfl bounded.listed.bound,bounded.results⟩
  setClock bounded _ := ⟨listed_moved bounded.listed rfl rfl bounded.listed.bound,bounded.results⟩

/-- A broken block cannot be committed, and stays broken. -/
theorem broken_commit (checking : Checking E M config B) (bounded : Bounded E b.pendingBlock)
    (broken : Broken b.pendingBlock) (tick : Tick) : (∃ e, (commitBlock E M config B tick b).1 = .error e) ∧
      Broken (commitBlock E M config B tick b).2.pendingBlock := by
  have commits : Commits E M config B tick b (commitBlock E M config B tick b) := commitBlock_commits tick b
  generalize commitBlock E M config B tick b = out at commits ⊢
  cases commits with
  | refused waiting => exact ⟨⟨_,rfl⟩,broken⟩
  | unsealed ready e failed => exact ⟨⟨e,rfl⟩,broken⟩
  | unsaved ready c sealed e storage run => exact ⟨⟨.storage e,rfl⟩,broken⟩
  | committed ready c made sealed storage run =>
    -- the store has found the counts in order, so every executed transaction has a result
    have uncounted : ¬ c.Counted := by
      intro counted
      have count := ((sealed_counted bounded.listed sealed).mp counted).1
      have bound := bounded.listed.bound
      unfold Broken at broken
      omega
    obtain ⟨e,refused⟩ := checking c b.storage uncounted
    rw [run] at refused
    cases refused

theorem broken_call (checking : Checking E M config B) {c : Call} (stays : c.resets = false)
    (bounded : Bounded E b.pendingBlock) (broken : Broken b.pendingBlock) :
    Broken (call E M config B c b).pendingBlock := by
  cases c with
  | addTransaction tx => exact adds_broken (addTransaction_adds E M B tx b) broken
  | executeNextTransaction => exact executes_broken (executeNextTransaction_executes E M B b) broken
  | commitBlock tick => exact (broken_commit checking bounded broken tick).2
  | resetPendingBlock tick => cases stays
  | setClock now => exact broken
  | setAutoMine on => exact broken

/-- A broken block stays so until another one is begun. -/
theorem broken_calls (checking : Checking E M config B) {calls : List Call} (stay : ∀ c ∈ calls, c.resets = false)
    (bounded : Bounded E b.pendingBlock) (broken : Broken b.pendingBlock) :
    Bounded E (play (call E M config B) calls b).pendingBlock ∧ Broken (play (call E M config B) calls b).pendingBlock := by
  have step (b : Blockchain σ) (c : Call) (both : Bounded E b.pendingBlock ∧ Broken b.pendingBlock) (stays : c.resets = false) :
      Bounded E (call E M config B c b).pendingBlock ∧ Broken (call E M config B c b).pendingBlock :=
    ⟨call_lasting lasting_bounded c b both.1,broken_call checking stays both.1 both.2⟩
  have kept := play_keeps step ⟨bounded,broken⟩ (throughout_all stay)
  exact kept

theorem fatal_broken (bounded : Bounded E b.pendingBlock) (fatal : Fatal E M B b) :
    Broken (executeNextTransaction E M B b).2.pendingBlock := by
  obtain ⟨_,_,moved,results⟩ := fatal_moves fatal
  unfold Broken
  rw [moved,results]
  exact Nat.lt_succ_of_le bounded.results

/-- In no run does a fatal error leave the pending block as it was, alone or as a
    step of executing the block. The transaction is not executed by a later
    attempt, and no commit succeeds until another block is begun. -/
theorem fatal_consumes {reopen : σ → Except StoreError σ} (running : Running E M config B reopen b) :
    (Fatal E M B b → (∃ message, (executeNextTransaction E M B b).1 = .error (.fatal message)) ∧
      ¬ Untouched b.pendingBlock (executeNextTransaction E M B b).2.pendingBlock) ∧
    Throughout (call E M config B) (fun middle c => Fatal E M B middle →
      ¬ Untouched middle.pendingBlock (call E M config B c middle).pendingBlock) (callsOfExecuteBlock E M B b) b ∧
    (Fatal E M B b → Checking E M config B → ∀ calls, (∀ c ∈ calls, c.resets = false) → ∀ tick, ∃ e,
      (commitBlock E M config B tick (play (call E M config B) calls (executeNextTransaction E M B b).2)).1 = .error e) := by
  have moves {middle : Blockchain σ} (fatal : Fatal E M B middle) :
      ¬ Untouched middle.pendingBlock (executeNextTransaction E M B middle).2.pendingBlock := by
    intro untouched
    obtain ⟨_,_,moved,_⟩ := fatal_moves fatal
    have same := untouched.index
    omega
  have bounded := running_lasting lasting_bounded running
  refine ⟨fun fatal => ⟨?_,moves fatal⟩,?_,fun fatal checking calls stay tick => ?_⟩
  · obtain ⟨message,failed,_⟩ := fatal_moves fatal
    exact ⟨message,failed⟩
  · refine throughout_any fun c member middle fatal => ?_
    rw [callsOfExecuteBlock_next member]
    exact moves fatal
  · have after := bounded_executes (executeNextTransaction_executes E M B b) bounded
    obtain ⟨still,broken⟩ := broken_calls checking stay after (fatal_broken bounded fatal)
    exact (broken_commit checking still broken tick).1

end

/-! ### Sending a transaction -/

section
variable {σ : Type} (E : Encoding) (M : Machine) (config : Config) (B : Backend σ)

/-- The transaction can be added: the block is not being executed, it does not
    have the transaction, nor has the store, and the transaction is valid. -/
structure Acceptable (tx : TransactionBody) (b : Blockchain σ) : Prop where
  idle : b.pendingBlock.index = 0
  fresh : b.pendingBlock.containsTransaction (E.transactionID tx) = false
  missing : B.transactionByID (E.transactionID tx) b.storage = .error .notFound
  valid : M.validate (fun id => B.blockByID id b.storage) (B.latestBlock b.storage) tx = .ok ()

/-- The transaction was not taken in, and what could be submitted before can be submitted after. -/
structure NothingDone (tx : TransactionBody) (b after : Blockchain σ) : Prop where
  pendingBlock : after.pendingBlock = b.pendingBlock
  contained : after.pendingBlock.containsTransaction (E.transactionID tx) = true →
    b.pendingBlock.containsTransaction (E.transactionID tx) = true
  committed : ∀ body, B.transactionByID (E.transactionID tx) after.storage = .ok body →
    B.transactionByID (E.transactionID tx) b.storage = .ok body
  accepts : ∀ other, (addTransaction E M B other b).1 = .ok () → (addTransaction E M B other after).1 = .ok ()

end

section
variable {σ : Type} {E : Encoding} {M : Machine} {config : Config} {B : Backend σ} {tx : TransactionBody} {b : Blockchain σ}

theorem acceptable_added (acceptable : Acceptable E M B tx b) :
    addTransaction E M B tx b = (.ok (),{ b with pendingBlock := b.pendingBlock.addTransaction E tx }) :=
  addTransaction_ok acceptable.idle acceptable.fresh acceptable.missing acceptable.valid

/-- A transaction that is not acceptable is refused, and changes nothing. -/
theorem unacceptable_refused (refused : ¬ Acceptable E M B tx b) : ∃ e, addTransaction E M B tx b = (.error e,b) := by
  have adds := addTransaction_adds E M B tx b
  generalize addTransaction E M B tx b = out at adds ⊢
  cases adds with
  | added idle fresh missing valid =>
    exact absurd ⟨idle,fresh,missing,valid⟩ refused
  | _ => exact ⟨_,rfl⟩

/-- Executing and committing fails with the transactions still in the block. -/
theorem failed_transactions {tick : Tick} {e : EmulatorError} {after : Blockchain σ}
    (failed : executeAndCommitBlock E M config B tick b = (.error e,after)) :
    after.pendingBlock.transactions = b.pendingBlock.transactions := by
  have each : Keeps (fun s : Blockchain σ => s.pendingBlock.transactions = b.pendingBlock.transactions)
      (executeNextTransaction E M B) := by
    intro s same
    have executes := executeNextTransaction_executes E M B s
    generalize executeNextTransaction E M B s = out at executes ⊢
    cases executes <;> exact same
  have kept := keeps_executeBlock each b rfl
  unfold executeAndCommitBlock at failed
  rcases run : executeBlock E M B b with ⟨stopped | results,middle⟩
  · rw [run] at kept
    rw [bind_error run] at failed
    cases failed
    exact kept
  · rw [run] at kept
    rw [bind_ok run] at failed
    rcases commit : commitBlock E M config B tick middle with ⟨stopped | block,last⟩
    · rw [bind_error commit] at failed
      cases failed
      rcases failed_record commit with left | left <;> rw [left] <;> exact kept
    · rw [bind_ok commit] at failed
      cases failed

/-- Sending a transaction fails because it is refused, and then changes nothing,
    or after it was added, and then leaves it in the pending block. -/
theorem sendTransaction_failed {tick : Tick} {e : EmulatorError} {after : Blockchain σ}
    (failed : sendTransaction E M config B tick tx b = (.error e,after)) :
    ¬ Acceptable E M B tx b ∧ after = b ∨
      Acceptable E M B tx b ∧ after.pendingBlock.containsTransaction (E.transactionID tx) = true := by
  unfold sendTransaction at failed
  by_cases acceptable : Acceptable E M B tx b
  · refine .inr ⟨acceptable,?_⟩
    obtain ⟨middle,added,contained⟩ : ∃ middle, addTransaction E M B tx b = (.ok (),middle) ∧
        middle.pendingBlock.containsTransaction (E.transactionID tx) = true :=
      ⟨_,acceptable_added acceptable,Option.isSome_iff_exists.mpr ⟨tx,AList.lookup_insert _⟩⟩
    rw [bind_ok added,bind_ok (view_run _ middle)] at failed
    cases mining : middle.autoMine with
    | false =>
      rw [mining] at failed
      cases failed
    | true =>
      rw [mining,if_pos rfl] at failed
      rcases run : executeAndCommitBlock E M config B tick middle with ⟨stopped | result,last⟩
      · rw [bind_error run] at failed
        cases failed
        unfold PendingBlock.containsTransaction
        rw [failed_transactions run]
        exact contained
      · rw [bind_ok run] at failed
        cases failed
  · obtain ⟨stopped,refused⟩ := unacceptable_refused acceptable
    rw [bind_error refused] at failed
    cases failed
    exact .inl ⟨acceptable,rfl⟩

/-- A failed submission does nothing exactly when the transaction could not be
    added in the first place. -/
theorem sendTransaction_nothing_iff {tick : Tick} {e : EmulatorError} {after : Blockchain σ}
    (failed : sendTransaction E M config B tick tx b = (.error e,after)) :
    NothingDone E M B tx b after ↔ ¬ Acceptable E M B tx b := by
  rcases sendTransaction_failed failed with ⟨refused,rfl⟩ | ⟨acceptable,contained⟩
  · exact ⟨fun _ => refused,fun _ => ⟨rfl,fun found => found,fun _ found => found,fun _ accepted => accepted⟩⟩
  · refine ⟨fun nothing => ?_,fun refused => absurd acceptable refused⟩
    have fresh := acceptable.fresh
    rw [nothing.contained contained] at fresh
    cases fresh

end

/-! ### A machine that fails -/

section
open FlowEmulator.Samples

/-- A machine on which the transactions of users cannot be run. -/
def failing : Machine :=
  { machine with
    run := fun context _ _ _ => if context.kind = .user then .error "run" else .ok (∅,⟨[],[],0,0,none⟩) }

/-- A new emulator over an empty store with the failing machine. -/
theorem failing_begun (autoMine : Bool) : ∃ b : Blockchain Sqlite.Store,
    Running numberEncoding failing config (Sqlite.backend numberEncoding .earliest) .ok b ∧ b.autoMine = autoMine ∧
    b.pendingBlock = newPendingBlock numberEncoding tick (genesis failing .emulator) ∧
    ∀ tx, Acceptable numberEncoding failing (Sqlite.backend numberEncoding .earliest) tx b := by
  have bootstrapped (registers : Registers) : failing.bootstrap config.getChainID registers = .ok (∅,[]) := rfl
  obtain ⟨storage,created,_,missing⟩ := Chronicle.sample_begun bootstrapped autoMine
  exact ⟨_,reachable_initial ⟨tick,autoMine,_,created⟩,rfl,rfl,fun tx => ⟨rfl,rfl,missing _,rfl⟩⟩

/-- A new emulator to which a transaction was added. -/
theorem failing_added : ∃ b : Blockchain Sqlite.Store,
    Running numberEncoding failing config (Sqlite.backend numberEncoding .earliest) .ok b ∧
    b.pendingBlock = (newPendingBlock numberEncoding tick (genesis failing .emulator)).addTransaction numberEncoding (numbered 10) ∧
    Fatal numberEncoding failing (Sqlite.backend numberEncoding .earliest) b := by
  obtain ⟨first,running,_,pending,acceptable⟩ := failing_begun false
  have added := acceptable_added (acceptable (numbered 10))
  have left : act numberEncoding failing config (Sqlite.backend numberEncoding .earliest) .ok
      (.request (.addTransaction (numbered 10))) first = { first with
        pendingBlock := (newPendingBlock numberEncoding tick (genesis failing .emulator)).addTransaction numberEncoding
          (numbered 10) } := by
    rw [← pending]
    exact congrArg Prod.snd added
  have reached := reachable_step (a := .request (.addTransaction (numbered 10))) running trivial
  rw [left] at reached
  exact ⟨_,reached,rfl,Nat.zero_lt_one,numbered 10,rfl,.inl ⟨"run",rfl⟩⟩

theorem sqlite_checking (E : Encoding) (M : Machine) (config : Config) (choices : Sqlite.Choices) :
    Checking E M config (Sqlite.backend E choices) := by
  intro c s uncounted
  obtain ⟨e,refused⟩ := (Sqlite.commits_saveBlock E choices (static E M config)).refused c s uncounted
  exact ⟨e,congrArg Prod.fst refused⟩

theorem fatal_consumes_failing : ∃ b : Blockchain Sqlite.Store,
    Running numberEncoding failing config (Sqlite.backend numberEncoding .earliest) .ok b ∧
    Fatal numberEncoding failing (Sqlite.backend numberEncoding .earliest) b ∧
    Checking numberEncoding failing config (Sqlite.backend numberEncoding .earliest) ∧
    ¬ Untouched b.pendingBlock
      (executeNextTransaction numberEncoding failing (Sqlite.backend numberEncoding .earliest) b).2.pendingBlock := by
  obtain ⟨b,running,_,fatal⟩ := failing_added
  exact ⟨b,running,fatal,sqlite_checking _ _ _ _,((fatal_consumes running).1 fatal).2⟩

/-- A transaction is added to a new emulator, and the virtual machine fails on
    it. It is not tried again, the block cannot be committed, and no other
    transaction can be added. -/
theorem fatal_run_skips_transaction : ∃ b after : Blockchain Sqlite.Store,
    Running numberEncoding failing config (Sqlite.backend numberEncoding .earliest) .ok b ∧
    b.pendingBlock.index = 0 ∧ b.pendingBlock.size = 1 ∧
    executeNextTransaction numberEncoding failing (Sqlite.backend numberEncoding .earliest) b = (.error (.fatal "run"),after) ∧
    after.pendingBlock.index = 1 ∧
    (executeNextTransaction numberEncoding failing (Sqlite.backend numberEncoding .earliest) after).1 =
      .error (.pendingBlockTransactionsExhausted (after.pendingBlock.id numberEncoding)) ∧
    (∃ e, (commitBlock numberEncoding failing config (Sqlite.backend numberEncoding .earliest) tick after).1 = .error e) ∧
    (addTransaction numberEncoding failing (Sqlite.backend numberEncoding .earliest) (numbered 11) after).1 =
      .error (.pendingBlockMidExecution (after.pendingBlock.id numberEncoding)) := by
  obtain ⟨⟨storage,_,entropy,mining⟩,running,rfl,fatal⟩ := failing_added
  have bounded := running_lasting lasting_bounded running
  have after := bounded_executes (executeNextTransaction_executes _ failing (Sqlite.backend numberEncoding .earliest) _) bounded
  refine ⟨_,_,running,rfl,rfl,rfl,rfl,rfl,?_,rfl⟩
  exact (broken_commit (sqlite_checking _ _ _ _) after (fatal_broken bounded fatal) tick).1

/-- With blocks mined automatically a transaction is sent that the machine cannot
    run. The call fails, the transaction stays in the pending block, and another
    one that could be added before is refused. -/
theorem sendTransaction_leaves_transaction : ∃ b after : Blockchain Sqlite.Store,
    Running numberEncoding failing config (Sqlite.backend numberEncoding .earliest) .ok b ∧ b.autoMine = true ∧
    sendTransaction numberEncoding failing config (Sqlite.backend numberEncoding .earliest) tick (numbered 10) b =
      (.error (.fatal "run"),after) ∧
    b.pendingBlock.containsTransaction (digest 10) = false ∧ after.pendingBlock.containsTransaction (digest 10) = true ∧
    (addTransaction numberEncoding failing (Sqlite.backend numberEncoding .earliest) (numbered 11) b).1 = .ok () ∧
    (addTransaction numberEncoding failing (Sqlite.backend numberEncoding .earliest) (numbered 11) after).1 =
      .error (.pendingBlockMidExecution (after.pendingBlock.id numberEncoding)) := by
  obtain ⟨⟨storage,_,entropy,_⟩,running,rfl,rfl,acceptable⟩ := failing_begun true
  have accepted := congrArg Prod.fst (acceptable_added (acceptable (numbered 11)))
  refine ⟨_,_,running,rfl,bind_ok (acceptable_added (acceptable (numbered 10))) _,rfl,rfl,accepted,rfl⟩

theorem sendTransaction_nothing_iff_repeated : ∃ b : Blockchain Sqlite.Store,
    sendTransaction numberEncoding failing config (Sqlite.backend numberEncoding .earliest) tick (numbered 10) b =
      (.error (.duplicateTransaction (digest 10)),b) ∧
    NothingDone numberEncoding failing (Sqlite.backend numberEncoding .earliest) (numbered 10) b b := by
  obtain ⟨⟨storage,_,entropy,mining⟩,_,rfl,_⟩ := failing_added
  let b : Blockchain Sqlite.Store := ⟨storage,(newPendingBlock numberEncoding tick
    (genesis failing .emulator)).addTransaction numberEncoding (numbered 10),entropy,mining⟩
  have failed : sendTransaction numberEncoding failing config (Sqlite.backend numberEncoding .earliest) tick (numbered 10) b =
      (.error (.duplicateTransaction (digest 10)),b) := rfl
  refine ⟨b,failed,(sendTransaction_nothing_iff failed).mpr fun acceptable => ?_⟩
  cases acceptable.fresh

end
end FlowEmulator.Blockchain
