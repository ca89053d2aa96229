import FlowEmulator.Consistency
import FlowEmulator.Production

/-!
Commits that fail after they have begun. The system transactions that were run
before the failure leave their events and their writes in the pending block, so
a commit that is tried again adds them a second time; and once the store was
asked the ledger of the block is finalized, and nothing runs on it any more.
Whatever the virtual machine and the store answer, only a commit that runs
nothing fails without a trace.
-/
namespace FlowEmulator.Blockchain
open FlowEmulator.Fallible

/-- The pending block holds the events, the ledger, the index and the results it held before. -/
structure Untouched (p q : PendingBlock) : Prop where
  events : q.events = p.events
  ledgerHeight : q.ledgerHeight = p.ledgerHeight
  ledgerState : ∀ id, q.ledgerState.lookup id = p.ledgerState.lookup id
  index : q.index = p.index
  transactionResults : q.transactionResults = p.transactionResults

section
variable {σ : Type} (E : Encoding) (M : Machine) (config : Config) (B : Backend σ)

/-- The system transactions a commit runs, those before a failure included: none if it is refused. -/
def begun (b : Blockchain σ) : List Execution :=
  if b.pendingBlock.index < b.pendingBlock.size then [] else (attempted E M config B b).1

/-- The store with other outcomes of its commits. -/
def committing (commit : BlockContents → StoreM σ Unit) : Backend σ := { B with commitBlock := commit }

/-- Whatever the virtual machine answers, and however the store takes the block:
    when the commit fails, the pending block is untouched and its ledger is as open as it was. -/
def FailsCleanly (b : Blockchain σ) : Prop := ∀ M commit tick e after,
  commitBlock E M config (committing B commit) tick b = (.error e,after) →
    Untouched b.pendingBlock after.pendingBlock ∧ after.pendingBlock.finalized = b.pendingBlock.finalized

/-- The contents hold the events and the writes of the transactions of users and
    of the system transactions of one commit, all of them once. -/
structure StoredOnce (users system : List Execution) (c : BlockContents) : Prop where
  events : c.events = emitted (users ++ system)
  executionSnapshot : c.executionSnapshot = accumulate ∅ (users ++ system)

end

section
variable {σ : Type} {E : Encoding} {M : Machine} {config : Config} {B : Backend σ}

theorem untouched_refl (p : PendingBlock) : Untouched p p := ⟨rfl,rfl,fun _ => rfl,rfl,rfl⟩

/-- The block a failed commit leaves has the runs that were begun recorded in it, and may be finalized. -/
theorem failed_record {tick : Tick} {e : EmulatorError} {b after : Blockchain σ}
    (failed : commitBlock E M config B tick b = (.error e,after)) :
    b.pendingBlock.Left (begun E M config B b) after.pendingBlock := by
  have commits : Commits E M config B tick b (commitBlock E M config B tick b) := commitBlock_commits tick b
  rw [failed] at commits
  unfold begun
  cases commits with
  | refused waiting =>
    rw [if_pos waiting]
    exact .inl (PendingBlock.record_nil _).symm
  | unsealed ready e failed =>
    rw [if_neg (Nat.not_lt.mpr ready)]
    exact .inl rfl
  | unsaved ready c sealed e storage run opened =>
    rw [if_neg (Nat.not_lt.mpr ready)]
    exact .inr rfl

/-- A commit that its guards refuse, or that finds the ledger finalized, leaves the pending block as it is. -/
theorem commitBlock_idle {tick : Tick} {e : EmulatorError} {b after : Blockchain σ}
    (idle : b.pendingBlock.index < b.pendingBlock.size ∨ b.pendingBlock.finalized = true)
    (failed : commitBlock E M config B tick b = (.error e,after)) : after.pendingBlock = b.pendingBlock := by
  have commits : Commits E M config B tick b (commitBlock E M config B tick b) := commitBlock_commits tick b
  rw [failed] at commits
  cases commits with
  | refused waiting => rfl
  | unsealed ready e stopped =>
    have closed := idle.resolve_left (Nat.not_lt.mpr ready)
    rw [attempted_finalized closed,record_nil]
  | unsaved ready c sealed e storage run opened =>
    rcases idle with waiting | closed
    · omega
    · rw [opened] at closed
      cases closed

/-- The contents a commit makes of a block that holds the runs of its transactions, and nothing else. -/
theorem storedOnce_sealed {base : Registers} {p : PendingBlock} {users system : List Execution} {c : BlockContents}
    (intact : Intact E M base p users) (sealed : Sealed E M config base p system c) : StoredOnce users system c := by
  refine ⟨?_,?_⟩
  · rw [sealed.events,intact.events,emitted_append]
  · rw [sealed.executionSnapshot,intact.ledger,accumulate_append]

end

/-- A machine on which every transaction runs, and whose system chunk transaction emits an event. -/
def emitting : Machine :=
  { Samples.machine with
    run := fun context _ index _ => .ok (∅,⟨[],if context.kind = .systemChunk then
      [⟨"chunk",Samples.digest 1,index,0,[]⟩] else [],0,0,none⟩) }

section
variable {σ : Type} {E : Encoding} {config : Config} {B : Backend σ}

/-- On an open ledger the system transactions of this machine run to their end, and one event is emitted. -/
theorem emitting_attempted {b : Blockchain σ} (opened : b.pendingBlock.finalized = false) :
    (∃ ended, (attempted E emitting config B b).2 = .ok ended) ∧
      emitted (attempted E emitting config B b).1 ≠ [] := by
  rw [attempted_open opened]
  cases scheduled : config.scheduledTransactionsEnabled with
  | false =>
    unfold attemptSystem attemptScheduledRun
    rw [scheduled]
    exact ⟨⟨_,rfl⟩,List.cons_ne_nil _ _⟩
  | true =>
    unfold attemptSystem attemptScheduledRun
    rw [scheduled]
    exact ⟨⟨_,rfl⟩,List.cons_ne_nil _ _⟩

/-- A store whose commits fail. -/
def refusing (B : Backend σ) : Backend σ := committing B fun _ s => (.error .notFound,s)

/-- On an open ledger a commit that is not refused leaves the event of this machine when the store fails. -/
theorem emitting_left (tick : Tick) {b : Blockchain σ} (ready : b.pendingBlock.size ≤ b.pendingBlock.index)
    (opened : b.pendingBlock.finalized = false) : ∃ after,
      commitBlock E emitting config (refusing B) tick b = (.error (.storage .notFound),after) ∧
        after.pendingBlock.events ≠ b.pendingBlock.events := by
  obtain ⟨⟨ended,sealed⟩,event⟩ : (∃ ended, (attempted E emitting config (refusing B) b).2 = .ok ended) ∧ _ :=
    emitting_attempted opened
  have failed (c : BlockContents) (s : σ) : (refusing B).saveBlock E (static E emitting config) c s = (.error .notFound,s) :=
    bind_error (x := (refusing B).commitBlock c) rfl _
  refine ⟨_,commitBlock_unsaved tick ready sealed (failed _ _),fun same => event ?_⟩
  exact List.append_right_eq_self.mp same

/-- Whatever the virtual machine and the store answer, a commit fails without a
    trace exactly when it runs nothing: the guards refuse it, or an earlier failure
    of the store has finalized the ledger. Where all commits that fail are
    refused by the guards, a commit that succeeds stores everything once. -/
theorem failed_commit_iff (E : Encoding) (config : Config) (B : Backend σ) :
    (∀ b, FailsCleanly E config B b ↔
      b.pendingBlock.index < b.pendingBlock.size ∨ b.pendingBlock.finalized = true) ∧
    ∀ M b, Reached E M config B b → ∀ tick block after, commitBlock E M config B tick b = (.ok block,after) →
      ∃ users c, Intact E M (b.base B) b.pendingBlock users ∧
        transactionIDs E users = b.pendingBlock.transactionIDs ∧
        B.saveBlock E (static E M config) c b.storage = (.ok (),after.storage) ∧ c.block = block ∧
        StoredOnce users (attempted E M config B b).1 c := by
  refine ⟨fun b => ⟨fun clean => ?_,fun idle M commit tick e after failed => ?_⟩,fun M b reached tick block after done => ?_⟩
  · by_contra busy
    rw [not_or,Nat.not_lt,Bool.not_eq_true] at busy
    obtain ⟨after,failed,event⟩ : ∃ after, commitBlock E emitting config (refusing B) Samples.tick b = _ ∧ _ :=
      emitting_left Samples.tick busy.1 busy.2
    exact event (clean emitting _ _ _ _ failed).1.events
  · rw [commitBlock_idle idle failed]
    exact ⟨untouched_refl _,rfl⟩
  · obtain ⟨listed,users,intact⟩ := reached_orderly reached
    have commits : Commits E M config B tick b (commitBlock E M config B tick b) := commitBlock_commits tick b
    rw [done] at commits
    cases commits with
    | committed ready c made sealed storage run opened =>
      refine ⟨users,c,intact,?_,run,rfl,storedOnce_sealed intact sealed⟩
      rw [intact.ids,List.take_of_length_le ready]

end
section
open FlowEmulator.Samples FlowEmulator.Chronicle

/-- The first commit of a new emulator stores the event once; with another store it could have failed and left the event. -/
theorem failed_commit_iff_emitting : ∃ (b : Blockchain Sqlite.Store) (block : Block) (after : Blockchain Sqlite.Store),
    Reached numberEncoding emitting config (Sqlite.backend numberEncoding .earliest) b ∧
    commitBlock numberEncoding emitting config (Sqlite.backend numberEncoding .earliest) tick b = (.ok block,after) ∧
    ¬ FailsCleanly numberEncoding config (Sqlite.backend numberEncoding .earliest) b ∧
    ∃ users c, c.block = block ∧ StoredOnce users
      (attempted numberEncoding emitting config (Sqlite.backend numberEncoding .earliest) b).1 c := by
  have bootstrapped (registers : Registers) : emitting.bootstrap config.getChainID registers = .ok (∅,[]) := rfl
  obtain ⟨storage,created,accounted,_⟩ := sample_begun bootstrapped false
  have reached : Reached numberEncoding emitting config (Sqlite.backend numberEncoding .earliest) _ :=
    ⟨tick,false,_,_,[],created,trivial,rfl⟩
  obtain ⟨c,made,counted⟩ : ∃ c, (sealBlock numberEncoding emitting config (Sqlite.backend numberEncoding .earliest)
      ⟨storage,newPendingBlock numberEncoding tick (genesis emitting config.getChainID),zeroID,false⟩).1 = .ok c ∧ c.Counted :=
    ⟨_,rfl,⟨rfl,rfl⟩⟩
  obtain ⟨after,run,_⟩ := accounted_commit_succeeds accounted tick rfl made counted
  obtain ⟨clean,once⟩ := failed_commit_iff numberEncoding config (Sqlite.backend numberEncoding .earliest)
  obtain ⟨users,d,_,_,_,same,stored⟩ := once emitting _ reached tick _ _ run
  refine ⟨_,_,after,reached,run,fun fails => ?_,users,d,same,stored⟩
  rcases (clean _).mp fails with waiting | closed
  · exact absurd waiting (Nat.lt_irrefl _)
  · cases closed

end

/-! ### A block that is committed at the second attempt -/

section
open FlowEmulator.Samples FlowEmulator.Chronicle

def counter : RegisterID := ⟨[1],[1]⟩

/-- A machine whose system chunk transaction fails until the process transaction
    was run twice. The process transaction emits an event at each run. -/
def flaky : Machine :=
  { scheduler with
    run := fun context _ index registers =>
      let first := match registers counter with
        | .ok [1] => true
        | _ => false
      match context.kind with
      | .user => .ok (∅,⟨[],[],0,0,none⟩)
      | .scheduled => .ok (AList.singleton counter (if first then [2] else [1]),
          ⟨[],[⟨"processed",digest 1,index,0,[]⟩],0,0,none⟩)
      | .systemChunk => .ok (∅,⟨[],[],0,0,if first then some ⟨1,"chunk"⟩ else none⟩) }

/-- The system transactions of the first attempt, on an empty ledger. -/
def flakyRuns (b : Blockchain Sqlite.Store) : List Execution :=
  (attemptSystem numberEncoding flaky scheduledConfig (b.context numberEncoding) (fun _ => .ok []) 0 ∅).1

/-- A commit on a new emulator fails in the system chunk transaction and leaves
    the event of the process transaction. The next commit succeeds, and the block
    has the event twice. -/
theorem failed_commit_repeats_event : ∃ b after block final,
    newBlockchain numberEncoding flaky scheduledConfig (Sqlite.backend numberEncoding .earliest) tick false
      (Sqlite.fresh .inMemory) = .ok b ∧
    commitBlock numberEncoding flaky scheduledConfig (Sqlite.backend numberEncoding .earliest) tick b =
      (.error (.systemChunk ⟨1,"chunk"⟩),after) ∧
    after.pendingBlock.events ≠ b.pendingBlock.events ∧
    commitBlock numberEncoding flaky scheduledConfig (Sqlite.backend numberEncoding .earliest) tick after = (.ok block,final) ∧
    (Sqlite.backend numberEncoding .earliest).eventsByHeight 1 "" final.storage =
      .ok [⟨"processed",digest 1,0,0,[]⟩,⟨"processed",digest 1,0,0,[]⟩] := by
  have bootstrapped (registers : Registers) : flaky.bootstrap scheduledConfig.getChainID registers = .ok (∅,[]) := rfl
  obtain ⟨storage,created,accounted,_⟩ := sample_begun bootstrapped false
  let b : Blockchain Sqlite.Store := ⟨storage,newPendingBlock numberEncoding tick (genesis flaky .emulator),zeroID,false⟩
  have accounted : Accounted numberEncoding flaky scheduledConfig [genesisContents flaky scheduledConfig ∅ []]
      [genesisContents flaky scheduledConfig ∅ []] 0 b := accounted
  have base : b.base (Sqlite.backend numberEncoding .earliest) = fun _ => .ok [] := accounted_base .earliest accounted
  have attempt : attempted numberEncoding flaky scheduledConfig (Sqlite.backend numberEncoding .earliest) b = (flakyRuns b,
      .error (.systemChunk ⟨1,"chunk"⟩)) := by
    unfold attempted
    rw [base]
    rfl
  have failed : commitBlock numberEncoding flaky scheduledConfig (Sqlite.backend numberEncoding .earliest) tick b =
      (.error (.systemChunk ⟨1,"chunk"⟩),b.record (flakyRuns b)) := by
    have stopped : (attempted numberEncoding flaky scheduledConfig (Sqlite.backend numberEncoding .earliest) b).2 =
        .error (.systemChunk ⟨1,"chunk"⟩) := congrArg Prod.snd attempt
    rw [commitBlock_unsealed tick Nat.le.refl stopped,attempt]
  have still : Accounted numberEncoding flaky scheduledConfig [genesisContents flaky scheduledConfig ∅ []]
      [genesisContents flaky scheduledConfig ∅ []] 0 (b.record (flakyRuns b)) := by
    have committed : Committed numberEncoding flaky scheduledConfig .earliest _ _ 0 tick b _ := accounted_commit accounted tick
    rw [failed] at committed
    cases committed with
    | failed e _ runs pending waiting still => exact still
  obtain ⟨c,made,counted,height,twice⟩ : ∃ c,
      (sealBlock numberEncoding flaky scheduledConfig (Sqlite.backend numberEncoding .earliest) (b.record (flakyRuns b))).1 =
        .ok c ∧ c.Counted ∧ c.block.height = 1 ∧
      c.events = [⟨"processed",digest 1,0,0,[]⟩,⟨"processed",digest 1,0,0,[]⟩] := by
    have again : attempted numberEncoding flaky scheduledConfig (Sqlite.backend numberEncoding .earliest)
        (b.record (flakyRuns b)) = attemptSystem numberEncoding flaky scheduledConfig (b.context numberEncoding)
          (fun _ => .ok []) 0 (accumulate ∅ (flakyRuns b)) := by
      unfold attempted
      rw [record_base,base]
      rfl
    obtain ⟨system,chunk,ended⟩ : ∃ system chunk, (attempted numberEncoding flaky scheduledConfig
        (Sqlite.backend numberEncoding .earliest) (b.record (flakyRuns b))).2 = .ok (system,chunk) := by
      rw [again]
      exact ⟨_,_,rfl⟩
    have distinct : [digest 1,digest 3].Nodup := by decide
    have sealed := sealed_attempted ended
    rw [sealBlock_attempt,ended]
    refine ⟨_,rfl,(sealed_counted still.underway.tracked.listed sealed).mpr ⟨rfl,?_⟩,rfl,?_⟩
    · rw [again]
      exact distinct
    · rw [again]
      rfl
  obtain ⟨final,run,_,_,longer⟩ := accounted_commit_succeeds still tick rfl made counted
  refine ⟨b,_,c.block,final,created,failed,List.cons_ne_nil _ _,run,?_⟩
  have stored := Sqlite.archived_events .earliest longer.stored.archived longer.stored.recorded.chain
    (List.mem_append_right _ List.mem_cons_self : c ∈ _ ++ [c]) ""
  rw [height,DefaultStore.eventsOfType_all,twice] at stored
  exact stored

end
end FlowEmulator.Blockchain
