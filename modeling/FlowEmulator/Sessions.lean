import FlowEmulator.Chronicle

/-!
Sessions: an emulator over the SQL store, with the blocks that were committed and
the transactions that were accepted so far. Requests are taken call by call, so
that conditions on a run can speak of every call that is made in it.
-/
namespace FlowEmulator.Chronicle
open FlowEmulator.Fallible FlowEmulator.Blockchain FlowEmulator.Run
open FlowEmulator.Sqlite (Choices)

/-- An emulator, the contents of all blocks that were committed, the transactions
    that were accepted in order, and whether a commit of the pending block has
    failed after it began. -/
@[ext]
structure Session where
  emulator : Blockchain Sqlite.Store
  seen : List BlockContents
  accepted : List Identifier
  tainted : Bool

/-- What is done in a session. -/
inductive Step where
  | request (r : Request)
  | rollback (tick : Tick) (height : Nat)

/-- What is committed, given how the commit and the sealing before it end. -/
def contentsOf : Except EmulatorError Block → Except EmulatorError BlockContents → List BlockContents
  | .ok _,.ok c => [c]
  | _,_ => []

section
variable (E : Encoding) (M : Machine) (config : Config) (choices : Choices)

/-- The transaction a call adds to the pending block. -/
def acceptedBy (b : Blockchain Sqlite.Store) : Call → List Identifier
  | .addTransaction tx => match (addTransaction E M (Sqlite.backend E choices) tx b).1 with
    | .ok _ => [E.transactionID tx]
    | .error _ => []
  | _ => []

/-- The contents of the block a call commits. -/
def committedBy (b : Blockchain Sqlite.Store) : Call → List BlockContents
  | .commitBlock tick => contentsOf (commitBlock E M config (Sqlite.backend E choices) tick b).1
    (sealBlock E M config (Sqlite.backend E choices) b).1
  | _ => []

/-- Whether the pending block after a call has a commit behind it that failed after it began. -/
def taintedBy (b : Blockchain Sqlite.Store) (tainted : Bool) : Call → Bool
  | .commitBlock tick => match (commitBlock E M config (Sqlite.backend E choices) tick b).1 with
    | .ok _ => false
    | .error _ => tainted || decide (b.pendingBlock.size ≤ b.pendingBlock.index)
  | .resetPendingBlock tick => match (resetPendingBlock E (Sqlite.backend E choices) tick b).1 with
    | .ok _ => false
    | .error _ => tainted
  | _ => tainted

def take (c : Call) (x : Session) : Session where
  emulator := call E M config (Sqlite.backend E choices) c x.emulator
  seen := x.seen ++ committedBy E M config choices x.emulator c
  accepted := x.accepted ++ acceptedBy E M choices x.emulator c
  tainted := taintedBy E M config choices x.emulator x.tainted c

/-- The calls a request makes in a session. -/
def calls (x : Session) (r : Request) : List Call := callsOf E M (Sqlite.backend E choices) r x.emulator

def rollBack (tick : Tick) (height : Nat) (x : Session) : Session :=
  { x with
    emulator := (rollbackToBlockHeight E M config (Sqlite.backend E choices) tick height x.emulator).2
    tainted := match (rollbackToBlockHeight E M config (Sqlite.backend E choices) tick height x.emulator).1 with
      | .ok _ => false
      | .error _ => x.tainted }

def step : Step → Session → Session
  | .request r, x => play (take E M config choices) (calls E M choices x r) x
  | .rollback tick height, x => rollBack E M config choices tick height x

/-- Every call of a step meets a condition. -/
def Meets (condition : Session → Call → Prop) (x : Session) : Step → Prop
  | .request r => Throughout (take E M config choices) condition (calls E M choices x r) x
  | .rollback _ _ => True

/-- The sessions with an emulator that has just started on an empty store. -/
def Started (x : Session) : Prop :=
  ∃ url tick autoMine writes events,
    newBlockchain E M config (Sqlite.backend E choices) tick autoMine (Sqlite.fresh url) = .ok x.emulator ∧
    M.bootstrap config.getChainID (fun id => (Sqlite.backend E choices).ledgerByHeight 0 id (Sqlite.fresh url)) =
      .ok (writes,events) ∧
    x.seen = [genesisContents M config writes events] ∧ x.accepted = [] ∧ x.tainted = false

/-- The sessions that are reached from a start by steps all calls of which meet a condition. -/
def Reached (condition : Session → Call → Prop) (x : Session) : Prop :=
  ∃ start steps, Started E M config choices start ∧
    Throughout (step E M config choices) (Meets E M config choices condition) steps start ∧
    play (step E M config choices) steps start = x

/-- The sessions that are reached from a start by requests alone, without rollbacks. -/
def Served (x : Session) : Prop :=
  ∃ start requests, Started E M config choices start ∧
    play (fun r => step E M config choices (.request r)) requests start = x

end

section
variable {E : Encoding} {M : Machine} {config : Config} {choices : Choices}

/-- A request in a session leaves the emulator the request leaves. -/
theorem step_request_emulator (r : Request) (x : Session) : (step E M config choices (.request r) x).emulator =
    request E M config (Sqlite.backend E choices) r x.emulator := by
  have each (c : Call) (x : Session) : (take E M config choices c x).emulator =
      call E M config (Sqlite.backend E choices) c x.emulator := rfl
  rw [request_calls]
  exact play_project each _ x

/-- What every call under a condition and every rollback keeps holds in every session that is reached. -/
theorem reached_keeps {condition : Session → Call → Prop} {invariant : Session → Prop}
    (start : ∀ x, Started E M config choices x → invariant x)
    (kept : ∀ x c, invariant x → condition x c → invariant (take E M config choices c x))
    (rolled : ∀ x tick height, invariant x → invariant (rollBack E M config choices tick height x)) {x : Session}
    (reached : Reached E M config choices condition x) : invariant x := by
  obtain ⟨first,steps,started,throughout,rfl⟩ := reached
  refine play_keeps (fun x s holds meets => ?_) (start first started) throughout
  cases s with
  | request r => exact play_keeps kept holds meets
  | rollback tick height => exact rolled x tick height holds

/-- The session has a chain. -/
def Chained (E : Encoding) (M : Machine) (config : Config) (x : Session) : Prop :=
  ∃ cs latest, Accounted E M config cs x.seen latest x.emulator

/-- A session starts with the first block and an empty pending block on it. -/
theorem started_accounted {x : Session} (started : Started E M config choices x) : ∃ writes events tick,
    x.seen = [genesisContents M config writes events] ∧
    x.emulator.pendingBlock = newPendingBlock E tick (genesis M config.getChainID) ∧
    Accounted E M config x.seen x.seen 0 x.emulator := by
  obtain ⟨url,tick,autoMine,writes,events,created,bootstrapped,seen,_⟩ := started
  obtain ⟨otherWrites,otherEvents,again,pending,accounted⟩ := accounted_first created
  rw [bootstrapped] at again
  cases again
  exact ⟨writes,events,tick,seen,pending,by rw [seen]; exact accounted⟩

theorem chained_started {x : Session} (started : Started E M config choices x) : Chained E M config x := by
  obtain ⟨_,_,_,_,_,accounted⟩ := started_accounted started
  exact ⟨x.seen,0,accounted⟩

theorem committedBy_failed {b after : Blockchain Sqlite.Store} {tick : Tick} {e : EmulatorError}
    (failed : commitBlock E M config (Sqlite.backend E choices) tick b = (.error e,after)) :
    committedBy E M config choices b (.commitBlock tick) = [] := by
  show contentsOf (commitBlock E M config (Sqlite.backend E choices) tick b).1 _ = []
  rw [failed]
  rfl

theorem committedBy_saved {b after : Blockchain Sqlite.Store} {tick : Tick} {block : Block} {c : BlockContents}
    (done : commitBlock E M config (Sqlite.backend E choices) tick b = (.ok block,after))
    (made : (sealBlock E M config (Sqlite.backend E choices) b).1 = .ok c) :
    committedBy E M config choices b (.commitBlock tick) = [c] := by
  show contentsOf (commitBlock E M config (Sqlite.backend E choices) tick b).1 _ = [c]
  rw [done,made]
  rfl

/-- The session after a commit that fails. -/
theorem take_commit_failed {x : Session} {after : Blockchain Sqlite.Store} {tick : Tick} {e : EmulatorError}
    (failed : commitBlock E M config (Sqlite.backend E choices) tick x.emulator = (.error e,after)) :
    take E M config choices (.commitBlock tick) x = ⟨after,x.seen,x.accepted,
      x.tainted || decide (x.emulator.pendingBlock.size ≤ x.emulator.pendingBlock.index)⟩ := by
  refine Session.ext (congrArg Prod.snd failed) ?_ (List.append_nil _) ?_
  · show x.seen ++ committedBy E M config choices x.emulator (.commitBlock tick) = x.seen
    rw [committedBy_failed failed,List.append_nil]
  · show (match (commitBlock E M config (Sqlite.backend E choices) tick x.emulator).1 with
      | .ok _ => false
      | .error _ => _) = _
    rw [failed]

/-- The session after a commit that succeeds. -/
theorem take_commit_saved {x : Session} {after : Blockchain Sqlite.Store} {tick : Tick} {block : Block} {c : BlockContents}
    (done : commitBlock E M config (Sqlite.backend E choices) tick x.emulator = (.ok block,after))
    (made : (sealBlock E M config (Sqlite.backend E choices) x.emulator).1 = .ok c) :
    take E M config choices (.commitBlock tick) x = ⟨after,x.seen ++ [c],x.accepted,false⟩ := by
  refine Session.ext (congrArg Prod.snd done) ?_ (List.append_nil _) ?_
  · show x.seen ++ committedBy E M config choices x.emulator (.commitBlock tick) = x.seen ++ [c]
    rw [committedBy_saved done made]
  · show (match (commitBlock E M config (Sqlite.backend E choices) tick x.emulator).1 with
      | .ok _ => false
      | .error _ => _) = _
    rw [done]

/-- The transactions of the chain and of the pending block. -/
def transactionsOf (cs : List BlockContents) (p : PendingBlock) : List Identifier :=
  cs.flatMap BlockContents.userTransactions ++ p.transactionIDs

theorem adds_transactions {b : Blockchain Sqlite.Store} {tx : TransactionBody} :
    (addTransaction E M (Sqlite.backend E choices) tx b).2.pendingBlock.transactionIDs =
      b.pendingBlock.transactionIDs ++ acceptedBy E M choices b (.addTransaction tx) := by
  have adds := addTransaction_adds E M (Sqlite.backend E choices) tx b
  show _ = _ ++ match (addTransaction E M (Sqlite.backend E choices) tx b).1 with
    | .ok _ => [E.transactionID tx]
    | .error _ => []
  generalize addTransaction E M (Sqlite.backend E choices) tx b = out at adds ⊢
  cases adds with
  | added idle fresh missing valid => rfl
  | _ => exact (List.append_nil _).symm

theorem executes_transactions {b : Blockchain Sqlite.Store} :
    (executeNextTransaction E M (Sqlite.backend E choices) b).2.pendingBlock.transactionIDs =
      b.pendingBlock.transactionIDs := by
  have executes := executeNextTransaction_executes E M (Sqlite.backend E choices) b
  generalize executeNextTransaction E M (Sqlite.backend E choices) b = out at executes ⊢
  cases executes <;> rfl

variable (choices) in
/-- A call adds the block it commits to the chain. Unless it drops the pending
    block, the transactions of both are those before it and the one it accepts. -/
theorem accounted_take {x : Session} {cs : List BlockContents} {latest : Nat}
    (accounted : Accounted E M config cs x.seen latest x.emulator) (c : Call) :
    ∃ height, Accounted E M config (cs ++ committedBy E M config choices x.emulator c) (take E M config choices c x).seen
        height (take E M config choices c x).emulator ∧
      (c.resets = false → transactionsOf (cs ++ committedBy E M config choices x.emulator c)
        (take E M config choices c x).emulator.pendingBlock =
          transactionsOf cs x.emulator.pendingBlock ++ acceptedBy E M choices x.emulator c) := by
  have same {b : Blockchain Sqlite.Store} (still : Accounted E M config cs x.seen latest b) :
      Accounted E M config (cs ++ []) (x.seen ++ []) latest b := by
    rw [List.append_nil,List.append_nil]
    exact still
  have kept (p : PendingBlock) : transactionsOf (cs ++ []) p = transactionsOf cs p := by rw [List.append_nil]
  cases c with
  | addTransaction tx =>
    refine ⟨latest,same (accounted_add accounted tx),fun _ => (kept _).trans ?_⟩
    unfold transactionsOf
    rw [List.append_assoc]
    exact congrArg (_ ++ ·) adds_transactions
  | executeNextTransaction =>
    refine ⟨latest,same (accounted_execute accounted),fun _ => (kept _).trans ?_⟩
    unfold transactionsOf
    show _ = _ ++ []
    rw [List.append_nil]
    exact congrArg (_ ++ ·) executes_transactions
  | commitBlock tick =>
    have committed : Committed E M config choices cs x.seen latest tick x.emulator _ := accounted_commit accounted tick
    have none : acceptedBy E M choices x.emulator (.commitBlock tick) = [] := rfl
    rcases run : commitBlock E M config (Sqlite.backend E choices) tick x.emulator with ⟨result,after⟩
    rw [run] at committed
    rw [none,List.append_nil]
    cases committed with
    | failed e _ runs pending waiting still =>
      rw [take_commit_failed run,committedBy_failed run]
      refine ⟨latest,by rw [List.append_nil]; exact still,fun _ => (kept _).trans ?_⟩
      unfold transactionsOf
      rw [pending.transactionIDs]
    | saved c _ ready made counted sealed pending longer =>
      rw [take_commit_saved run made,committedBy_saved run made]
      refine ⟨latest+1,longer,fun _ => ?_⟩
      unfold transactionsOf
      rw [pending,List.flatMap_append,List.flatMap_singleton,sealed_userTransactions sealed]
      exact List.append_nil _
  | resetPendingBlock tick => exact ⟨latest,same (accounted_reset accounted.stored tick),nofun⟩
  | setClock now =>
    exact ⟨latest,same (accounted_setClock accounted now),fun _ => (kept _).trans (List.append_nil _).symm⟩
  | setAutoMine on =>
    exact ⟨latest,same (accounted_setAutoMine accounted on),fun _ => (kept _).trans (List.append_nil _).symm⟩

/-- A commit of an executed block succeeds when its block can be sealed and its counts agree. -/
theorem commit_succeeds {b : Blockchain Sqlite.Store} {cs seen : List BlockContents} {latest : Nat}
    (stored : Stored E M config cs seen latest b.storage) (tick : Tick) (ready : b.pendingBlock.index = b.pendingBlock.size)
    {c : BlockContents} (made : (sealBlock E M config (Sqlite.backend E choices) b).1 = .ok c) (counted : c.Counted) :
    ∃ after, commitBlock E M config (Sqlite.backend E choices) tick b = (.ok c.block,after) ∧
      Sqlite.Wrote c.block.height (DefaultStore.saveWrites E (static E M config) latest c) b.storage after.storage := by
  have tip := Sqlite.recorded_tip stored.recorded
  have sealing := sealBlock_attempt E M config (Sqlite.backend E choices) b
  rcases run : sealBlock E M config (Sqlite.backend E choices) b with ⟨result,middle⟩
  rw [run] at made sealing
  cases made
  have left : middle = b.record (attempted E M config (Sqlite.backend E choices) b).1 := congrArg Prod.snd sealing
  have storage : middle.storage = b.storage := by rw [left]; rfl
  obtain ⟨saved,save,wrote⟩ := (Sqlite.commits_saveBlock E choices (static E M config)).wrote c b.storage (some latest)
    counted tip
  exact ⟨_,commitBlock_ok tick ready run (storage ▸ save),wrote⟩

/-- The emulator after such a commit of a block that extends the chain. -/
theorem accounted_commit_succeeds {b : Blockchain Sqlite.Store} {cs seen : List BlockContents} {latest : Nat}
    (accounted : Accounted E M config cs seen latest b) (tick : Tick) (ready : b.pendingBlock.index = b.pendingBlock.size)
    {c : BlockContents} (made : (sealBlock E M config (Sqlite.backend E choices) b).1 = .ok c) (counted : c.Counted) :
    ∃ after, commitBlock E M config (Sqlite.backend E choices) tick b = (.ok c.block,after) ∧
      after.pendingBlock = newPendingBlock E tick c.block ∧ after.storage.currentHeight = c.block.height ∧
      Accounted E M config (cs ++ [c]) (seen ++ [c]) (latest+1) after := by
  have committed : Committed E M config choices cs seen latest tick b _ := accounted_commit accounted tick
  obtain ⟨after,run,wrote⟩ := commit_succeeds accounted.stored tick ready made counted
  have first : (commitBlock E M config (Sqlite.backend E choices) tick b).1 = .ok c.block := by rw [run]
  have second : (commitBlock E M config (Sqlite.backend E choices) tick b).2 = after := by rw [run]
  generalize commitBlock E M config (Sqlite.backend E choices) tick b = out at committed first second
  cases committed with
  | failed e _ runs pending waiting unchanged => cases first
  | saved d _ _ again _ sealed pending longer =>
    obtain rfl : d = c := Except.ok.inj (again.symm.trans made)
    subst second
    exact ⟨_,rfl,pending,wrote.currentHeight,longer⟩

/-- The session after a commit of a block that can be sealed. -/
theorem accounted_take_commit {x : Session} {cs : List BlockContents} {latest : Nat}
    (accounted : Accounted E M config cs x.seen latest x.emulator) (tick : Tick)
    (ready : x.emulator.pendingBlock.index = x.emulator.pendingBlock.size) {c : BlockContents}
    (made : (sealBlock E M config (Sqlite.backend E choices) x.emulator).1 = .ok c) (counted : c.Counted) :
    (take E M config choices (.commitBlock tick) x).seen = x.seen ++ [c] ∧
      (take E M config choices (.commitBlock tick) x).emulator.pendingBlock = newPendingBlock E tick c.block ∧
      (take E M config choices (.commitBlock tick) x).emulator.storage.currentHeight = c.block.height ∧
      Accounted E M config (cs ++ [c]) (x.seen ++ [c]) (latest+1) (take E M config choices (.commitBlock tick) x).emulator := by
  obtain ⟨after,run,pending,current,longer⟩ := accounted_commit_succeeds accounted tick ready made counted
  rw [take_commit_saved run made]
  exact ⟨rfl,pending,current,longer⟩

theorem chained_take (x : Session) (c : Call) (chained : Chained E M config x) :
    Chained E M config (take E M config choices c x) := by
  obtain ⟨cs,latest,accounted⟩ := chained
  obtain ⟨height,longer,_⟩ := accounted_take choices accounted c
  exact ⟨_,height,longer⟩

theorem chained_rollBack (x : Session) (tick : Tick) (height : Nat) (chained : Chained E M config x) :
    Chained E M config (rollBack E M config choices tick height x) := by
  obtain ⟨cs,latest,accounted⟩ := chained
  rcases accounted_rollback accounted tick height with refused | ⟨_,_,_,cut⟩
  · refine ⟨cs,latest,?_⟩
    show Accounted E M config cs x.seen latest
      (rollbackToBlockHeight E M config (Sqlite.backend E choices) tick height x.emulator).2
    rw [refused]
    exact accounted
  · exact ⟨_,height,cut⟩

/-- Every session that is reached has a chain. -/
theorem reached_chained {condition : Session → Call → Prop} {x : Session}
    (reached : Reached E M config choices condition x) : Chained E M config x :=
  reached_keeps (fun _ => chained_started) (fun x c chained _ => chained_take x c chained) chained_rollBack reached

theorem served_request {x : Session} (served : Served E M config choices x) (r : Request) :
    Served E M config choices (step E M config choices (.request r) x) := by
  obtain ⟨start,requests,started,rfl⟩ := served
  refine ⟨start,requests ++ [r],started,?_⟩
  rw [play_append,play_cons,play_nil]

/-- Requests only add to what was committed. -/
theorem seen_request (r : Request) (x : Session) : x.seen <+: (step E M config choices (.request r) x).seen := by
  have each (list : List Call) (x : Session) : x.seen <+: (play (take E M config choices) list x).seen := by
    induction list generalizing x with
    | nil => exact List.prefix_rfl
    | cons c rest ih =>
      have first : x.seen <+: (take E M config choices c x).seen := List.prefix_append ..
      exact first.trans (ih _)
  exact each _ x

/-- Without rollbacks the chain is all that was committed. -/
theorem served_accounted {x : Session} (served : Served E M config choices x) :
    ∃ latest, Accounted E M config x.seen x.seen latest x.emulator := by
  obtain ⟨start,requests,started,rfl⟩ := served
  have first : ∃ latest, Accounted E M config start.seen start.seen latest start.emulator := by
    obtain ⟨_,_,_,_,_,accounted⟩ := started_accounted started
    exact ⟨0,accounted⟩
  have calling (x : Session) (c : Call) (whole : ∃ latest, Accounted E M config x.seen x.seen latest x.emulator) (_ : True) :
      ∃ latest, Accounted E M config (take E M config choices c x).seen (take E M config choices c x).seen latest
        (take E M config choices c x).emulator := by
    obtain ⟨latest,accounted⟩ := whole
    obtain ⟨height,longer,_⟩ := accounted_take choices accounted c
    exact ⟨height,longer⟩
  have asking (x : Session) (r : Request) (whole : ∃ latest, Accounted E M config x.seen x.seen latest x.emulator) (_ : True) :
      ∃ latest, Accounted E M config (step E M config choices (.request r) x).seen
        (step E M config choices (.request r) x).seen latest (step E M config choices (.request r) x).emulator :=
    play_keeps calling whole (throughout_all fun _ _ => trivial)
  exact play_keeps asking first (throughout_all fun _ _ => trivial)

end

/-! ### A session with one block -/

section
open FlowEmulator.Samples

/-- A transaction is added to the first pending block, executed and committed. -/
def sampleAdded (start : Session) : Session :=
  take numberEncoding scheduler scheduledConfig .earliest (.addTransaction (numbered 10)) start
def sampleExecuted (start : Session) : Session :=
  take numberEncoding scheduler scheduledConfig .earliest .executeNextTransaction (sampleAdded start)
def sampleCommitted (start : Session) : Session :=
  take numberEncoding scheduler scheduledConfig .earliest (.commitBlock tick) (sampleExecuted start)

/-- The pending block of a new emulator, with one transaction that was executed. -/
def samplePending : PendingBlock :=
  let first := newPendingBlock numberEncoding tick (genesis scheduler .emulator)
  afterRun numberEncoding ⟨⟨.user,(first.addTransaction numberEncoding (numbered 10)).block numberEncoding,zeroID⟩,
    numbered 10,∅,⟨[],[],0,0,none⟩⟩ (first.addTransaction numberEncoding (numbered 10))

/-- An emulator that has just started on an empty store, with a ledger that is empty too. -/
theorem sample_begun {E : Encoding} {M : Machine} {config : Config}
    (bootstrapped : ∀ registers, M.bootstrap config.getChainID registers = .ok (∅,[])) (autoMine : Bool) : ∃ storage,
    newBlockchain E M config (Sqlite.backend E .earliest) tick autoMine (Sqlite.fresh .inMemory) =
      .ok ⟨storage,newPendingBlock E tick (genesis M config.getChainID),zeroID,autoMine⟩ ∧
    Accounted E M config [genesisContents M config ∅ []] [genesisContents M config ∅ []] 0
      ⟨storage,newPendingBlock E tick (genesis M config.getChainID),zeroID,autoMine⟩ ∧
    ∀ id, (Sqlite.backend E .earliest).transactionByID id storage = .error .notFound := by
  obtain ⟨storage,created,accounted⟩ := starts tick autoMine .inMemory (bootstrapped _)
  refine ⟨storage,created,accounted,fun id => ?_⟩
  refine Sqlite.archived_noTransaction .earliest accounted.stored.archived (fun d only => ?_)
  rw [List.mem_singleton.mp only]
  exact ⟨AList.notMem_empty _,AList.notMem_empty _⟩

/-- The pending block of a new emulator, with one transaction that was executed and wrote nothing. -/
def executedPending (E : Encoding) (M : Machine) (config : Config) (tx : TransactionBody) (output : ProcedureOutput) :
    PendingBlock :=
  let first := (newPendingBlock E tick (genesis M config.getChainID)).addTransaction E tx
  afterRun E ⟨⟨.user,first.block E,zeroID⟩,tx,∅,output⟩ first

/-- A transaction is added to a new emulator and executed. -/
theorem sample_ran {E : Encoding} {M : Machine} {config : Config}
    (bootstrapped : ∀ registers, M.bootstrap config.getChainID registers = .ok (∅,[])) (tx : TransactionBody)
    (valid : ∀ blocks latest, M.validate blocks latest tx = .ok ()) {output : ProcedureOutput}
    (ran : ∀ header registers, M.run ⟨.user,header,zeroID⟩ tx 0 registers = .ok (∅,output))
    (merges : M.mergeable ∅ ∅ = true) : ∃ storage,
    newBlockchain E M config (Sqlite.backend E .earliest) tick false (Sqlite.fresh .inMemory) =
      .ok ⟨storage,newPendingBlock E tick (genesis M config.getChainID),zeroID,false⟩ ∧
    (addTransaction E M (Sqlite.backend E .earliest) tx
      ⟨storage,newPendingBlock E tick (genesis M config.getChainID),zeroID,false⟩).1 = .ok () ∧
    (executeNextTransaction E M (Sqlite.backend E .earliest) (addTransaction E M (Sqlite.backend E .earliest) tx
      ⟨storage,newPendingBlock E tick (genesis M config.getChainID),zeroID,false⟩).2).2 =
      ⟨storage,executedPending E M config tx output,zeroID,false⟩ ∧
    Accounted E M config [genesisContents M config ∅ []] [genesisContents M config ∅ []] 0
      ⟨storage,executedPending E M config tx output,zeroID,false⟩ := by
  obtain ⟨storage,created,accounted,missing⟩ := sample_begun (E := E) bootstrapped false
  let first := newPendingBlock E tick (genesis M config.getChainID)
  have added : addTransaction E M (Sqlite.backend E .earliest) tx ⟨storage,first,zeroID,false⟩ =
      (.ok (),⟨storage,first.addTransaction E tx,zeroID,false⟩) := addTransaction_ok rfl rfl (missing _) (valid _ _)
  have next : (first.addTransaction E tx).nextTransaction = some tx := AList.lookup_insert _
  have executed : (executeNextTransaction E M (Sqlite.backend E .earliest) ⟨storage,first.addTransaction E tx,zeroID,false⟩).2 =
      ⟨storage,executedPending E M config tx output,zeroID,false⟩ := executeNextTransaction_run rfl next rfl (ran _ _) merges
  have left : (addTransaction E M (Sqlite.backend E .earliest) tx ⟨storage,first,zeroID,false⟩).2 =
      ⟨storage,first.addTransaction E tx,zeroID,false⟩ := congrArg Prod.snd added
  rw [← left] at executed
  refine ⟨storage,created,congrArg Prod.fst added,executed,?_⟩
  rw [← executed]
  exact accounted_execute (accounted_add accounted tx)

theorem sample_executed : ∃ start storage, Started numberEncoding scheduler scheduledConfig .earliest start ∧
    start.seen = [genesisContents scheduler scheduledConfig ∅ []] ∧ start.accepted = [] ∧ start.tainted = false ∧
    acceptedBy numberEncoding scheduler .earliest start.emulator (.addTransaction (numbered 10)) = [digest 10] ∧
    (sampleExecuted start).emulator = ⟨storage,samplePending,zeroID,false⟩ ∧
    Accounted numberEncoding scheduler scheduledConfig [genesisContents scheduler scheduledConfig ∅ []]
      [genesisContents scheduler scheduledConfig ∅ []] 0 (sampleExecuted start).emulator := by
  have bootstrapped (registers : Registers) : scheduler.bootstrap scheduledConfig.getChainID registers = .ok (∅,[]) := rfl
  obtain ⟨storage,created,added,executed,accounted⟩ := sample_ran (E := numberEncoding) bootstrapped (numbered 10)
    (fun _ _ => rfl) (fun _ _ => rfl) rfl
  let start : Session := ⟨⟨storage,newPendingBlock numberEncoding tick (genesis scheduler .emulator),zeroID,false⟩,
    [genesisContents scheduler scheduledConfig ∅ []],[],false⟩
  have executed : (sampleExecuted start).emulator = ⟨storage,samplePending,zeroID,false⟩ := executed
  refine ⟨start,storage,⟨.inMemory,tick,false,∅,[],created,bootstrapped _,rfl,rfl,rfl⟩,rfl,rfl,rfl,?_,executed,?_⟩
  · show (match (addTransaction numberEncoding scheduler (Sqlite.backend numberEncoding .earliest) (numbered 10)
      start.emulator).1 with
      | .ok _ => [digest 10]
      | .error _ => []) = _
    rw [show (addTransaction numberEncoding scheduler (Sqlite.backend numberEncoding .earliest) (numbered 10)
      start.emulator).1 = .ok () from added]
  · rw [executed]
    exact accounted

/-- The session from a start on, in which a block with the contents is committed. -/
structure SampleBlock (start : Session) (c : BlockContents) : Prop where
  started : Started numberEncoding scheduler scheduledConfig .earliest start
  untainted : start.tainted = false
  executed : (sampleExecuted start).emulator.pendingBlock = samplePending
  seen : (sampleCommitted start).seen = [genesisContents scheduler scheduledConfig ∅ [],c]
  accepted : (sampleCommitted start).accepted = [digest 10]
  pending : (sampleCommitted start).emulator.pendingBlock = newPendingBlock numberEncoding tick c.block
  currentHeight : (sampleCommitted start).emulator.storage.currentHeight = 1
  block : c.block = samplePending.block numberEncoding
  collections : c.collections = [⟨[digest 10]⟩]
  system : c.systemTransactions = [digest 1,digest 2,digest 3]
  scheduled : c.scheduledTransactionIDs = AList.singleton 7 (digest 2)
  runs : ∃ base process callback chunk, Sealed numberEncoding scheduler scheduledConfig base samplePending
    [process,callback,chunk] c ∧ process.output.events = [⟨"pending",digest 1,1,0,[]⟩]
  accounted : Accounted numberEncoding scheduler scheduledConfig [genesisContents scheduler scheduledConfig ∅ [],c]
    [genesisContents scheduler scheduledConfig ∅ [],c] 1 (sampleCommitted start).emulator

theorem sample_committed : ∃ start c, SampleBlock start c := by
  obtain ⟨start,storage,started,seen,accepted,untainted,new,executed,accounted⟩ := sample_executed
  obtain ⟨c,made,counted,block,collections,system,scheduled,runs⟩ : ∃ c,
      (sealBlock numberEncoding scheduler scheduledConfig (Sqlite.backend numberEncoding .earliest)
        (sampleExecuted start).emulator).1 = .ok c ∧ c.Counted ∧ c.block = samplePending.block numberEncoding ∧
      c.collections = [⟨[digest 10]⟩] ∧ c.systemTransactions = [digest 1,digest 2,digest 3] ∧
      c.scheduledTransactionIDs = AList.singleton 7 (digest 2) ∧
      ∃ base process callback chunk, Sealed numberEncoding scheduler scheduledConfig base samplePending
        [process,callback,chunk] c ∧ process.output.events = [⟨"pending",digest 1,1,0,[]⟩] := by
    rw [executed]
    have tracked : Tracked numberEncoding samplePending := by
      rw [executed] at accounted
      exact accounted.underway.tracked
    have ended : (attempted numberEncoding scheduler scheduledConfig (Sqlite.backend numberEncoding .earliest)
        ⟨storage,samplePending,zeroID,false⟩).2 = .ok (_,_) := rfl
    have distinct : [digest 1,digest 2,digest 3].Nodup := by decide
    have sealed := sealed_attempted ended
    exact ⟨_,rfl,(sealed_counted tracked.listed sealed).mpr ⟨rfl,distinct⟩,sealed.block,sealed.collections,
      sealed.systemTransactions,rfl,_,_,_,_,sealed,rfl⟩
  have ready : (sampleExecuted start).emulator.pendingBlock.index = (sampleExecuted start).emulator.pendingBlock.size := by
    rw [executed]
    rfl
  have before : (sampleExecuted start).seen = [genesisContents scheduler scheduledConfig ∅ []] := by
    show (start.seen ++ []) ++ [] = _
    rw [seen]
    rfl
  rw [← before] at accounted
  have height : c.block.height = 1 := by rw [block]; rfl
  have after := accounted_take_commit accounted tick ready made counted
  rw [before,height] at after
  obtain ⟨longer,pending,current,accounted⟩ := after
  refine ⟨start,c,started,untainted,by rw [executed],longer,?_,pending,current,block,collections,system,scheduled,runs,accounted⟩
  show ((start.accepted ++ acceptedBy numberEncoding scheduler .earliest start.emulator (.addTransaction (numbered 10))) ++ []) ++ []
    = _
  rw [accepted,new]
  rfl

section
variable {start : Session} {c : BlockContents} (sample : SampleBlock start c)
include sample

theorem sample_height : c.block.height = 1 := by
  rw [sample.block]
  rfl

theorem sample_member : c ∈ (sampleCommitted start).seen := by
  rw [sample.seen]
  exact List.mem_cons_of_mem _ List.mem_cons_self

theorem sample_userTransactions : c.userTransactions = [digest 10] := by
  unfold BlockContents.userTransactions
  rw [sample.collections]
  rfl

theorem sample_stored :
    (Sqlite.backend numberEncoding .earliest).blockByHeight 1 (sampleCommitted start).emulator.storage = .ok c.block := by
  rw [← sample_height sample]
  exact Sqlite.recorded_blockByHeight .earliest sample.accounted.stored.recorded (List.mem_cons_of_mem _ List.mem_cons_self)

end

/-- The session is reached under every condition its three calls meet. -/
theorem sample_reached {condition : Session → Call → Prop} {start : Session}
    (started : Started numberEncoding scheduler scheduledConfig .earliest start)
    (added : condition start (.addTransaction (numbered 10)))
    (executed : condition (sampleAdded start) .executeNextTransaction)
    (committed : condition (sampleExecuted start) (.commitBlock tick)) :
    Reached numberEncoding scheduler scheduledConfig .earliest condition (sampleCommitted start) :=
  ⟨start,[.request (.addTransaction (numbered 10)),.request .executeNextTransaction,.request (.commitBlock tick)],started,
    ⟨⟨added,trivial⟩,⟨executed,trivial⟩,⟨committed,trivial⟩,trivial⟩,rfl⟩

theorem sample_reached_any {start : Session} {c : BlockContents} (sample : SampleBlock start c) :
    Reached numberEncoding scheduler scheduledConfig .earliest (fun _ _ => True) (sampleCommitted start) :=
  sample_reached sample.started trivial trivial trivial

end
end FlowEmulator.Chronicle
