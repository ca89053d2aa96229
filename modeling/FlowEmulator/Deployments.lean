import FlowEmulator.AccountCreation
import FlowEmulator.BlockStreams

/-!
The deployment of contracts when an emulator starts. Each contract is deployed by
a transaction in a block of its own, which refers to the block before it and is
proposed by the service account with the sequence number that its key has there.
The first contract that cannot be deployed ends the deployment: if its transaction
was executed and failed, its block is in the chain.
-/
namespace FlowEmulator.Serviced
open FlowEmulator.Fallible FlowEmulator.Blockchain FlowEmulator.Run
open FlowEmulator.BlockStreams (blocks_commit followed_tip)
open FlowEmulator.Text (Bytes)

/-- The errors of a deployment. The last is an access to the result of a
    transaction where there is none, which is a crash. -/
inductive DeploymentError where
  | noPrivateKey
  | latestBlock (e : QueryError)
  | signing (message : String)
  | emulator (e : EmulatorError)
  | transaction (e : VMError)
  | noResult
deriving DecidableEq

/-- What deployments take from libraries in addition: the transaction that adds a contract to an account. -/
structure ContractTemplates extends Templates where
  addAccountContract : Address → Contract → TransactionBody

section
variable {σ : Type} (E : Encoding) (M : Machine) (R : Reader) (config : Config) (B : Backend σ)

/-- Call the emulator, with its errors renamed. -/
def calling {ε α : Type} (wrap : EmulatorError → ε) (op : EmulatorM σ α) : Fallible ε (Serviced σ) α :=
  inside emulator (fun b s => { s with emulator := b }) wrap op

/-- The key of the service account as it is now. -/
def currentKey {ε : Type} : Fallible ε (Serviced σ) ServiceKey := do
  update fun s => { s with serviceKey := s.refreshed R B }
  view serviceKey

/-- Add a transaction and have the block executed and committed: the last of the results. -/
def submit (tick : Tick) (tx : TransactionBody) : EmulatorM σ (Option TransactionResult) := do
  addTransaction E M B tx
  let (_,results) ← executeAndCommitBlock E M config B tick
  pure results.getLast?

variable (T : ContractTemplates) (privateKey : Bool)

/-- The signed transaction that deploys a contract, with the key and the latest block that were read. -/
def signedDeployment (key : ServiceKey) (latest : Except QueryError Block) (contract : Contract) :
    Except DeploymentError TransactionBody :=
  if privateKey then do
    let latestBlock ← latest.mapError .latestBlock
    let tx := servicedTransaction E T.toTemplates key latestBlock (T.addAccountContract key.address contract)
    let signature ← (T.signEnvelope key tx).mapError .signing
    pure (signedBy key signature tx)
  else .error .noPrivateKey

def deploymentTransaction (contract : Contract) : Fallible DeploymentError (Serviced σ) TransactionBody := do
  let key ← currentKey R B
  attempt fun s => signedDeployment E T privateKey key (getLatestBlock B s.emulator) contract

def deployContract (tick : Tick) (contract : Contract) : Fallible DeploymentError (Serviced σ) Unit := do
  let tx ← deploymentTransaction E R B T privateKey contract
  let lastResult ← calling .emulator (submit E M config B tick tx)
  match lastResult with
  | none => fail .noResult
  | some result => match result.output.err with
    | some e => fail (.transaction e)
    | none => pure ()

/-- Each commit has its own surroundings. -/
def deployContracts : List (Tick × Contract) → Fallible DeploymentError (Serviced σ) Unit
  | [] => pure ()
  | (tick,contract) :: rest => do
    deployContract E M R config B T privateKey tick contract
    deployContracts rest

/-- Start an emulator over a store and deploy the contracts it is configured with. -/
def newEmulator (tick : Tick) (autoMine : Bool) (key : ServiceKey) (contracts : List (Tick × Contract)) (storage : σ) :
    Except DeploymentError (Serviced σ) :=
  match newBlockchain E M config B tick autoMine storage with
  | .error e => .error (.emulator e)
  | .ok b => match deployContracts E M R config B T privateKey contracts ⟨b,key⟩ with
    | (.error e,_) => .error e
    | (.ok _,s) => .ok s

end

/-! ### What deployments leave -/

section
variable {τ : Type} (E : Encoding) (M : Machine) (R : Reader) (config : Config) (store : Local τ) (T : ContractTemplates)

/-- The transaction of a deployment, without its signature: the key is that of the
    service account with the sequence number it has at the latest block. -/
def deployment (latest : Block) (contract : Contract) (s : Serviced (store.Storage × Log)) : TransactionBody :=
  let key := s.refreshed R (store.logged E)
  servicedTransaction E T.toTemplates key latest (T.addAccountContract key.address contract)

/-- The block is that of a deployment: its one transaction is signed by the service
    key, and was run as the first of the block, on the ledger of the emulator, with an error or without. -/
def Deployed (s : Serviced (store.Storage × Log)) (contract : Contract) (err : Option VMError) (c : BlockContents) : Prop :=
  ∃ latest signature writes output, (store.logged E).latestBlock s.emulator.storage = .ok latest ∧
    T.signEnvelope (s.refreshed R (store.logged E)) (deployment E R store T latest contract s) = .ok signature ∧
    let tx := signedBy (s.refreshed R (store.logged E)) signature (deployment E R store T latest contract s)
    let queued := { s.emulator with pendingBlock := s.emulator.pendingBlock.addTransaction E tx }
    c.userTransactions = [E.transactionID tx] ∧
      M.run (queued.context E .user) tx 0 (s.emulator.registers (store.logged E)) = .ok (writes,output) ∧ output.err = err

/-- The blocks of some deployments, what the deployment answers and the emulator it leaves. -/
inductive Deployments : Serviced (store.Storage × Log) → List Contract → List BlockContents → Except DeploymentError Unit →
    Serviced (store.Storage × Log) → Prop where
  | done (s : Serviced (store.Storage × Log)) : Deployments s [] [] (.ok ()) s
  | next {s middle after : Serviced (store.Storage × Log)} {contract : Contract} {rest : List Contract} {c : BlockContents}
      {blocks : List BlockContents} {answer : Except DeploymentError Unit}
      (deployed : Deployed E M R store T s contract none c)
      (more : store.blocks middle.emulator = store.blocks s.emulator ++ [c])
      (later : Deployments middle rest blocks answer after) : Deployments s (contract :: rest) (c :: blocks) answer after
  | failed {s after : Serviced (store.Storage × Log)} {contract : Contract} (rest : List Contract) {c : BlockContents} {e : VMError}
      (deployed : Deployed E M R store T s contract (some e) c)
      (more : store.blocks after.emulator = store.blocks s.emulator ++ [c]) :
      Deployments s (contract :: rest) [c] (.error (.transaction e)) after
  | refused {s after : Serviced (store.Storage × Log)} (contract : Contract) (rest : List Contract) {e : DeploymentError}
      (other : e ≠ .noResult) (unexecuted : ∀ failure, e ≠ .transaction failure)
      (same : store.blocks after.emulator = store.blocks s.emulator) : Deployments s (contract :: rest) [] (.error e) after

end

/-! ### One submission -/

section
variable {σ : Type} {E : Encoding} {M : Machine} {config : Config} {B : Backend σ} {b : Blockchain σ}

/-- Executing leaves the transactions of the pending block. -/
theorem keeps_transactions (b : Blockchain σ) : Keeps (fun after : Blockchain σ =>
    after.pendingBlock.transactionIDs = b.pendingBlock.transactionIDs) (executeNextTransaction E M B) := by
  intro s same
  have executes := executeNextTransaction_executes E M B s
  generalize executeNextTransaction E M B s = out at executes ⊢
  cases executes <;> exact same

/-- The result of a block with one transaction is that of its run. -/
theorem executeBlock_single {id : Identifier} {tx : TransactionBody} {results : List TransactionResult} {after : Blockchain σ}
    (ids : b.pendingBlock.transactionIDs = [id]) (idle : b.pendingBlock.index = 0)
    (next : b.pendingBlock.nextTransaction = some tx) (run : executeBlock E M B b = (.ok results,after)) :
    ∃ writes output, M.run (b.context E .user) tx 0 (b.registers B) = .ok (writes,output) ∧
      results = [⟨E.transactionID tx,output⟩] := by
  have size : b.pendingBlock.size = 1 := by rw [PendingBlock.size,ids]; rfl
  have incomplete : b.pendingBlock.executionComplete = false := by rw [PendingBlock.executionComplete,size,idle]; rfl
  have some : b.pendingBlock.empty = false := by rw [PendingBlock.empty,ids]; rfl
  rw [executeBlock,bind_ok (view_run _ b),incomplete,some,size,idle,if_neg (by decide),Nat.sub_zero,executeRemaining,
    bind_ok (view_run _ b),incomplete,some,if_neg (by decide)] at run
  obtain ⟨result,middle,first,rest⟩ := bind_eq_ok.mp run
  cases rest
  have executes := executeNextTransaction_executes E M B b
  rw [first] at executes
  generalize answer : (Except.ok result : Except EmulatorError TransactionResult) = outcome at executes
  generalize left : (outcome,after) = out at executes
  cases executes with
  | executed other _ found writes output ran merged opened =>
    obtain rfl := Option.some.inj (next.symm.trans found)
    rw [idle] at ran
    obtain ⟨same,_⟩ := Prod.mk.inj left
    rw [← answer] at same
    split at same
    · cases same
      exact ⟨writes,output,ran,rfl⟩
    · cases same
  | _ =>
    obtain ⟨same,_⟩ := Prod.mk.inj left
    rw [← answer] at same
    cases same

/-- A submission to a block without transactions answers with the run of its transaction. -/
theorem submit_ran {tick : Tick} {tx : TransactionBody} {result : TransactionResult} {after : Blockchain σ}
    (none : b.pendingBlock.transactionIDs = []) (run : submit E M config B tick tx b = (.ok (some result),after)) :
    ∃ writes, M.run (({ b with pendingBlock := b.pendingBlock.addTransaction E tx } : Blockchain σ).context E .user) tx 0
      (b.registers B) = .ok (writes,result.output) := by
  obtain ⟨_,queued,added,later⟩ := bind_eq_ok.mp run
  obtain ⟨⟨block,results⟩,_,committed,ended⟩ := bind_eq_ok.mp later
  obtain ⟨_,executed,_⟩ := executeAndCommitBlock_new committed
  have adds := addTransaction_adds E M B tx b
  rw [added] at adds
  cases adds with
  | added idle fresh missing valid =>
    have next : (b.pendingBlock.addTransaction E tx).nextTransaction = some tx := by
      unfold PendingBlock.nextTransaction PendingBlock.addTransaction
      rw [none,idle]
      exact AList.lookup_insert _
    have ids : (b.pendingBlock.addTransaction E tx).transactionIDs = [E.transactionID tx] := by
      show b.pendingBlock.transactionIDs ++ [E.transactionID tx] = _
      rw [none]
      rfl
    obtain ⟨writes,output,ran,rfl⟩ := executeBlock_single (b := { b with pendingBlock := b.pendingBlock.addTransaction E tx })
      ids idle next executed
    cases ended
    exact ⟨writes,ran⟩

end

section
variable {τ : Type} {E : Encoding} {M : Machine} {R : Reader} {config : Config} {store : Local τ} {T : ContractTemplates}
  {privateKey : Bool} {b : Blockchain (store.Storage × Log)}

theorem followed_listed (followed : store.Followed E M config b) : Listed E b.pendingBlock := by
  obtain ⟨start,actions,⟨tick,autoMine,storage,_,started⟩,_,last⟩ := followed
  have running : Running E M config (store.logged E) (Logged.reopen store.places store.reopen) b :=
    ⟨start,actions,⟨tick,autoMine,storage,started⟩,throughout_all (fun _ _ => trivial),last⟩
  exact (running_lasting lasting_bounded running).listed

/-- What executing and committing the pending block answers and leaves. -/
inductive Executed (E : Encoding) (M : Machine) (config : Config) (store : Local τ) (tick : Tick)
    (b : Blockchain (store.Storage × Log)) :
    Except EmulatorError (Block × List TransactionResult) × Blockchain (store.Storage × Log) → Prop where
  | failed (e : EmulatorError) {after : Blockchain (store.Storage × Log)} (followed : store.Followed E M config after)
      (same : store.blocks after = store.blocks b) : Executed E M config store tick b (.error e,after)
  | committed {c : BlockContents} {results : List TransactionResult} {after : Blockchain (store.Storage × Log)}
      (followed : store.Followed E M config after) (more : store.blocks after = store.blocks b ++ [c])
      (users : c.userTransactions = b.pendingBlock.transactionIDs)
      (ids : results.map TransactionResult.transactionID = b.pendingBlock.transactionIDs.drop b.pendingBlock.index)
      (pending : after.pendingBlock = newPendingBlock E tick c.block) :
      Executed E M config store tick b (.ok (c.block,results),after)

theorem executeAndCommitBlock_executed (exact : store.Exact) (followed : store.Followed E M config b) (tick : Tick) :
    Executed E M config store tick b (executeAndCommitBlock E M config (store.logged E) tick b) := by
  have last : store.Followed E M config (executeAndCommitBlock E M config (store.logged E) tick b).2 :=
    reachable_step followed (a := .request (.executeAndCommitBlock tick)) trivial
  have middle : store.Followed E M config (executeBlock E M (store.logged E) b).2 :=
    reachable_step followed (a := .request .executeBlock) trivial
  have still : Still b (executeBlock E M (store.logged E) b).2 :=
    keeps_executeBlock (keeps_executeNextTransaction b) b (still_refl b)
  have ids : (executeBlock E M (store.logged E) b).2.pendingBlock.transactionIDs = b.pendingBlock.transactionIDs :=
    keeps_executeBlock (keeps_transactions b) b rfl
  have same : store.blocks (executeBlock E M (store.logged E) b).2 = store.blocks b := by
    unfold Local.blocks
    rw [still.storage]
  unfold executeAndCommitBlock at last ⊢
  rcases executed : executeBlock E M (store.logged E) b with ⟨e | results,halfway⟩
  · rw [executed] at same
    rw [bind_error executed] at last ⊢
    exact .failed e last same
  rw [executed] at middle ids same
  rw [bind_ok executed] at last ⊢
  rcases blocks_commit exact middle tick with ⟨e,after,committed,left⟩ | ⟨c,after,committed,more,users,pending⟩
  · rw [bind_error committed] at last ⊢
    exact .failed e last (left.trans same)
  · rw [bind_ok committed] at last ⊢
    exact .committed last (by rw [more,same]) (users.trans ids) (executeBlock_ids (followed_listed followed) executed) pending

/-- What a submission answers and leaves: its own result is the last one. -/
inductive Submitted (E : Encoding) (M : Machine) (config : Config) (store : Local τ) (tick : Tick) (tx : TransactionBody)
    (b : Blockchain (store.Storage × Log)) :
    Except EmulatorError (Option TransactionResult) × Blockchain (store.Storage × Log) → Prop where
  | failed (e : EmulatorError) {after : Blockchain (store.Storage × Log)} (followed : store.Followed E M config after)
      (same : store.blocks after = store.blocks b) : Submitted E M config store tick tx b (.error e,after)
  | committed {c : BlockContents} {output : ProcedureOutput} {after : Blockchain (store.Storage × Log)}
      (followed : store.Followed E M config after) (more : store.blocks after = store.blocks b ++ [c])
      (users : c.userTransactions = b.pendingBlock.transactionIDs ++ [E.transactionID tx])
      (pending : after.pendingBlock = newPendingBlock E tick c.block) :
      Submitted E M config store tick tx b (.ok (some ⟨E.transactionID tx,output⟩),after)

theorem submit_submitted (exact : store.Exact) (followed : store.Followed E M config b) (tick : Tick) (tx : TransactionBody) :
    Submitted E M config store tick tx b (submit E M config (store.logged E) tick tx b) := by
  have middle : store.Followed E M config (addTransaction E M (store.logged E) tx b).2 :=
    reachable_step followed (a := .request (.addTransaction tx)) trivial
  have same : store.blocks (addTransaction E M (store.logged E) tx b).2 = store.blocks b := by
    unfold Local.blocks
    rw [(keeps_addTransaction b tx b (still_refl b)).storage]
  have adds := addTransaction_adds E M (store.logged E) tx b
  unfold submit
  rcases added : addTransaction E M (store.logged E) tx b with ⟨e | _,halfway⟩
  · rw [added] at middle same
    rw [bind_error added]
    exact .failed e middle same
  rw [added] at middle same adds
  rw [bind_ok added]
  -- the transaction is the last of the pending block, and nothing is executed yet
  have queued : halfway.pendingBlock.transactionIDs = b.pendingBlock.transactionIDs ++ [E.transactionID tx] ∧
      halfway.pendingBlock.index = 0 := by
    cases adds with
    | added idle fresh missing valid => exact ⟨rfl,idle⟩
  have executed := executeAndCommitBlock_executed exact middle tick
  generalize run : executeAndCommitBlock E M config (store.logged E) tick halfway = out at executed
  cases executed with
  | failed e after left =>
    rw [bind_error run]
    exact .failed e after (left.trans same)
  | committed after more users ids pending =>
    rw [bind_ok run]
    rw [queued.1,queued.2,List.drop_zero] at ids
    obtain ⟨front,back,rfl,_,back_ids⟩ := List.map_eq_append_iff.mp ids
    obtain ⟨⟨id,output⟩,rfl,named⟩ := List.map_eq_singleton_iff.mp back_ids
    dsimp only at named
    subst named
    have last : (front ++ [(⟨E.transactionID tx,output⟩ : TransactionResult)]).getLast? = some ⟨E.transactionID tx,output⟩ :=
      List.getLast?_concat
    dsimp only
    rw [last]
    exact .committed after (by rw [more,same]) (users.trans queued.1) pending

/-! ### One deployment -/

theorem calling_ok {σ ε α : Type} {wrap : EmulatorError → ε} {op : EmulatorM σ α} {s : Serviced σ} {b : Blockchain σ} {a : α}
    (run : op s.emulator = (.ok a,b)) : calling wrap op s = (.ok a,{ s with emulator := b }) := inside_ok run

theorem calling_error {σ ε α : Type} {wrap : EmulatorError → ε} {op : EmulatorM σ α} {s : Serviced σ} {b : Blockchain σ}
    {e : EmulatorError} (run : op s.emulator = (.error e,b)) :
    calling wrap op s = (.error (wrap e),{ s with emulator := b }) := inside_error run

/-- A deployment is prepared, on the latest block, or fails before anything is executed. -/
theorem signedDeployment_prepares (E : Encoding) (T : ContractTemplates) (privateKey : Bool) (key : ServiceKey)
    (latest : Except QueryError Block) (contract : Contract) :
    match signedDeployment E T privateKey key latest contract with
    | .error e => e ≠ .noResult ∧ ∀ failure, e ≠ .transaction failure
    | .ok tx => ∃ latestBlock signature, latest = .ok latestBlock ∧
        T.signEnvelope key (servicedTransaction E T.toTemplates key latestBlock (T.addAccountContract key.address contract)) =
          .ok signature ∧
        tx = signedBy key signature
          (servicedTransaction E T.toTemplates key latestBlock (T.addAccountContract key.address contract)) := by
  unfold signedDeployment
  cases privateKey with
  | false => exact ⟨by simp,by simp⟩
  | true =>
    rcases latest with e | latestBlock
    · exact ⟨by simp,by simp⟩
    · rcases signed : T.signEnvelope key
        (servicedTransaction E T.toTemplates key latestBlock (T.addAccountContract key.address contract)) with message | signature
      · simp [Except.mapError,bind,Except.bind,signed]
      · simp [Except.mapError,bind,Except.bind,signed,pure,Except.pure]

theorem deploymentTransaction_run {σ : Type} (E : Encoding) (R : Reader) (B : Backend σ) (T : ContractTemplates)
    (privateKey : Bool) (contract : Contract) (s : Serviced σ) :
    deploymentTransaction E R B T privateKey contract s =
      (signedDeployment E T privateKey (s.refreshed R B) (getLatestBlock B s.emulator) contract,
        { s with serviceKey := s.refreshed R B }) := rfl

/-- What the deployment of one contract answers and leaves. -/
inductive DeploysOne (E : Encoding) (M : Machine) (R : Reader) (config : Config) (store : Local τ) (T : ContractTemplates)
    (tick : Tick) (contract : Contract) (s : Serviced (store.Storage × Log)) :
    Except DeploymentError Unit × Serviced (store.Storage × Log) → Prop where
  | refused {e : DeploymentError} {after : Serviced (store.Storage × Log)} (other : e ≠ .noResult)
      (unexecuted : ∀ failure, e ≠ .transaction failure) (followed : store.Followed E M config after.emulator)
      (same : store.blocks after.emulator = store.blocks s.emulator) :
      DeploysOne E M R config store T tick contract s (.error e,after)
  | executed {err : Option VMError} {c : BlockContents} {after : Serviced (store.Storage × Log)}
      (deployed : Deployed E M R store T s contract err c) (followed : store.Followed E M config after.emulator)
      (more : store.blocks after.emulator = store.blocks s.emulator ++ [c])
      (pending : after.emulator.pendingBlock = newPendingBlock E tick c.block) :
      DeploysOne E M R config store T tick contract s (err.elim (.ok ()) fun e => .error (.transaction e),after)

theorem deployContract_deploys (exact : store.Exact) {s : Serviced (store.Storage × Log)}
    (followed : store.Followed E M config s.emulator) (empty : s.emulator.pendingBlock.transactionIDs = []) (tick : Tick)
    (contract : Contract) : DeploysOne E M R config store T tick contract s
      (deployContract E M R config (store.logged E) T privateKey tick contract s) := by
  unfold deployContract
  have prepares := signedDeployment_prepares E T privateKey (s.refreshed R (store.logged E))
    (getLatestBlock (store.logged E) s.emulator) contract
  have run := deploymentTransaction_run E R (store.logged E) T privateKey contract s
  generalize signedDeployment E T privateKey (s.refreshed R (store.logged E)) (getLatestBlock (store.logged E) s.emulator) contract =
    answer at prepares run
  rcases answer with e | tx
  · rw [bind_error run]
    exact .refused prepares.1 prepares.2 followed rfl
  obtain ⟨latest,signature,read,signed,rfl⟩ := prepares
  rw [bind_ok run]
  have found : (store.logged E).latestBlock s.emulator.storage = .ok latest := by
    unfold getLatestBlock at read
    rcases stored : (store.logged E).latestBlock s.emulator.storage with e | block
    · rw [stored] at read
      cases read
    · rw [stored] at read
      cases read
      rfl
  have submitted := submit_submitted exact followed tick (signedBy (s.refreshed R (store.logged E)) signature
    (servicedTransaction E T.toTemplates (s.refreshed R (store.logged E)) latest
      (T.addAccountContract (s.refreshed R (store.logged E)).address contract)))
  generalize done : submit E M config (store.logged E) tick _ s.emulator = out at submitted
  cases submitted with
  | failed e after same =>
    rw [bind_error (calling_error (s := { s with serviceKey := s.refreshed R (store.logged E) }) done)]
    exact .refused (by simp) (by simp) after same
  | @committed c output left after more users pending =>
    rw [bind_ok (calling_ok (s := { s with serviceKey := s.refreshed R (store.logged E) }) done)]
    rw [empty,List.nil_append] at users
    obtain ⟨writes,ran⟩ := submit_ran empty done
    have executed : DeploysOne E M R config store T tick contract s (output.err.elim (.ok ()) fun e => .error (.transaction e),
        { s with emulator := left, serviceKey := s.refreshed R (store.logged E) }) :=
      .executed ⟨latest,signature,writes,output,found,signed,users,ran,rfl⟩ after more pending
    cases ended : output.err with
    | some e =>
      rw [ended] at executed
      simpa [ended] using executed
    | none =>
      rw [ended] at executed
      simpa [ended] using executed

/-- Contracts are deployed in blocks of their own, one after the other, up to the
    first that cannot be deployed. -/
theorem deployContracts_run (exact : store.Exact) {s : Serviced (store.Storage × Log)}
    (followed : store.Followed E M config s.emulator) (empty : s.emulator.pendingBlock.transactionIDs = [])
    (contracts : List (Tick × Contract)) : ∃ blocks answer after,
      deployContracts E M R config (store.logged E) T privateKey contracts s = (answer,after) ∧
      store.Followed E M config after.emulator ∧ store.blocks after.emulator = store.blocks s.emulator ++ blocks ∧
      Deployments E M R store T s (contracts.map Prod.snd) blocks answer after := by
  induction contracts generalizing s with
  | nil => exact ⟨[],_,_,rfl,followed,(List.append_nil _).symm,.done s⟩
  | cons entry rest ih =>
    obtain ⟨tick,contract⟩ := entry
    have one : DeploysOne E M R config store T tick contract s
      (deployContract E M R config (store.logged E) T privateKey tick contract s) :=
        deployContract_deploys exact followed empty tick contract
    generalize run : deployContract E M R config (store.logged E) T privateKey tick contract s = out at one
    unfold deployContracts
    cases one with
    | refused other unexecuted after same =>
      rw [bind_error run]
      exact ⟨[],_,_,rfl,after,same.trans (List.append_nil _).symm,.refused contract _ other unexecuted same⟩
    | @executed err c middle deployed after more pending =>
      cases err with
      | some e =>
        rw [bind_error run]
        exact ⟨[c],_,_,rfl,after,more,.failed _ deployed more⟩
      | none =>
        rw [bind_ok run]
        obtain ⟨blocks,answer,final,done,kept,rest,later⟩ := ih after (by rw [pending]; rfl)
        exact ⟨c :: blocks,answer,final,done,kept,by rw [rest,more,List.append_assoc]; rfl,.next deployed more later⟩

end

section
open FlowEmulator.Samples

def sampleContracts : ContractTemplates := { sampleTemplates with addAccountContract := fun _ _ => transaction }

end
end FlowEmulator.Serviced
