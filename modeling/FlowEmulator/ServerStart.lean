import FlowEmulator.Deployments

/-!
The start of the server on an emulator. It commits a block for clients to refer
to when it forks a network, deploys the common contracts, creates and funds some
accounts, sets up its own servers, and mines blocks automatically unless they come
with the time. An account takes four blocks, and a round that fails leaves the
others their turn.
-/
namespace FlowEmulator.Serviced
open FlowEmulator.Fallible FlowEmulator.Blockchain FlowEmulator.Run
open FlowEmulator.BlockStreams (blocks_commit)

/-- What the accounts of a start take from libraries in addition: the service key
    as the key of an account, and the transaction that funds an account. -/
structure AccountTemplates extends ContractTemplates where
  accountKey : ServiceKey → AccountPublicKey
  fundAccount : Address → Address → Except String TransactionBody

/-- Why a round fails. -/
inductive RoundError where
  | latestBlock (e : QueryError)
  | template (message : String)
  | signing (message : String)
  | emulator (e : EmulatorError)
  | unsuccessful
  | addressNotFound

/-- The surroundings of the four blocks of a round. -/
structure RoundTicks where
  creating : Tick
  created : Tick
  funding : Tick
  funded : Tick

/-- What of the server's configuration decides about its start. -/
structure ServerConfig where
  forked : Bool
  withContracts : Bool
  privateKey : Bool
  blockTime : Int

/-- Why there is no server. -/
inductive StartError where
  | referenceBlock (e : EmulatorError)
  | noAccounts
  | restServer (message : String)

/-- How a start ends: with a server and the accounts it created, without one, or with a crash. -/
inductive Launch (σ : Type) where
  | server (s : Serviced σ) (createdAccounts : List Address)
  | none (reason : StartError)
  | crashed

section
variable {σ : Type} (E : Encoding) (M : Machine) (R : Reader) (config : Config) (B : Backend σ) (T : AccountTemplates)

/-- A signed transaction on the latest block. -/
def signedTransaction (key : ServiceKey) (latestBlock : Block) (template : Except String TransactionBody) :
    Except RoundError TransactionBody := do
  let template ← template.mapError .template
  let tx := servicedTransaction E T.toTemplates key latestBlock template
  let signature ← (T.signEnvelope key tx).mapError .signing
  pure (signedBy key signature tx)

/-- Submit a transaction, which must succeed, and commit one more block. -/
def settle (tick next : Tick) (tx : TransactionBody) : Fallible RoundError (Serviced σ) TransactionResult := do
  let lastResult ← calling .emulator (submit E M config B tick tx)
  match lastResult with
  | none => fail .unsuccessful
  | some result =>
    if result.output.err.isSome then fail .unsuccessful
    else do
      let _ ← calling .emulator (commitBlock E M config B next)
      pure result

/-- The first address in an event of a created account, or the zero address. -/
def newAddress (events : List Event) : Address :=
  (events.findSome? fun event => if event.type = eventAccountCreated then T.addressField event else none).getD 0

/-- One round: create an account with the service key, and fund it. -/
def precreateAccount (ticks : RoundTicks) : Fallible RoundError (Serviced σ) Address := do
  let latestBlock ← attempt fun s => (getLatestBlock B s.emulator).mapError .latestBlock
  let key ← currentKey R B
  let createTx ← attempt fun _ => signedTransaction E T key latestBlock (T.createAccount [T.accountKey key] [] key.address)
  let last ← settle E M config B ticks.creating ticks.created createTx
  if newAddress T last.output.events = 0 then fail .addressNotFound
  else do
    let latestBlock ← attempt fun s => (getLatestBlock B s.emulator).mapError .latestBlock
    let key ← currentKey R B
    let fundTx ← attempt fun _ =>
      signedTransaction E T key latestBlock (T.fundAccount key.address (newAddress T last.output.events))
    let _ ← settle E M config B ticks.funding ticks.funded fundTx
    pure (newAddress T last.output.events)

/-- A round that fails is passed over, with what it left. -/
def precreateAccounts : List RoundTicks → Serviced σ → List Address × Serviced σ
  | [], s => ([],s)
  | ticks :: rest, s => match precreateAccount E M R config B T ticks s with
    | (.ok address,after) => (address :: (precreateAccounts rest after).1,(precreateAccounts rest after).2)
    | (.error _,after) => precreateAccounts rest after

variable (conf : ServerConfig)

/-- With a forked network there is a first block for clients to refer to. -/
def referenceBlock (fork : Tick) : Fallible EmulatorError (Serviced σ) Unit :=
  if conf.forked then do
    let _ ← calling id (executeAndCommitBlock E M config B fork)
    pure ()
  else pure ()

/-- The common contracts. An error is only noted; without a result there is a crash. -/
def commonContracts (contracts : List (Tick × Contract)) (s : Serviced σ) : Option (Serviced σ) :=
  if conf.withContracts then
    match deployContracts E M R config B T.toContractTemplates conf.privateKey contracts s with
    | (.error .noResult,_) => none
    | (_,after) => some after
  else some s

/-- Blocks are mined automatically unless they come with the time. -/
def mining (s : Serviced σ) : Serviced σ :=
  { s with emulator := (setAutoMine (decide (conf.blockTime ≤ 0)) s.emulator).2 }

/-- The server for clients of the network, if the one for the web can be set up. -/
def launch (restServer : Except String Unit) (s : Serviced σ) (createdAccounts : List Address) : Launch σ :=
  match restServer with
  | .error message => .none (.restServer message)
  | .ok _ => .server (mining conf s) createdAccounts

/-- There are as many rounds as accounts are asked for. Before the first one the
    private key is printed, which crashes where there is none. -/
def newEmulatorServer (restServer : Except String Unit) (fork : Tick) (contracts : List (Tick × Contract))
    (rounds : List RoundTicks) (s : Serviced σ) : Launch σ :=
  match referenceBlock E M config B conf fork s with
  | (.error e,_) => .none (.referenceBlock e)
  | (.ok _,s) => match commonContracts E M R config B T conf contracts s with
    | none => .crashed
    | some s =>
      if rounds = [] then launch conf restServer s []
      else if conf.privateKey then
        match precreateAccounts E M R config B T rounds s with
        | ([],_) => .none .noAccounts
        | (address :: more,after) => launch conf restServer after (address :: more)
      else .crashed

end

/-! ### How many blocks are committed -/

section
variable {τ : Type} {E : Encoding} {M : Machine} {R : Reader} {config : Config} {store : Local τ} {T : AccountTemplates}
  {conf : ServerConfig} {front : List BlockContents}

/-- The emulator has the blocks it began with. -/
def Extends (E : Encoding) (M : Machine) (config : Config) (store : Local τ) (front : List BlockContents)
    (s : Serviced (store.Storage × Log)) : Prop :=
  store.Followed E M config s.emulator ∧ front <+: store.blocks s.emulator

/-- The number of blocks. -/
def count (store : Local τ) (s : Serviced (store.Storage × Log)) : Nat := (store.blocks s.emulator).length

/-- An operation of the emulator that commits one block if it succeeds, and none if it fails. -/
def CommitsOne (E : Encoding) (M : Machine) (config : Config) (store : Local τ) {α : Type}
    (op : EmulatorM (store.Storage × Log) α) : Prop :=
  ∀ b, store.Followed E M config b → store.Followed E M config (op b).2 ∧
    (∀ a after, op b = (.ok a,after) → ∃ c, store.blocks after = store.blocks b ++ [c]) ∧
    (∀ e after, op b = (.error e,after) → store.blocks after = store.blocks b)

theorem counts_calling {ε α : Type} {wrap : EmulatorError → ε} {op : EmulatorM (store.Storage × Log) α}
    (one : CommitsOne E M config store op) : Counts (Extends E M config store front) (count store) 1 0 (calling wrap op) where
  keeps := by
    intro s ⟨followed,begins⟩
    obtain ⟨kept,ok,error⟩ := one s.emulator followed
    rcases run : op s.emulator with ⟨e | a,after⟩
    · rw [run] at kept
      rw [calling_error run]
      exact ⟨kept,by rw [error e after run]; exact begins⟩
    · rw [run] at kept
      rw [calling_ok run]
      obtain ⟨c,more⟩ := ok a after run
      exact ⟨kept,by rw [more]; exact begins.trans (List.prefix_append ..)⟩
  ok {s a after} holds done := by
    obtain ⟨_,ok,_⟩ := one s.emulator holds.1
    rcases run : op s.emulator with ⟨e | b,left⟩
    · rw [calling_error run] at done
      cases done
    · rw [calling_ok run] at done
      cases done
      obtain ⟨c,more⟩ := ok _ left run
      simp [count,more]
  error {s e after} holds done := by
    obtain ⟨_,_,error⟩ := one s.emulator holds.1
    rcases run : op s.emulator with ⟨other | b,left⟩
    · rw [calling_error run] at done
      cases done
      simp [count,error other left run]
    · rw [calling_ok run] at done
      cases done

variable (exact : store.Exact)
include exact

theorem commitsOne_submit (tick : Tick) (tx : TransactionBody) :
    CommitsOne E M config store (submit E M config (store.logged E) tick tx) := by
  intro b followed
  have submitted := submit_submitted exact followed tick tx
  generalize submit E M config (store.logged E) tick tx b = out at submitted
  cases submitted with
  | failed e after same =>
    refine ⟨after,fun _ _ run => ?_,fun _ _ run => ?_⟩ <;> cases run
    exact same
  | committed after more users pending =>
    refine ⟨after,fun _ _ run => ?_,fun _ _ run => ?_⟩ <;> cases run
    exact ⟨_,more⟩

theorem commitsOne_commit (tick : Tick) : CommitsOne E M config store (commitBlock E M config (store.logged E) tick) := by
  intro b followed
  have kept : store.Followed E M config (commitBlock E M config (store.logged E) tick b).2 :=
    reachable_step followed (a := .request (.commitBlock tick)) trivial
  refine ⟨kept,fun _ _ run => ?_,fun _ _ run => ?_⟩ <;>
    rcases blocks_commit exact followed tick with ⟨e,after,done,same⟩ | ⟨c,after,done,more,_⟩ <;>
    cases run.symm.trans done
  · exact ⟨c,more⟩
  · exact same

/-- A transaction takes two blocks, and at most one if it fails. -/
theorem counts_settle (tick next : Tick) (tx : TransactionBody) :
    Counts (Extends E M config store front) (count store) 2 1 (settle E M config (store.logged E) tick next tx) := by
  refine counts_bind (counts_calling (commitsOne_submit exact tick tx)) (fun lastResult => ?_) (rfl : 1+1 = 2)
    (Nat.zero_le 1) (Nat.le_refl (1+0))
  split
  · exact counts_fail _
  · split
    · exact counts_fail _
    · exact counts_return (counts_calling (commitsOne_commit exact next))

omit exact in
theorem counts_currentKey {ε : Type} {B : Backend (store.Storage × Log)} :
    Counts (Extends E M config store front) (count store) 0 0 (currentKey R B : Fallible ε _ ServiceKey) :=
  counts_after (counts_update (fun _ holds => holds) fun _ => rfl) fun _ => counts_view _

/-- An account takes four blocks, and at most three if it fails. -/
theorem counts_precreateAccount (ticks : RoundTicks) :
    Counts (Extends E M config store front) (count store) 4 3 (precreateAccount E M R config (store.logged E) T ticks) := by
  refine counts_after (counts_attempt _) fun latestBlock => counts_after counts_currentKey fun key => ?_
  refine counts_after (counts_attempt _) fun createTx => ?_
  refine counts_bind (counts_settle exact _ _ createTx) (fun last => ?_) (rfl : 2+2 = 4) (by decide)
    (Nat.le_refl (2+1))
  split
  · exact counts_fail _
  · refine counts_after (counts_attempt _) fun latestBlock => counts_after counts_currentKey fun key => ?_
    exact counts_after (counts_attempt _) fun fundTx => counts_return (counts_settle exact _ _ fundTx)

/-- Each account that is created took four blocks, and each that is not at most three. -/
theorem precreateAccounts_counts (rounds : List RoundTicks) {s : Serviced (store.Storage × Log)}
    (holds : Extends E M config store front s) :
    Extends E M config store front (precreateAccounts E M R config (store.logged E) T rounds s).2 ∧
      (precreateAccounts E M R config (store.logged E) T rounds s).1.length ≤ rounds.length ∧
      count store s+4*(precreateAccounts E M R config (store.logged E) T rounds s).1.length ≤
        count store (precreateAccounts E M R config (store.logged E) T rounds s).2 ∧
      count store (precreateAccounts E M R config (store.logged E) T rounds s).2 ≤
        count store s+3*rounds.length+(precreateAccounts E M R config (store.logged E) T rounds s).1.length := by
  induction rounds generalizing s with
  | nil => exact ⟨holds,Nat.le_refl 0,Nat.le_refl _,Nat.le_refl _⟩
  | cons ticks rest ih =>
    have counts : Counts (Extends E M config store front) (count store) 4 3
      (precreateAccount E M R config (store.logged E) T ticks) := counts_precreateAccount exact ticks
    have kept := counts.keeps s holds
    unfold precreateAccounts
    rcases run : precreateAccount E M R config (store.logged E) T ticks s with ⟨e | address,after⟩
    · rw [run] at kept
      obtain ⟨extends_,fewer,low,high⟩ := ih kept
      have bounds := counts.error holds run
      dsimp only at low high ⊢
      exact ⟨extends_,by rw [List.length_cons]; omega,by omega,by rw [List.length_cons]; omega⟩
    · rw [run] at kept
      obtain ⟨extends_,fewer,low,high⟩ := ih kept
      have added := counts.ok holds run
      dsimp only at low high ⊢
      simp only [List.length_cons]
      exact ⟨extends_,by omega,by omega,by omega⟩

/-! ### The whole start -/

omit exact in
theorem deployments_bounds {templates : ContractTemplates} {contracts : List Contract} {blocks : List BlockContents}
    {answer : Except DeploymentError Unit} {s after : Serviced (store.Storage × Log)}
    (deployments : Deployments E M R store templates s contracts blocks answer after) :
    blocks.length ≤ contracts.length ∧ answer ≠ .error .noResult := by
  induction deployments with
  | done s => exact ⟨Nat.le_refl 0,nofun⟩
  | next deployed more later ih => exact ⟨Nat.succ_le_succ ih.1,ih.2⟩
  | failed rest deployed more => exact ⟨by simp,nofun⟩
  | refused contract rest other unexecuted same => exact ⟨Nat.zero_le _,fun same => other (Except.error.inj same)⟩

/-- At most one block for each contract. -/
def extraBlocks (conf : ServerConfig) (contracts : List (Tick × Contract)) : Nat :=
  if conf.withContracts then contracts.length else 0

theorem commonContracts_counts (contracts : List (Tick × Contract)) {s : Serviced (store.Storage × Log)}
    (holds : Extends E M config store front s) (idle : s.emulator.pendingBlock.transactionIDs = []) : ∃ after,
      commonContracts E M R config (store.logged E) T conf contracts s = some after ∧ Extends E M config store front after ∧
      count store s ≤ count store after ∧
      count store after ≤ count store s+extraBlocks conf contracts := by
  unfold commonContracts extraBlocks
  cases conf.withContracts with
  | false => exact ⟨s,rfl,holds,Nat.le_refl _,Nat.le_refl _⟩
  | true =>
    obtain ⟨blocks,answer,after,run,followed,more,deployments⟩ :=
      deployContracts_run (R := R) (T := T.toContractTemplates) exact holds.1 idle contracts
    obtain ⟨few,safe⟩ := deployments_bounds deployments
    rw [List.length_map] at few
    rw [if_pos rfl,if_pos rfl,run]
    refine ⟨after,?_,⟨followed,by rw [more]; exact holds.2.trans (List.prefix_append ..)⟩,?_,?_⟩
    · split
      · next crash => cases crash; exact absurd rfl safe
      · next same => cases same; rfl
    · simp [count,more]
    · simp only [count,more,List.length_append]
      omega

/-- A server that is ready: the blocks that were found and the new ones, the accounts, and how blocks are mined. -/
structure Ready (E : Encoding) (M : Machine) (config : Config) (store : Local τ) (conf : ServerConfig)
    (contracts : List (Tick × Contract)) (rounds : List RoundTicks) (s after : Serviced (store.Storage × Log))
    (createdAccounts : List Address) : Prop where
  followed : store.Followed E M config after.emulator
  kept : store.blocks s.emulator <+: store.blocks after.emulator
  mining : after.emulator.autoMine = decide (conf.blockTime ≤ 0)
  few : createdAccounts.length ≤ rounds.length
  some : rounds ≠ [] → createdAccounts ≠ []
  least : count store s+4*createdAccounts.length ≤ count store after
  most : count store after ≤ count store s+extraBlocks conf contracts+3*rounds.length+createdAccounts.length

/-- A start gives a server that is ready, or no server if none of the accounts was
    created or the server for the web was not set up. It crashes only where accounts
    are asked for and the service account has no private key. -/
def Launched (E : Encoding) (M : Machine) (config : Config) (store : Local τ) (conf : ServerConfig)
    (restServer : Except String Unit) (contracts : List (Tick × Contract)) (rounds : List RoundTicks)
    (s : Serviced (store.Storage × Log)) : Launch (store.Storage × Log) → Prop
  | .server after createdAccounts => Ready E M config store conf contracts rounds s after createdAccounts
  | .none (.referenceBlock _) => False
  | .none .noAccounts => conf.privateKey = true ∧ rounds ≠ []
  | .none (.restServer message) => restServer = .error message
  | .crashed => conf.privateKey = false ∧ rounds ≠ []

omit exact in
theorem launched_ready {restServer : Except String Unit} {contracts : List (Tick × Contract)} {rounds : List RoundTicks}
    {s after : Serviced (store.Storage × Log)} {createdAccounts : List Address}
    (extended : Extends E M config store (store.blocks s.emulator) after)
    (few : createdAccounts.length ≤ rounds.length) (some : rounds ≠ [] → createdAccounts ≠ [])
    (least : count store s+4*createdAccounts.length ≤ count store after)
    (most : count store after ≤ count store s+extraBlocks conf contracts+3*rounds.length+createdAccounts.length) :
    Launched E M config store conf restServer contracts rounds s (launch conf restServer after createdAccounts) := by
  have followed : store.Followed E M config (mining conf after).emulator :=
    reachable_step extended.1 (a := .request (.setAutoMine (decide (conf.blockTime ≤ 0)))) trivial
  cases restServer with
  | error message => exact rfl
  | ok _ => exact ⟨followed,extended.2,rfl,few,some,least,most⟩

end

section
open FlowEmulator.Samples

def sampleAccounts : AccountTemplates :=
  { sampleContracts with
    accountKey := fun key => ⟨key.index,[],.sha3_256,key.sequenceNumber,key.weight⟩
    fundAccount := fun _ _ => .ok transaction }

end
end FlowEmulator.Serviced
