import FlowEmulator.Accounts
import FlowEmulator.Failures
import FlowEmulator.LocalStores

/-!
The creation of an account by the adapter for clients. It submits a transaction,
has the pending block executed and committed, commits another block, and looks for
the result of its transaction in what the execution returned. With blocks mined
automatically the transaction was executed before, by its submission. The block
ticker may come in before each of these calls, and may have executed it too.
-/
namespace FlowEmulator
open FlowEmulator.Fallible FlowEmulator.Run
open FlowEmulator.Text (Bytes)

/-- The key of the service account, as far as a transaction names it. -/
structure ServiceKey where
  index : Nat
  address : Address
  sequenceNumber : Nat
  weight : Nat
deriving DecidableEq

structure Contract where
  name : String
  source : Bytes
deriving DecidableEq

/-- What the creation of an account takes from libraries: the limit of computation,
    the transaction that creates an account, the signature of its envelope by the
    service key, and the address in an event. -/
structure Templates where
  defaultMaxTransactionGasLimit : Nat
  createAccount : List AccountPublicKey → List Contract → Address → Except String TransactionBody
  signEnvelope : ServiceKey → TransactionBody → Except String Bytes
  addressField : Event → Option Address

/-- The errors of the creation. The last is a failed assertion, which is a crash. -/
inductive CreationError where
  | latestBlock (e : QueryError)
  | template (message : String)
  | signing (message : String)
  | emulator (e : EmulatorError)
  | resultNotFound (txID : Identifier)
  | transaction (e : VMError)
  | eventNotFound
  | addressField
deriving DecidableEq

/-- An emulator and the key of its service account. -/
structure Serviced (σ : Type) where
  emulator : Blockchain σ
  serviceKey : ServiceKey

/-- What the block ticker calls, in this order and again. -/
inductive TickerCall where
  | executeBlock
  | commitBlock (tick : Tick)

def TickerCall.request : TickerCall → Blockchain.Request
  | .executeBlock => .executeBlock
  | .commitBlock tick => .commitBlock tick

/-- The calls of the ticker that come in before each of the last three calls of a creation. -/
structure Gaps where
  beforeSending : List TickerCall
  beforeExecuting : List TickerCall
  beforeCommitting : List TickerCall

def eventAccountCreated : String := "flow.AccountCreated"

namespace Serviced
open FlowEmulator.Blockchain
section
variable {σ : Type} (E : Encoding) (M : Machine) (R : Reader) (T : Templates) (config : Config) (B : Backend σ)

/-- Call the emulator. -/
def inEmulator {α : Type} (op : EmulatorM σ α) : Fallible CreationError (Serviced σ) α :=
  inside emulator (fun b s => { s with emulator := b }) .emulator op

/-- The key with what its account has at the latest block. -/
def refreshed (s : Serviced σ) : ServiceKey :=
  match getAccount R B s.serviceKey.address s.emulator with
  | .error _ => s.serviceKey
  | .ok serviceAccount => match serviceAccount.keys with
    | [] => s.serviceKey
    | key :: _ => { s.serviceKey with index := 0, sequenceNumber := key.seqNumber, weight := key.weight }

def getServiceKey : Fallible CreationError (Serviced σ) ServiceKey := do
  update fun s => { s with serviceKey := s.refreshed R B }
  view serviceKey

/-- A transaction that the service account proposes and pays for, on a latest block. -/
def servicedTransaction (key : ServiceKey) (latestBlock : Block) (template : TransactionBody) : TransactionBody :=
  { template with
    gasLimit := T.defaultMaxTransactionGasLimit
    referenceBlockID := E.blockID latestBlock
    proposalKey := ⟨key.address,key.index,key.sequenceNumber⟩
    payer := key.address }

/-- The transaction with a signature of the service key. -/
def signedBy (key : ServiceKey) (signature : Bytes) (tx : TransactionBody) : TransactionBody :=
  { tx with envelopeSignatures := tx.envelopeSignatures ++ [⟨key.address,key.index,signature⟩] }

/-- The signed transaction that creates an account. -/
def creationTransaction (publicKeys : Option (List AccountPublicKey)) (contracts : List Contract) :
    Fallible CreationError (Serviced σ) TransactionBody := do
  let key ← getServiceKey R B
  let latestBlock ← attempt fun s => (getLatestBlock B s.emulator).mapError .latestBlock
  let template ← attempt fun _ => (T.createAccount (publicKeys.getD []) contracts key.address).mapError .template
  let tx := servicedTransaction E T key latestBlock template
  let signature ← attempt fun _ => (T.signEnvelope key tx).mapError .signing
  pure (signedBy key signature tx)

/-- The address in the first event of a created account, or the zero address. -/
def createdAddress (events : List Event) : Except CreationError Address :=
  match events.find? fun event => event.type = eventAccountCreated with
  | none => .ok 0
  | some event => match T.addressField event with
    | none => .error .addressField
    | some address => .ok address

/-- What the results of an execution say about a transaction. -/
def addressFrom (txID : Identifier) (results : List TransactionResult) : Except CreationError Address :=
  match results.find? fun r => r.transactionID = txID with
  | none => .error (.resultNotFound txID)
  | some r => match r.output.err with
    | some e => .error (.transaction e)
    | none => do
      let address ← createdAddress T r.output.events
      if address = 0 then .error .eventNotFound else .ok address

/-- The emulator after calls of the ticker. -/
def ticked (calls : List TickerCall) (b : Blockchain σ) : Blockchain σ :=
  play (fun call => request E M config B call.request) calls b

/-- The ticker comes in. -/
def ticker (calls : List TickerCall) : Fallible CreationError (Serviced σ) Unit :=
  update fun s => { s with emulator := ticked E M config B calls s.emulator }

/-- Each of the three calls that may begin a block has its own surroundings. -/
def createAccount (gaps : Gaps) (sending committing next : Tick) (publicKeys : Option (List AccountPublicKey)) (contracts : List Contract) :
    Fallible CreationError (Serviced σ) Address := do
  let tx ← creationTransaction E R T B publicKeys contracts
  ticker E M config B gaps.beforeSending
  inEmulator (sendTransaction E M config B sending tx)
  ticker E M config B gaps.beforeExecuting
  let (_,results) ← inEmulator (executeAndCommitBlock E M config B committing)
  ticker E M config B gaps.beforeCommitting
  let _ ← inEmulator (commitBlock E M config B next)
  attempt fun _ => addressFrom T (E.transactionID tx) results

end

/-- The block that a transaction was added to is committed before the creation
    returns, with an output of the transaction: by the submission, by the ticker, or
    by the call that the creation makes. -/
inductive Commitment {σ : Type} (E : Encoding) (M : Machine) (config : Config) (B : Backend σ) (gaps : Gaps)
    (sending committing : Tick) (id : Identifier) (output : ProcedureOutput) (added : Blockchain σ) : Prop where
  | submission {block : Block} {results : List TransactionResult} {after : Blockchain σ} (mining : added.autoMine = true)
      (committed : executeAndCommitBlock E M config B sending added = (.ok (block,results),after)) (member : ⟨id,output⟩ ∈ results)
  | ticker {front back : List TickerCall} {tick : Tick} {index : Nat} {block : Block} {after : Blockchain σ}
      (idle : added.autoMine = false) (calls : gaps.beforeExecuting = front ++ .commitBlock tick :: back)
      (executed : (ticked E M config B front added).pendingBlock.transactionResults.lookup id = some ⟨output,index⟩)
      (committed : commitBlock E M config B tick (ticked E M config B front added) = (.ok block,after))
  | own {block : Block} {results : List TransactionResult} {after : Blockchain σ} (idle : added.autoMine = false)
      (committed : executeAndCommitBlock E M config B committing (ticked E M config B gaps.beforeExecuting added) =
        (.ok (block,results),after)) (member : ⟨id,output⟩ ∈ results)

/-- A transaction is added, and is committed before the creation returns: what it ended with. -/
def Settled {σ : Type} (E : Encoding) (M : Machine) (config : Config) (B : Backend σ) (gaps : Gaps) (sending committing : Tick)
    (tx : TransactionBody) (b : Blockchain σ) (output : ProcedureOutput) : Prop :=
  ∃ added, addTransaction E M B tx (ticked E M config B gaps.beforeSending b) = (.ok (),added) ∧
    Commitment E M config B gaps sending committing (E.transactionID tx) output added

/-- There are no transactions in the block, and its ledger is open. -/
structure Blank (p : PendingBlock) : Prop where
  transactions : p.transactions = ∅
  transactionIDs : p.transactionIDs = []
  transactionResults : p.transactionResults = ∅
  index : p.index = 0
  opened : p.finalized = false

/-- The virtual machine never fails, and a block without transactions can always be committed. -/
structure Reliable {σ : Type} (E : Encoding) (M : Machine) (config : Config) (B : Backend σ) : Prop extends Machine.Steady M where
  commits : ∀ (b : Blockchain σ) (tick : Tick), Blank b.pendingBlock →
    ∃ block after, commitBlock E M config B tick b = (.ok block,after)

section
variable {σ : Type} {E : Encoding} {M : Machine} {R : Reader} {T : Templates} {config : Config} {B : Backend σ}

/-! ### The results of an execution -/

/-- A transaction that is executed with a result is the next one, and the block moves on. -/
theorem executeNextTransaction_result {result : TransactionResult} {b after : Blockchain σ} (listed : Listed E b.pendingBlock)
    (run : executeNextTransaction E M B b = (.ok result,after)) :
    b.pendingBlock.transactionIDs[b.pendingBlock.index]? = some result.transactionID ∧
      after.pendingBlock.transactionIDs = b.pendingBlock.transactionIDs ∧
      after.pendingBlock.index = b.pendingBlock.index+1 ∧ Listed E after.pendingBlock := by
  have executes := executeNextTransaction_executes E M B b
  have stays := executes_listed executes listed
  have answered : (executeNextTransaction E M B b).1 = .ok result := by rw [run]
  have left : (executeNextTransaction E M B b).2 = after := by rw [run]
  rw [← left]
  generalize executeNextTransaction E M B b = out at executes stays answered ⊢
  cases executes with
  | exhausted complete => cases answered
  | missing incomplete next => cases answered
  | failed tx incomplete next message fatal => cases answered
  | unmerged tx incomplete next writes output ran fatal => cases answered
  | executed tx incomplete next writes output ran merged =>
    obtain ⟨found,isNext,here,_⟩ := listed_next listed incomplete
    rw [next] at isNext
    cases isNext
    dsimp only at answered
    split at answered
    · cases answered
      exact ⟨here,rfl,rfl,stays⟩
    · cases answered

/-- The results are those of the transactions that were left, in order. -/
theorem executeRemaining_ids {fuel : Nat} {results out : List TransactionResult} {b after : Blockchain σ}
    (listed : Listed E b.pendingBlock) (enough : b.pendingBlock.size ≤ b.pendingBlock.index+fuel)
    (run : executeRemaining E M B fuel results b = (.ok out,after)) :
    out.map TransactionResult.transactionID = results.map TransactionResult.transactionID ++
      b.pendingBlock.transactionIDs.drop b.pendingBlock.index := by
  have finished (b : Blockchain σ) (list : List TransactionResult) (all : b.pendingBlock.size ≤ b.pendingBlock.index)
      (same : list = out) : out.map TransactionResult.transactionID = list.map TransactionResult.transactionID ++
        b.pendingBlock.transactionIDs.drop b.pendingBlock.index := by
    rw [List.drop_eq_nil_of_le all,List.append_nil,same]
  induction fuel generalizing results b with
  | zero => exact finished b results enough (by cases run; rfl)
  | succ fuel ih =>
    rw [executeRemaining,bind_ok (view_run _ b)] at run
    split at run
    · next ended =>
      refine finished b results ?_ (by cases run; rfl)
      rcases Bool.or_eq_true_iff.mp ended with complete | empty
      · exact of_decide_eq_true complete
      · have none : b.pendingBlock.size = 0 := of_decide_eq_true empty
        omega
    · obtain ⟨result,middle,first,rest⟩ := bind_eq_ok.mp run
      obtain ⟨here,ids,index,stays⟩ := executeNextTransaction_result listed first
      have left : middle.pendingBlock.size ≤ middle.pendingBlock.index+fuel := by
        simp only [PendingBlock.size,ids,index] at enough ⊢
        omega
      obtain ⟨inside,same⟩ := List.getElem?_eq_some_iff.mp here
      rw [ih stays left rest,ids,index,List.drop_eq_getElem_cons inside,same]
      simp

/-- An execution of a block returns one result for each transaction it had left. -/
theorem executeBlock_ids {results : List TransactionResult} {b after : Blockchain σ} (listed : Listed E b.pendingBlock)
    (run : executeBlock E M B b = (.ok results,after)) :
    results.map TransactionResult.transactionID = b.pendingBlock.transactionIDs.drop b.pendingBlock.index := by
  rw [executeBlock,bind_ok (view_run _ b)] at run
  split at run
  · cases run
  · exact executeRemaining_ids listed (by omega) run

/-- The result of a transaction is found by its identifier. -/
theorem find_result {results : List TransactionResult} {result : TransactionResult}
    (distinct : (results.map TransactionResult.transactionID).Nodup) (member : result ∈ results) :
    results.find? (fun r => r.transactionID = result.transactionID) = some result := by
  induction results with
  | nil => cases member
  | cons first rest ih =>
    rw [List.map_cons,List.nodup_cons] at distinct
    rcases List.mem_cons.mp member with rfl | later
    · simp
    · have other : first.transactionID ≠ result.transactionID := fun same =>
        distinct.1 (same ▸ List.mem_map.mpr ⟨result,later,rfl⟩)
      simp [other,ih distinct.2 later]

theorem blank_new (E : Encoding) (tick : Tick) (block : Block) : Blank (newPendingBlock E tick block) := ⟨rfl,rfl,rfl,rfl,rfl⟩

/-- A block without transactions has nothing to execute. -/
theorem executeBlock_none {b : Blockchain σ} (none : b.pendingBlock.transactionIDs = []) : executeBlock E M B b = (.ok [],b) := by
  have size : b.pendingBlock.size = 0 := by rw [PendingBlock.size,none]; rfl
  rw [executeBlock,bind_ok (view_run _ b),size,Nat.zero_sub]
  simp [PendingBlock.empty,none,executeRemaining]

/-- After a block is executed and committed there is a new one. -/
theorem executeAndCommitBlock_new {tick : Tick} {block : Block} {results : List TransactionResult} {b after : Blockchain σ}
    (run : executeAndCommitBlock E M config B tick b = (.ok (block,results),after)) :
    ∃ middle, executeBlock E M B b = (.ok results,middle) ∧ after.pendingBlock = newPendingBlock E tick block := by
  obtain ⟨_,middle,executed,rest⟩ := bind_eq_ok.mp run
  obtain ⟨_,_,committed,same⟩ := bind_eq_ok.mp rest
  cases same
  refine ⟨middle,executed,?_⟩
  have commits : Commits E M config B tick middle _ := commitBlock_commits tick middle
  rw [committed] at commits
  cases commits with
  | committed ready c made sealed storage run => rfl

/-! ### What the creation reports -/

theorem inEmulator_ok {α : Type} {op : EmulatorM σ α} {s : Serviced σ} {b : Blockchain σ} {a : α}
    (run : op s.emulator = (.ok a,b)) : inEmulator op s = (.ok a,{ s with emulator := b }) := inside_ok run

theorem inEmulator_eq_ok {α : Type} {op : EmulatorM σ α} {s after : Serviced σ} {a : α} (run : inEmulator op s = (.ok a,after)) :
    op s.emulator = (.ok a,after.emulator) := by
  rcases done : op s.emulator with ⟨_ | _,_⟩ <;> simp only [inEmulator,inside,done] at run
  · cases run
  · cases run
    rfl

/-- Preparing the transaction leaves the emulator. -/
theorem creationTransaction_emulator (publicKeys : Option (List AccountPublicKey)) (contracts : List Contract) (s : Serviced σ) :
    (creationTransaction E R T B publicKeys contracts s).2.emulator = s.emulator := by
  have kept : Keeps (fun t : Serviced σ => t.emulator = s.emulator) (creationTransaction E R T B publicKeys contracts) := by
    refine keeps_bind (keeps_bind (keeps_update fun _ same => same) fun _ => keeps_view _ _) fun key => ?_
    refine keeps_bind (keeps_attempt _ _) fun latestBlock => keeps_bind (keeps_attempt _ _) fun template => ?_
    exact keeps_bind (keeps_attempt _ _) fun signature => keeps_pure _ _
  exact kept s rfl

theorem addTransaction_autoMine {tx : TransactionBody} {b added : Blockchain σ} (run : addTransaction E M B tx b = (.ok (),added)) :
    added.autoMine = b.autoMine := by
  have adds := addTransaction_adds E M B tx b
  rw [run] at adds
  cases adds
  rfl

/-! ### The ticker -/

theorem ticked_each {P : Blockchain σ → Prop} (each : ∀ b (call : TickerCall), P b → P (request E M config B call.request b))
    (calls : List TickerCall) {b : Blockchain σ} (now : P b) : P (ticked E M config B calls b) := by
  have step (b : Blockchain σ) (call : TickerCall) (now : P b) (_ : True) : P (request E M config B call.request b) :=
    each b call now
  exact play_keeps step now (throughout_all fun _ _ => trivial)

/-- What executing a transaction and committing a block keep, the ticker keeps. -/
theorem ticked_keeps {P : Blockchain σ → Prop} (executes : Keeps P (executeNextTransaction E M B))
    (commits : ∀ b tick, P b → P (commitBlock E M config B tick b).2) (calls : List TickerCall) {b : Blockchain σ} (now : P b) :
    P (ticked E M config B calls b) := by
  refine ticked_each (fun b call now => ?_) calls now
  cases call with
  | executeBlock => exact keeps_executeBlock executes b now
  | commitBlock tick => exact commits b tick now

theorem ticked_autoMine (calls : List TickerCall) (b : Blockchain σ) : (ticked E M config B calls b).autoMine = b.autoMine := by
  refine ticked_keeps (P := fun s => s.autoMine = b.autoMine) (fun s same => ?_) (fun s tick same => ?_) calls rfl
  · have executes := executeNextTransaction_executes E M B s
    generalize executeNextTransaction E M B s = out at executes ⊢
    cases executes <;> exact same
  · have commits : Commits E M config B tick s (commitBlock E M config B tick s) := commitBlock_commits tick s
    generalize commitBlock E M config B tick s = out at commits ⊢
    cases commits <;> exact same

/-- A block without transactions stays so. -/
theorem ticked_none (calls : List TickerCall) {b : Blockchain σ} (none : b.pendingBlock.transactionIDs = []) :
    (ticked E M config B calls b).pendingBlock.transactionIDs = [] := by
  refine ticked_keeps (P := fun s => s.pendingBlock.transactionIDs = []) (fun s none => ?_) (fun s tick none => ?_) calls none
  · have executes := executeNextTransaction_executes E M B s
    generalize executeNextTransaction E M B s = out at executes ⊢
    cases executes <;> exact none
  · have commits : Commits E M config B tick s (commitBlock E M config B tick s) := commitBlock_commits tick s
    generalize commitBlock E M config B tick s = out at commits ⊢
    cases commits with
    | committed => rfl
    | _ => exact none

/-- A reliable machine keeps such a block open. -/
theorem ticked_blank (reliable : Reliable E M config B) (calls : List TickerCall) {b : Blockchain σ} (blank : Blank b.pendingBlock) :
    Blank (ticked E M config B calls b).pendingBlock := by
  refine ticked_each (P := fun s => Blank s.pendingBlock) (fun b call blank => ?_) calls blank
  cases call with
  | executeBlock =>
    show Blank (executeBlock E M B b).2.pendingBlock
    rw [executeBlock_none blank.transactionIDs]
    exact blank
  | commitBlock tick =>
    obtain ⟨block,after,done⟩ := reliable.commits b tick blank
    have commits : Commits E M config B tick b _ := commitBlock_commits tick b
    show Blank (commitBlock E M config B tick b).2.pendingBlock
    rw [done] at commits ⊢
    cases commits with
    | committed => exact blank_new E _ _

/-- A block is committed on an open ledger only. -/
theorem committed_open {tick : Tick} {b after : Blockchain σ} {block : Block}
    (done : commitBlock E M config B tick b = (.ok block,after)) : b.pendingBlock.finalized = false := by
  have commits : Commits E M config B tick b _ := commitBlock_commits tick b
  rw [done] at commits
  cases commits with
  | committed ready c made sealed storage run opened => exact opened

theorem ticked_closed (calls : List TickerCall) {b : Blockchain σ} (closed : b.pendingBlock.finalized = true) :
    (ticked E M config B calls b).pendingBlock.finalized = true := by
  refine ticked_keeps (P := fun s => s.pendingBlock.finalized = true) (fun s closed => ?_) (fun s tick closed => ?_) calls closed
  · exact (executes_finalized (executeNextTransaction_executes E M B s)).trans closed
  · rcases run : commitBlock E M config B tick s with ⟨e | block,after⟩
    · rw [commitBlock_idle (.inr closed) run]
      exact closed
    · rw [committed_open run] at closed
      cases closed

theorem ticked_bounded (calls : List TickerCall) {b : Blockchain σ} (bounded : Bounded E b.pendingBlock) :
    Bounded E (ticked E M config B calls b).pendingBlock :=
  ticked_keeps (P := fun s => Bounded E s.pendingBlock)
    (fun s bounded => bounded_executes (executeNextTransaction_executes E M B s) bounded)
    (fun s tick bounded => call_lasting lasting_bounded (.commitBlock tick) s bounded) calls bounded

/-- While transactions wait, and the ticker does not execute them, its commits are refused. -/
theorem ticked_waiting {calls : List TickerCall} (never : .executeBlock ∉ calls) {b : Blockchain σ}
    (waiting : b.pendingBlock.index < b.pendingBlock.size) : ticked E M config B calls b = b := by
  induction calls with
  | nil => rfl
  | cons call rest ih =>
    rw [List.mem_cons,not_or] at never
    cases call with
    | executeBlock => exact absurd rfl never.1
    | commitBlock tick =>
      have commits : Commits E M config B tick b (commitBlock E M config B tick b) := commitBlock_commits tick b
      have refused : request E M config B (TickerCall.commitBlock tick).request b = b := by
        show (commitBlock E M config B tick b).2 = b
        generalize commitBlock E M config B tick b = out at commits ⊢
        cases commits with
        | refused => rfl
        | unsealed ready => omega
        | unsaved ready => omega
        | committed ready => omega
      rw [ticked,play_cons,refused]
      exact ih never.2

/-- The transaction does not wait to be executed. -/
def Passed (id : Identifier) (p : PendingBlock) : Prop := id ∉ p.transactionIDs.drop p.index

theorem ticked_passed {id : Identifier} (calls : List TickerCall) {b : Blockchain σ} (passed : Passed id b.pendingBlock) :
    Passed id (ticked E M config B calls b).pendingBlock := by
  refine ticked_keeps (P := fun s => Passed id s.pendingBlock) (fun s passed => ?_) (fun s tick passed => ?_) calls passed
  · have moved : id ∉ s.pendingBlock.transactionIDs.drop (s.pendingBlock.index+1) := fun later =>
      passed ((List.drop_sublist_drop_left _ (Nat.le_succ _)).subset later)
    have executes := executeNextTransaction_executes E M B s
    generalize executeNextTransaction E M B s = out at executes ⊢
    cases executes with
    | exhausted => exact passed
    | missing => exact passed
    | _ => exact moved
  · have commits : Commits E M config B tick s (commitBlock E M config B tick s) := commitBlock_commits tick s
    generalize commitBlock E M config B tick s = out at commits ⊢
    cases commits with
    | committed => exact List.not_mem_nil
    | _ => exact passed

/-- Once the ticker has executed the block, none of its transactions waits. -/
theorem ticked_executed (steady : M.Steady) (id : Identifier) {calls : List TickerCall} (executes : .executeBlock ∈ calls)
    {b : Blockchain σ} (listed : Listed E b.pendingBlock) (opened : b.pendingBlock.finalized = false)
    (waiting : b.pendingBlock.index < b.pendingBlock.size) : Passed id (ticked E M config B calls b).pendingBlock := by
  obtain ⟨front,back,rfl,first⟩ := List.eq_append_cons_of_mem executes
  have passed : Passed id (executeBlock E M B b).2.pendingBlock := by
    obtain ⟨ids,complete⟩ := steady_completes (B := B) steady listed opened
    rw [Passed,ids,complete,PendingBlock.size,List.drop_length]
    exact List.not_mem_nil
  have before : ticked E M config B front b = b := ticked_waiting first waiting
  have split : ticked E M config B (front ++ .executeBlock :: back) b =
      ticked E M config B back (executeBlock E M B (ticked E M config B front b)).2 := by
    rw [ticked,play_append,play_cons]
    rfl
  rw [split,before]
  exact ticked_passed back passed

/-! ### The whole creation -/

/-- A transaction that was added waits, with the others of its block. -/
theorem added_waits {tx : TransactionBody} {b added : Blockchain σ} (run : addTransaction E M B tx b = (.ok (),added))
    (listed : Listed E b.pendingBlock) : Listed E added.pendingBlock ∧
      added.pendingBlock.index < added.pendingBlock.size := by
  have adds := addTransaction_adds E M B tx b
  have stays := adds_listed adds listed
  rw [run] at adds stays
  cases adds with
  | added idle fresh missing valid =>
    refine ⟨stays,?_⟩
    show b.pendingBlock.index < (b.pendingBlock.transactionIDs ++ [E.transactionID tx]).length
    rw [idle,List.length_append]
    exact Nat.succ_pos _

/-- Nothing is committed on a finalized ledger. -/
theorem commitment_open {gaps : Gaps} {sending committing : Tick} {id : Identifier} {output : ProcedureOutput}
    {added : Blockchain σ} (commitment : Commitment E M config B gaps sending committing id output added) :
    added.pendingBlock.finalized = false := by
  have executed {tick : Tick} {b after : Blockchain σ} {out : Block × List TransactionResult}
      (done : executeAndCommitBlock E M config B tick b = (.ok out,after)) (closed : b.pendingBlock.finalized = true) : False := by
    obtain ⟨_,middle,run,rest⟩ := bind_eq_ok.mp done
    obtain ⟨_,_,committed,_⟩ := bind_eq_ok.mp rest
    have kept := keeps_executeBlock (P := fun s : Blockchain σ => s.pendingBlock.finalized = true)
      (fun s closed => (executes_finalized (executeNextTransaction_executes E M B s)).trans closed) b closed
    rw [run,committed_open committed] at kept
    cases kept
  rw [← Bool.not_eq_true]
  intro closed
  cases commitment with
  | submission mining committed member => exact executed committed closed
  | ticker idle calls found committed =>
    have still := committed_open committed
    rw [ticked_closed _ closed] at still
    cases still
  | own idle committed member => exact executed committed (ticked_closed _ closed)

section
variable {s prepared : Serviced σ} {publicKeys : Option (List AccountPublicKey)} {contracts : List Contract} {tx : TransactionBody}
  {gaps : Gaps} {sending committing next : Tick}
  (submitted : creationTransaction E R T B publicKeys contracts s = (.ok tx,prepared))
include submitted

theorem prepared_emulator : prepared.emulator = s.emulator := by
  rw [← creationTransaction_emulator (E := E) (R := R) (T := T) (B := B) publicKeys contracts s,submitted]

/-- An address is returned out of the results of the call that the creation makes itself. -/
theorem createAccount_eq_ok {address : Address}
    (answered : (createAccount E M R T config B gaps sending committing next publicKeys contracts s).1 = .ok address) :
    ∃ sent block results after,
      sendTransaction E M config B sending tx (ticked E M config B gaps.beforeSending s.emulator) = (.ok (),sent) ∧
      executeAndCommitBlock E M config B committing (ticked E M config B gaps.beforeExecuting sent) =
        (.ok (block,results),after) ∧ addressFrom T (E.transactionID tx) results = .ok address := by
  rw [createAccount,bind_ok submitted,ticker,bind_ok (update_run _ prepared)] at answered
  obtain ⟨_,sent,submission,later⟩ := bind_eq_ok.mp (Prod.ext answered rfl)
  rw [ticker,bind_ok (update_run _ sent)] at later
  obtain ⟨⟨block,results⟩,executed,run,last⟩ := bind_eq_ok.mp later
  dsimp only at last
  rw [ticker,bind_ok (update_run _ executed)] at last
  obtain ⟨_,_,_,found⟩ := bind_eq_ok.mp last
  have submission := inEmulator_eq_ok submission
  rw [prepared_emulator submitted] at submission
  exact ⟨sent.emulator,block,results,executed.emulator,submission,inEmulator_eq_ok run,congrArg Prod.fst found⟩

/-- What the creation answers when the calls it makes succeed. -/
theorem createAccount_run {sent after final : Blockchain σ} {block last : Block} {results : List TransactionResult}
    (submission : sendTransaction E M config B sending tx (ticked E M config B gaps.beforeSending s.emulator) = (.ok (),sent))
    (executed : executeAndCommitBlock E M config B committing (ticked E M config B gaps.beforeExecuting sent) =
      (.ok (block,results),after))
    (committed : commitBlock E M config B next (ticked E M config B gaps.beforeCommitting after) = (.ok last,final)) :
    (createAccount E M R T config B gaps sending committing next publicKeys contracts s).1 =
      addressFrom T (E.transactionID tx) results := by
  rw [← prepared_emulator submitted] at submission
  rw [createAccount,bind_ok submitted,ticker,bind_ok (update_run _ prepared),bind_ok (inEmulator_ok submission),
    ticker,bind_ok (update_run _ _),bind_ok (inEmulator_ok executed)]
  dsimp only
  rw [ticker,bind_ok (update_run _ _),bind_ok (inEmulator_ok committed)]
  rfl

end

/-- An address is found in the results of the transaction, and is not zero. -/
theorem addressFrom_eq_ok {id : Identifier} {results : List TransactionResult} {address : Address}
    (found : addressFrom T id results = .ok address) :
    id ∈ results.map TransactionResult.transactionID ∧ address ≠ 0 := by
  unfold addressFrom at found
  split at found
  · cases found
  · next r isFirst =>
    have same : r.transactionID = id := by simpa using List.find?_some isFirst
    refine ⟨same ▸ List.mem_map_of_mem (List.mem_of_find?_eq_some isFirst),?_⟩
    split at found
    · cases found
    · rcases created : createdAddress T r.output.events with e | other
      · rw [created] at found
        cases found
      · rw [created] at found
        show address ≠ 0
        change (if other = 0 then Except.error CreationError.eventNotFound else .ok other) = .ok address at found
        split at found
        · cases found
        · next nonzero =>
          cases found
          exact nonzero

/-- With blocks mined automatically no address is returned. -/
theorem createAccount_mined {s prepared : Serviced σ} {publicKeys : Option (List AccountPublicKey)} {contracts : List Contract}
    {tx : TransactionBody} (submitted : creationTransaction E R T B publicKeys contracts s = (.ok tx,prepared))
    {gaps : Gaps} {sending committing : Tick} {output : ProcedureOutput} (mining : s.emulator.autoMine = true)
    (settled : Settled E M config B gaps sending committing tx s.emulator output) (next : Tick) (address : Address) :
    (createAccount E M R T config B gaps sending committing next publicKeys contracts s).1 ≠ .ok address := by
  intro answered
  obtain ⟨added,add,_⟩ := settled
  obtain ⟨sent,_,results,_,submission,executed,found⟩ := createAccount_eq_ok submitted answered
  obtain ⟨_,run,_⟩ := executeAndCommitBlock_new executed
  -- the submission has left a block without transactions, so that there are no results
  rw [sendTransaction,bind_ok add,bind_ok (view_run _ added),addTransaction_autoMine add,ticked_autoMine,mining,if_pos rfl]
    at submission
  obtain ⟨⟨_,_⟩,_,committed,ended⟩ := bind_eq_ok.mp submission
  cases ended
  obtain ⟨_,_,new⟩ := executeAndCommitBlock_new committed
  have none : sent.pendingBlock.transactionIDs = [] := by rw [new]; rfl
  rw [executeBlock_none (ticked_none _ none)] at run
  cases run
  cases (addressFrom_eq_ok found).1

/-- Where the ticker executes the block before the creation does no address is returned. -/
theorem createAccount_overtaken (steady : M.Steady) {s prepared : Serviced σ} {publicKeys : Option (List AccountPublicKey)}
    {contracts : List Contract} {tx : TransactionBody}
    (submitted : creationTransaction E R T B publicKeys contracts s = (.ok tx,prepared)) {gaps : Gaps} {sending committing : Tick}
    {added : Blockchain σ}
    (queued : sendTransaction E M config B sending tx (ticked E M config B gaps.beforeSending s.emulator) = (.ok (),added))
    (bounded : Bounded E added.pendingBlock) (opened : added.pendingBlock.finalized = false)
    (waiting : added.pendingBlock.index < added.pendingBlock.size) (executes : .executeBlock ∈ gaps.beforeExecuting)
    (next : Tick) (address : Address) :
    (createAccount E M R T config B gaps sending committing next publicKeys contracts s).1 ≠ .ok address := by
  intro answered
  obtain ⟨sent,_,results,_,submission,executed,found⟩ := createAccount_eq_ok submitted answered
  obtain ⟨_,run,_⟩ := executeAndCommitBlock_new executed
  rw [queued] at submission
  cases submission
  have passed : Passed (E.transactionID tx) (ticked E M config B gaps.beforeExecuting added).pendingBlock :=
    ticked_executed steady _ executes bounded.listed opened waiting
  have member := (addressFrom_eq_ok found).1
  rw [executeBlock_ids (ticked_bounded _ bounded).listed run] at member
  exact passed member

end

/-! ### A machine on which accounts are created -/

section
open FlowEmulator.Samples

/-- The event of a created account. -/
def accountCreated : Event := ⟨eventAccountCreated,digest 10,0,0,[]⟩

def creatingMachine : Machine :=
  { machine with
    run := fun context _ _ _ => .ok (∅,⟨[],if context.kind = .user then [accountCreated] else [],0,0,none⟩) }

def sampleTemplates : Templates where
  defaultMaxTransactionGasLimit := 10
  createAccount _ _ _ := .ok transaction
  signEnvelope _ _ := .ok []
  addressField _ := some 5

abbrev sampleBackend : Backend (Memstore.Store (List WriteSet)) := Memstore.backend numberEncoding .ofLists

/-- A new emulator over a store in memory, with the key of its service account. -/
def sampleServiced (autoMine : Bool) : Serviced (Memstore.Store (List WriteSet)) where
  emulator := ⟨(sampleBackend.commitBlock (genesisContents creatingMachine config ∅ []) Memstore.new).2,
    newPendingBlock numberEncoding tick (genesis creatingMachine .emulator),zeroID,autoMine⟩
  serviceKey := ⟨0,1,0,1000⟩

theorem sampleServiced_begun (autoMine : Bool) : newBlockchain numberEncoding creatingMachine config sampleBackend tick autoMine
    Memstore.new = .ok (sampleServiced autoMine).emulator := rfl

/-- On this machine an executed block can be committed. -/
theorem creating_commits (tick : Tick) (b : Blockchain (Memstore.Store (List WriteSet)))
    (executed : b.pendingBlock.index = b.pendingBlock.size) (opened : b.pendingBlock.finalized = false)
    (counted : b.pendingBlock.transactions.entries.length = b.pendingBlock.transactionResults.entries.length) :
    ∃ block after, commitBlock numberEncoding creatingMachine config sampleBackend tick b = (.ok block,after) := by
  obtain ⟨storage,⟨height,view,parentID,timestamp,transactions,ids,results,ledgerHeight,ledger,_,events,index⟩,entropy,_⟩ := b
  cases opened
  refine ⟨_,_,commitBlock_ok tick executed rfl (Memstore.saveBlock_run _ _ _ _ ⟨?_,rfl⟩ _)⟩
  simpa [convertToSealedResults] using counted

theorem creating_reliable : Reliable numberEncoding creatingMachine config sampleBackend where
  runs _ _ _ _ := ⟨_,_,rfl⟩
  merges _ _ := rfl
  converts _ := rfl
  commits b tick blank := by
    refine creating_commits tick b ?_ blank.opened ?_
    · rw [blank.index,PendingBlock.size,blank.transactionIDs]
      rfl
    · rw [blank.transactions,blank.transactionResults]
      rfl

/-- The transaction of the creation. -/
def sampleCreation : TransactionBody :=
  { numbered 10 with proposalKey := ⟨1,0,0⟩, payer := 1, envelopeSignatures := [⟨1,0,[]⟩], referenceBlockID := digest 0 }

theorem sample_prepared (autoMine : Bool) : ∃ prepared, creationTransaction numberEncoding reader sampleTemplates sampleBackend
    none [] (sampleServiced autoMine) = (.ok sampleCreation,prepared) := ⟨_,rfl⟩

/-- The pending block with it. -/
def sampleQueued : PendingBlock :=
  (newPendingBlock numberEncoding tick (genesis creatingMachine .emulator)).addTransaction numberEncoding sampleCreation

/-- It is executed, whatever the store is. -/
theorem sample_executed (storage : Memstore.Store (List WriteSet)) (autoMine : Bool) : ∃ executed,
    executeBlock numberEncoding creatingMachine sampleBackend ⟨storage,sampleQueued,zeroID,autoMine⟩ =
      (.ok [⟨digest 10,⟨[],[accountCreated],0,0,none⟩⟩],executed) ∧
    executed.pendingBlock.index = executed.pendingBlock.size ∧ executed.pendingBlock.finalized = false ∧
    executed.pendingBlock.transactions.entries.length = executed.pendingBlock.transactionResults.entries.length :=
  ⟨_,rfl,rfl,rfl,rfl⟩

/-- The ticker tries to commit before the block is executed, and makes a block after it is committed. -/
def sampleGaps : Gaps := ⟨[],[.commitBlock tick],[.executeBlock,.commitBlock tick]⟩

/-- It is committed and succeeds. -/
theorem sample_settled (autoMine : Bool) : Settled numberEncoding creatingMachine config sampleBackend sampleGaps tick tick
    sampleCreation (sampleServiced autoMine).emulator ⟨[],[accountCreated],0,0,none⟩ := by
  let added : Blockchain (Memstore.Store (List WriteSet)) :=
    ⟨(sampleServiced autoMine).emulator.storage,sampleQueued,zeroID,autoMine⟩
  obtain ⟨executed,run,done,opened,counted⟩ := sample_executed (sampleServiced autoMine).emulator.storage autoMine
  obtain ⟨block,after,committed⟩ := creating_commits tick executed done opened counted
  have both : executeAndCommitBlock numberEncoding creatingMachine config sampleBackend tick added =
      (.ok (block,[⟨digest 10,⟨[],[accountCreated],0,0,none⟩⟩]),after) := by
    rw [executeAndCommitBlock,bind_ok run,bind_ok committed]
    rfl
  refine ⟨added,rfl,?_⟩
  cases autoMine with
  | true => exact .submission rfl both (List.mem_singleton.mpr rfl)
  | false =>
    have here : ticked numberEncoding creatingMachine config sampleBackend sampleGaps.beforeExecuting added = added :=
      ticked_waiting (by simp [sampleGaps]) Nat.zero_lt_one
    rw [← here] at both
    exact .own rfl both (List.mem_singleton.mpr rfl)

end
end Serviced
end FlowEmulator
