import FlowEmulator.Requests
import FlowEmulator.Run

/-!
An emulator that is run: requests, rollbacks, snapshots and restarts in any
order. `Effect` says what a request can do; here it is said what a reload does.
-/
namespace FlowEmulator.Blockchain
open FlowEmulator.Fallible

/-- What is done to an emulator. -/
inductive Action where
  | request (r : Request)
  | rollback (tick : Tick) (height : Nat)
  | createSnapshot (tick : Tick) (name : String)
  | loadSnapshot (tick : Tick) (name : String)
  | restart (tick : Tick) (autoMine : Bool)

/-- The action does not use snapshots. -/
def Action.plain : Action → Bool
  | .createSnapshot _ _ | .loadSnapshot _ _ => false
  | _ => true

section
variable {σ : Type} (E : Encoding) (M : Machine) (config : Config) (B : Backend σ) (reopen : σ → Except StoreError σ)

/-- Stop and start again over the store as it is found then. A start that fails leaves it for another attempt. -/
def restart (tick : Tick) (autoMine : Bool) (b : Blockchain σ) : Blockchain σ :=
  match reopen b.storage with
  | .error _ => b
  | .ok storage => match newBlockchain E M config B tick autoMine storage with
    | .ok started => started
    | .error _ => b

/-- The emulator after an action, also where the action fails. -/
def act : Action → Blockchain σ → Blockchain σ
  | .request r, b => request E M config B r b
  | .rollback tick height, b => (rollbackToBlockHeight E M config B tick height b).2
  | .createSnapshot tick name, b => (createSnapshot E M config B tick name b).2
  | .loadSnapshot tick name, b => (loadSnapshot E M config B tick name b).2
  | .restart tick autoMine, b => restart E M config B reopen tick autoMine b

end

section
variable {σ : Type} {E : Encoding} {M : Machine} {config : Config} {B : Backend σ}

theorem configureLedger_ok {storage : σ} {block : Block} (latest : B.latestBlock storage = .ok block) :
    configureLedger M config B storage = (.ok block,storage) := by
  unfold configureLedger
  rw [bind_ok (view_run _ storage),latest]
  rfl

theorem configureLedger_unread {storage : σ} {e : StoreError} (failed : B.latestBlock storage = .error e)
    (other : e ≠ .notFound) : configureLedger M config B storage = (.error (.storage e),storage) := by
  unfold configureLedger
  rw [bind_ok (view_run _ storage),failed]
  cases e with
  | notFound => exact absurd rfl other
  | _ => rfl

section
variable {storage : σ} (none : B.latestBlock storage = .error .notFound)
include none

theorem configureLedger_new : configureLedger M config B storage = configureNewLedger M config B storage := by
  unfold configureLedger
  rw [bind_ok (view_run _ storage),none]

theorem configureLedger_unbootstrapped {message : String}
    (failed : M.bootstrap config.getChainID (fun id => B.ledgerByHeight 0 id storage) = .error message) :
    configureLedger M config B storage = (.error (.fatal message),storage) := by
  rw [configureLedger_new none]
  unfold configureNewLedger
  rw [bind_ok (view_run _ storage),failed]
  rfl

variable {writes : WriteSet} {events : List Event}
  (bootstrapped : M.bootstrap config.getChainID (fun id => B.ledgerByHeight 0 id storage) = .ok (writes,events))
include bootstrapped

theorem configureLedger_committed {after : σ}
    (run : B.commitBlock (genesisContents M config writes events) storage = (.ok (),after)) :
    configureLedger M config B storage = (.ok (genesis M config.getChainID),after) := by
  rw [configureLedger_new none]
  unfold configureNewLedger
  rw [bind_ok (view_run _ storage),bootstrapped]
  exact bind_ok (inside_ok run) _

theorem configureLedger_uncommitted {after : σ} {e : StoreError}
    (run : B.commitBlock (genesisContents M config writes events) storage = (.error e,after)) :
    configureLedger M config B storage = (.error (.storage e),after) := by
  rw [configureLedger_new none]
  unfold configureNewLedger
  rw [bind_ok (view_run _ storage),bootstrapped]
  exact bind_error (inside_error run) _

end

/-- A reload builds on the block the ledger is configured with. -/
theorem reload_configured (tick : Tick) {b : Blockchain σ} {block : Block} {storage : σ}
    (configured : configureLedger M config B b.storage = (.ok block,storage)) :
    reloadBlockchain E M config B tick b =
      (.ok (),{ b with storage := storage, pendingBlock := newPendingBlock E tick block }) :=
  bind_ok (inside_ok configured) _

theorem reload_unconfigured (tick : Tick) {b : Blockchain σ} {e : EmulatorError} {storage : σ}
    (failed : configureLedger M config B b.storage = (.error e,storage)) :
    reloadBlockchain E M config B tick b = (.error e,{ b with storage := storage }) :=
  bind_error (inside_error failed) _

/-- A reload of a store that has a latest block builds on that block. -/
theorem reload_ok (tick : Tick) {b : Blockchain σ} {block : Block} (latest : B.latestBlock b.storage = .ok block) :
    reloadBlockchain E M config B tick b = (.ok (),{ b with pendingBlock := newPendingBlock E tick block }) :=
  reload_configured tick (configureLedger_ok latest)

/-- An emulator starts with a new pending block on the latest block, and without entropy. -/
theorem new_renewed {tick : Tick} {autoMine : Bool} {storage : σ} {b : Blockchain σ}
    (started : newBlockchain E M config B tick autoMine storage = .ok b) :
    b.latestEntropy = zeroID ∧ ∃ block, b.pendingBlock = newPendingBlock E tick block := by
  unfold newBlockchain at started
  rcases configured : configureLedger M config B storage with ⟨e | latest,after⟩
  · rw [configured] at started
    cases started
  · rw [configured] at started
    cases started
    exact ⟨rfl,latest,rfl⟩

theorem new_existing (tick : Tick) (autoMine : Bool) {storage : σ} {block : Block}
    (latest : B.latestBlock storage = .ok block) :
    newBlockchain E M config B tick autoMine storage =
      .ok ⟨storage,newPendingBlock E tick block,zeroID,autoMine⟩ := by
  unfold newBlockchain
  rw [configureLedger_ok latest]

/-- A start on a store without a latest block commits the first block. -/
theorem new_first {tick : Tick} {autoMine : Bool} {storage : σ} {b : Blockchain σ}
    (none : B.latestBlock storage = .error .notFound)
    (started : newBlockchain E M config B tick autoMine storage = .ok b) : ∃ writes events,
      M.bootstrap config.getChainID (fun id => B.ledgerByHeight 0 id storage) = .ok (writes,events) ∧
        B.commitBlock (genesisContents M config writes events) storage = (.ok (),b.storage) ∧
        b.pendingBlock = newPendingBlock E tick (genesis M config.getChainID) := by
  unfold newBlockchain at started
  rcases bootstrapped : M.bootstrap config.getChainID (fun id => B.ledgerByHeight 0 id storage) with message | ⟨writes,events⟩
  · rw [configureLedger_unbootstrapped none bootstrapped] at started
    cases started
  · rcases run : B.commitBlock (genesisContents M config writes events) storage with ⟨e | _,after⟩
    · rw [configureLedger_uncommitted none bootstrapped run] at started
      cases started
    · rw [configureLedger_committed none bootstrapped run] at started
      cases started
      exact ⟨writes,events,rfl,run,rfl⟩

theorem new_bootstrapped (tick : Tick) (autoMine : Bool) {storage after : σ} {writes : WriteSet} {events : List Event}
    (none : B.latestBlock storage = .error .notFound)
    (bootstrapped : M.bootstrap config.getChainID (fun id => B.ledgerByHeight 0 id storage) = .ok (writes,events))
    (run : B.commitBlock (genesisContents M config writes events) storage = (.ok (),after)) :
    newBlockchain E M config B tick autoMine storage =
      .ok ⟨after,newPendingBlock E tick (genesis M config.getChainID),zeroID,autoMine⟩ := by
  unfold newBlockchain
  rw [configureLedger_committed none bootstrapped run]

/-- A rollback of the store to a block is followed by a reload on that block. -/
theorem rollback_ok (tick : Tick) {rollback : Nat → StoreM σ Unit} (provider : B.rollbackProvider = some rollback)
    {height : Nat} {b : Blockchain σ} {storage : σ} (run : rollback height b.storage = (.ok (),storage)) {block : Block}
    (latest : B.latestBlock storage = .ok block) :
    rollbackToBlockHeight E M config B tick height b =
      (.ok (),{ b with storage := storage, pendingBlock := newPendingBlock E tick block }) := by
  unfold rollbackToBlockHeight
  rw [provider]
  dsimp only
  rw [bind_ok (inStorage_ok run)]
  exact reload_ok tick latest

theorem rollback_error (tick : Tick) {rollback : Nat → StoreM σ Unit} (provider : B.rollbackProvider = some rollback)
    {height : Nat} {b : Blockchain σ} {storage : σ} {e : StoreError} (run : rollback height b.storage = (.error e,storage)) :
    rollbackToBlockHeight E M config B tick height b = (.error (.storage e),{ b with storage := storage }) := by
  unfold rollbackToBlockHeight
  rw [provider]
  dsimp only
  rw [bind_error (inStorage_error run)]

end
end FlowEmulator.Blockchain
