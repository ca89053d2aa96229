import FlowEmulator.Progress

/-!
What the requests to an emulator do to its store and to the place of the pending
block in the chain. Submitting and executing transactions leaves both. A commit
runs the system transactions, which leave both as well, and then saves one block
at the place of the pending block.
-/
namespace FlowEmulator.Blockchain
open FlowEmulator.Fallible

/-- Two pending blocks at one place of the chain. -/
structure SamePlace (p q : PendingBlock) : Prop where
  height : q.height = p.height
  view : q.view = p.view
  parentID : q.parentID = p.parentID

/-- The block is at the place of the pending block. -/
structure Placed (block : Block) (p : PendingBlock) : Prop where
  height : block.height = p.height
  view : block.view = p.view
  parentID : block.parentID = p.parentID

/-- The store and the place of the pending block are left. -/
structure Still {σ : Type} (b after : Blockchain σ) : Prop where
  storage : after.storage = b.storage
  place : SamePlace b.pendingBlock after.pendingBlock

theorem still_refl {σ : Type} (b : Blockchain σ) : Still b b := ⟨rfl,rfl,rfl,rfl⟩

section
variable {σ : Type} {E : Encoding} {M : Machine} {config : Config} {B : Backend σ} (b : Blockchain σ)

theorem samePlace_trans {p q r : PendingBlock} (left : SamePlace p q) (right : SamePlace q r) : SamePlace p r :=
  ⟨right.height.trans left.height,right.view.trans left.view,right.parentID.trans left.parentID⟩

theorem still_trans {b middle after : Blockchain σ} (left : Still b middle) (right : Still middle after) : Still b after :=
  ⟨right.storage.trans left.storage,samePlace_trans left.place right.place⟩

theorem still_record (runs : List Execution) : Still b (b.record runs) := ⟨rfl,rfl,rfl,rfl⟩

theorem keeps_addTransaction (tx : TransactionBody) : Keeps (Still b) (addTransaction E M B tx) := by
  intro s still
  refine still_trans still ?_
  have adds := addTransaction_adds E M B tx s
  generalize addTransaction E M B tx s = out at adds ⊢
  cases adds <;> exact ⟨rfl,rfl,rfl,rfl⟩

theorem keeps_executeNextTransaction : Keeps (Still b) (executeNextTransaction E M B) := by
  intro s still
  refine still_trans still ?_
  have executes := executeNextTransaction_executes E M B s
  generalize executeNextTransaction E M B s = out at executes ⊢
  cases executes <;> exact ⟨rfl,rfl,rfl,rfl⟩

/-- Executing a block keeps what executing the next transaction keeps. -/
theorem keeps_executeBlock {P : Blockchain σ → Prop} (each : Keeps P (executeNextTransaction E M B)) :
    Keeps P (executeBlock E M B) := by
  have remaining (fuel : Nat) (results : List TransactionResult) : Keeps P (executeRemaining E M B fuel results) := by
    induction fuel generalizing results with
    | zero => exact keeps_pure _ results
    | succ fuel ih =>
      refine keeps_bind (keeps_view _ _) (fun pending => ?_)
      split
      · exact keeps_pure _ _
      · exact keeps_bind each (fun result => ih _)
  refine keeps_bind (keeps_view _ _) (fun pending => ?_)
  split
  · exact keeps_fail _ _
  · exact remaining _ _

/-- The contents of a sealed block are those of the pending block's place. -/
theorem sealBlock_placed {b middle : Blockchain σ} {c : BlockContents}
    (run : sealBlock E M config B b = (.ok c,middle)) : Placed c.block b.pendingBlock := by
  rw [sealBlock_attempt] at run
  rcases ended : (attempted E M config B b).2 with e | system
  · rw [ended] at run
    cases run
  · rw [ended] at run
    cases run
    exact ⟨rfl,rfl,rfl⟩

theorem sealed_placed {base : Registers} {p : PendingBlock} {runs : List Execution} {c : BlockContents}
    (sealed : Sealed E M config base p runs c) : Placed c.block p := by
  rw [sealed.block]
  exact ⟨rfl,rfl,rfl⟩

/-- What a request can do to the store and to the place of the pending block. -/
inductive Effect (E : Encoding) (M : Machine) (config : Config) (B : Backend σ) (b after : Blockchain σ) : Prop where
  | still (still : Still b after)
  | refused (c : BlockContents) (e : StoreError)
      (run : B.saveBlock E (static E M config) c b.storage = (.error e,after.storage))
      (place : SamePlace b.pendingBlock after.pendingBlock)
  | saved (c : BlockContents) (tick : Tick) (placed : Placed c.block b.pendingBlock)
      (run : B.saveBlock E (static E M config) c b.storage = (.ok (),after.storage))
      (pending : after.pendingBlock = newPendingBlock E tick c.block)
  | reset (tick : Tick) (block : Block) (storage : after.storage = b.storage)
      (latest : B.latestBlock b.storage = .ok block) (pending : after.pendingBlock = newPendingBlock E tick block)

theorem placed_of_same {block : Block} {p q : PendingBlock} (place : SamePlace p q) (placed : Placed block q) :
    Placed block p :=
  ⟨placed.height.trans place.height,placed.view.trans place.view,placed.parentID.trans place.parentID⟩

/-- What leaves the store and the place may come before. -/
theorem effect_after_still {b middle after : Blockchain σ} (still : Still b middle) (effect : Effect E M config B middle after) :
    Effect E M config B b after := by
  cases effect with
  | still later => exact .still (still_trans still later)
  | refused c e run place => exact .refused c e (still.storage ▸ run) (samePlace_trans still.place place)
  | saved c tick placed run pending =>
    exact .saved c tick (placed_of_same still.place placed) (still.storage ▸ run) pending
  | reset tick block storage latest pending =>
    exact .reset tick block (storage.trans still.storage) (still.storage ▸ latest) pending

/-- The computation has one of the effects, however it ends. -/
def HasEffect {α : Type} (E : Encoding) (M : Machine) (config : Config) (B : Backend σ) (x : EmulatorM σ α) : Prop :=
  ∀ b, Effect E M config B b (x b).2

theorem hasEffect_of_keeps {α : Type} {x : EmulatorM σ α} (keeps : ∀ b, Keeps (Still b) x) :
    HasEffect E M config B x := fun b => .still (keeps b b (still_refl b))

theorem hasEffect_bind {α β : Type} {x : EmulatorM σ α} {f : α → EmulatorM σ β} (first : ∀ b, Keeps (Still b) x)
    (second : ∀ a, HasEffect E M config B (f a)) : HasEffect E M config B (x >>= f) := by
  intro b
  have still := first b b (still_refl b)
  rw [bind_run]
  rcases run : x b with ⟨result,middle⟩
  rw [run] at still
  cases result with
  | ok a => exact effect_after_still still (second a middle)
  | error e => exact .still still

theorem hasEffect_pure {α β : Type} {x : EmulatorM σ α} (first : HasEffect E M config B x) (g : α → β) :
    HasEffect E M config B (x >>= fun a => pure (g a)) := by
  intro b
  have effect := first b
  rw [bind_run]
  rcases run : x b with ⟨result,middle⟩
  rw [run] at effect
  cases result <;> exact effect

/-- A commit of a block that was executed is not refused. -/
theorem commitBlock_ready (tick : Tick) {b : Blockchain σ} (ready : b.pendingBlock.size ≤ b.pendingBlock.index) :
    commitBlock E M config B tick b = (sealBlock E M config B >>= fun c =>
      modifyPending PendingBlock.finalize >>= fun _ => inStorage (B.saveBlock E (static E M config) c) >>= fun _ =>
      update (fun b => { b with pendingBlock := newPendingBlock E tick c.block, latestEntropy := E.blockID c.block }) >>=
        fun _ => pure c.block) b := by
  have begun : (!b.pendingBlock.executionStarted && !b.pendingBlock.empty) = false := by
    rw [PendingBlock.size] at ready
    simp only [PendingBlock.executionStarted,PendingBlock.empty]
    cases count : b.pendingBlock.transactionIDs.length with
    | zero => simp
    | succ n =>
      rw [count] at ready
      simp [Nat.lt_of_lt_of_le (Nat.succ_pos n) ready]
  have complete : (b.pendingBlock.executionStarted && !b.pendingBlock.executionComplete) = false := by
    simp [PendingBlock.executionComplete,ready]
  unfold commitBlock
  rw [bind_ok (view_run _ b),if_neg (by rw [begun]; decide),if_neg (by rw [complete]; decide)]

/-- A commit whose block can be sealed and saved moves on to the next block. -/
theorem commitBlock_ok (tick : Tick) {b middle : Blockchain σ} {c : BlockContents} {storage : σ}
    (ready : b.pendingBlock.index = b.pendingBlock.size) (sealed : sealBlock E M config B b = (.ok c,middle))
    (run : B.saveBlock E (static E M config) c middle.storage = (.ok (),storage)) :
    commitBlock E M config B tick b = (.ok c.block,{ middle with
      storage := storage
      pendingBlock := newPendingBlock E tick c.block
      latestEntropy := E.blockID c.block }) := by
  rw [commitBlock_ready tick ready.ge,bind_ok sealed,bind_ok (finalize_run middle),
    bind_ok (inStorage_ok (b := middle.finalize) run)]
  rfl

/-- A commit that the store does not take leaves what the system transactions did, on a finalized ledger. -/
theorem commitBlock_unsaved (tick : Tick) {b : Blockchain σ} {e : StoreError} {storage : σ} {ended : SystemRun × Execution}
    (ready : b.pendingBlock.size ≤ b.pendingBlock.index) (sealed : (attempted E M config B b).2 = .ok ended)
    (run : B.saveBlock E (static E M config) (sealedContents E b.pendingBlock (attempted E M config B b).1 ended.1 ended.2)
      b.storage = (.error e,storage)) :
    commitBlock E M config B tick b =
      (.error (.storage e),{ (b.record (attempted E M config B b).1).finalize with storage := storage }) := by
  have sealing := sealBlock_attempt E M config B b
  rw [sealed] at sealing
  rw [commitBlock_ready tick ready,bind_ok sealing,bind_ok (finalize_run _),
    bind_error (inStorage_error (b := (b.record (attempted E M config B b).1).finalize) run)]

/-- A commit whose system transactions stop leaves what they did so far. -/
theorem commitBlock_unsealed (tick : Tick) {b : Blockchain σ} {e : EmulatorError}
    (ready : b.pendingBlock.size ≤ b.pendingBlock.index) (stopped : (attempted E M config B b).2 = .error e) :
    commitBlock E M config B tick b = (.error e,b.record (attempted E M config B b).1) := by
  have sealing : sealBlock E M config B b = (.error e,b.record (attempted E M config B b).1) := by
    rw [sealBlock_attempt,stopped]
    rfl
  rw [commitBlock_ready tick ready,bind_error sealing]

theorem commitBlock_effect (tick : Tick) : HasEffect E M config B (commitBlock E M config B tick) := by
  intro b
  have commits : Commits E M config B tick b (commitBlock E M config B tick b) := commitBlock_commits tick b
  generalize commitBlock E M config B tick b = out at commits ⊢
  cases commits with
  | refused waiting => exact .still (still_refl b)
  | unsealed ready e failed => exact .still (still_record b _)
  | unsaved ready c sealed e storage run => exact .refused c e run ⟨rfl,rfl,rfl⟩
  | committed ready c made sealed storage run => exact .saved c tick (sealed_placed sealed) run rfl

theorem executeAndCommitBlock_effect (tick : Tick) :
    HasEffect E M config B (executeAndCommitBlock E M config B tick) :=
  hasEffect_bind (fun b => keeps_executeBlock (keeps_executeNextTransaction b)) (fun _ => hasEffect_pure (commitBlock_effect tick) _)

theorem sendTransaction_effect (tick : Tick) (tx : TransactionBody) :
    HasEffect E M config B (sendTransaction E M config B tick tx) := by
  refine hasEffect_bind (fun b => keeps_addTransaction b tx) (fun _ => ?_)
  refine hasEffect_bind (fun b => keeps_view _ _) (fun autoMine => ?_)
  split
  · exact hasEffect_pure (executeAndCommitBlock_effect tick) _
  · exact hasEffect_of_keeps fun b => keeps_pure _ _

/-- A reset builds a new block on the latest one, or finds none and changes nothing. -/
theorem resetPendingBlock_run (tick : Tick) (b : Blockchain σ) : (resetPendingBlock E B tick b).2 = b ∨
    ∃ block, B.latestBlock b.storage = .ok block ∧
      (resetPendingBlock E B tick b).2 = { b with pendingBlock := newPendingBlock E tick block } := by
  unfold resetPendingBlock readStorage
  rw [bind_run,attempt_run]
  cases latest : B.latestBlock b.storage with
  | error e => exact .inl rfl
  | ok block => exact .inr ⟨block,rfl,rfl⟩

theorem resetPendingBlock_effect (tick : Tick) : HasEffect E M config B (resetPendingBlock E B tick) := by
  intro b
  rcases resetPendingBlock_run tick b with same | ⟨block,latest,done⟩
  · rw [same]
    exact .still (still_refl b)
  · rw [done]
    exact .reset tick block rfl latest rfl

/-- The requests to an emulator that use its store as it is. -/
inductive Request where
  | addTransaction (tx : TransactionBody)
  | sendTransaction (tick : Tick) (tx : TransactionBody)
  | executeNextTransaction
  | executeBlock
  | commitBlock (tick : Tick)
  | executeAndCommitBlock (tick : Tick)
  | resetPendingBlock (tick : Tick)
  | setClock (now : Time)
  | setAutoMine (on : Bool)

/-- The emulator after a request, also where the request fails. -/
def request (E : Encoding) (M : Machine) (config : Config) (B : Backend σ) : Request → Blockchain σ → Blockchain σ
  | .addTransaction tx, b => (Blockchain.addTransaction E M B tx b).2
  | .sendTransaction tick tx, b => (Blockchain.sendTransaction E M config B tick tx b).2
  | .executeNextTransaction, b => (Blockchain.executeNextTransaction E M B b).2
  | .executeBlock, b => (Blockchain.executeBlock E M B b).2
  | .commitBlock tick, b => (Blockchain.commitBlock E M config B tick b).2
  | .executeAndCommitBlock tick, b => (Blockchain.executeAndCommitBlock E M config B tick b).2
  | .resetPendingBlock tick, b => (Blockchain.resetPendingBlock E B tick b).2
  | .setClock now, b => (Blockchain.setClock now b).2
  | .setAutoMine on, b => (Blockchain.setAutoMine on b).2

/-- Every request has one of the effects. -/
theorem request_effect (r : Request) (b : Blockchain σ) : Effect E M config B b (request E M config B r b) := by
  cases r with
  | addTransaction tx => exact hasEffect_of_keeps (fun b => keeps_addTransaction b tx) b
  | sendTransaction tick tx => exact sendTransaction_effect tick tx b
  | executeNextTransaction => exact hasEffect_of_keeps keeps_executeNextTransaction b
  | executeBlock => exact hasEffect_of_keeps (fun b => keeps_executeBlock (keeps_executeNextTransaction b)) b
  | commitBlock tick => exact commitBlock_effect tick b
  | executeAndCommitBlock tick => exact executeAndCommitBlock_effect tick b
  | resetPendingBlock tick => exact resetPendingBlock_effect tick b
  | setClock now => exact .still ⟨rfl,rfl,rfl,rfl⟩
  | setAutoMine on => exact .still ⟨rfl,rfl,rfl,rfl⟩

end
end FlowEmulator.Blockchain
