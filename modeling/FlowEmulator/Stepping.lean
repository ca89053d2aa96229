import FlowEmulator.LinkedChain
import FlowEmulator.Rounds

/-!
Executing a block at once and step by step. The emulator keeps the context of the
virtual machine from one call to the next. Executing the next transaction puts the
header of the pending block into it at each call; executing the block does so once
and makes all its runs in that context. The two agree, wherever a block is split,
and also where a run fails: what was returned before the failure, the error and
the pending block are the same.
-/
namespace FlowEmulator.Stepping
open FlowEmulator.Fallible FlowEmulator.Blockchain FlowEmulator.Rounds

/-- An emulator with the context it keeps for the virtual machine. The context has the settings for users. -/
structure Stepper (σ : Type) where
  emulator : Blockchain σ
  vmCtx : Context
  settings : vmCtx.kind = .user

/-- Put a header into the context that is kept. -/
def setFVMContextFromHeader {σ : Type} (header : Block) (x : Stepper σ) : Stepper σ :=
  { x with vmCtx := { x.vmCtx with header := header } }

/-- Compute on the emulator and leave the context. -/
def inEmulator {σ α : Type} (op : EmulatorM σ α) (x : Stepper σ) : Except EmulatorError α × Stepper σ :=
  ((op x.emulator).1,{ x with emulator := (op x.emulator).2 })

section
variable {σ : Type} (E : Encoding) (M : Machine) (B : Backend σ)

/-- Run a transaction in a context; the entropy is looked up when it is needed. -/
def runIn (ctx : Context) (tx : TransactionBody) (index : Nat) : EmulatorM σ (WriteSet × ProcedureOutput) := do
  let result ← view fun b => (M.on b.pendingBlock).run { ctx with entropy := b.latestEntropy } tx index (b.registers B)
  library result

/-- The step of the pending block in a context. -/
def executePendingIn (ctx : Context) (tx : TransactionBody) : EmulatorM σ ProcedureOutput := do
  let index ← view fun b => b.pendingBlock.index
  modifyPending fun p => { p with index := p.index+1 }
  let (writes,output) ← runIn M B ctx tx index
  modifyPending (PendingBlock.appendEvents output.events)
  mergeLedger M writes
  modifyPending fun p =>
    { p with transactionResults := p.transactionResults.insert (E.transactionID tx) ⟨output,index⟩ }
  pure output

/-- Execute the next transaction in a context. -/
def executeNextTransactionIn (ctx : Context) : EmulatorM σ TransactionResult := do
  let pending ← view Blockchain.pendingBlock
  if pending.executionComplete then fail (.pendingBlockTransactionsExhausted (pending.id E))
  else match pending.nextTransaction with
    | none => fail .nilTransaction
    | some tx => do
      let output ← executePendingIn E M B ctx tx
      if M.convertible output.events then pure ⟨E.transactionID tx,output⟩ else fail (.fatal "events")

/-- The context with the header of the pending block. -/
def withHeader (x : Stepper σ) : Stepper σ := setFVMContextFromHeader (x.emulator.pendingBlock.block E) x

def executeNextTransaction (x : Stepper σ) : Except EmulatorError TransactionResult × Stepper σ :=
  inEmulator (executeNextTransactionIn E M B (withHeader E x).vmCtx) (withHeader E x)

/-- There are transactions left to execute. -/
def unfinished (x : Stepper σ) : Bool :=
  !x.emulator.pendingBlock.executionComplete && !x.emulator.pendingBlock.empty

/-- The number of transactions that are left. -/
def remaining (x : Stepper σ) : Nat := x.emulator.pendingBlock.size-x.emulator.pendingBlock.index

/-- Execute what is left of the block in one context. The results so far are
    returned together with an error. -/
def executeBlock (x : Stepper σ) : Returned (Stepper σ) EmulatorError TransactionResult :=
  if x.emulator.pendingBlock.executionComplete && !x.emulator.pendingBlock.empty then
    ⟨[],some (.pendingBlockTransactionsExhausted (x.emulator.pendingBlock.id E)),withHeader E x⟩
  else loop unfinished (inEmulator (executeNextTransactionIn E M B (withHeader E x).vmCtx)) (remaining x) (withHeader E x)

end

section
variable {σ : Type} {E : Encoding} {M : Machine} {B : Backend σ} {x : Stepper σ}

/-- In the context of the pending block its step is the one the emulator makes. -/
theorem executePendingIn_eq {ctx : Context} {b : Blockchain σ} (settings : ctx.kind = .user)
    (header : ctx.header = b.pendingBlock.block E) (tx : TransactionBody) :
    executePendingIn E M B ctx tx b = executePending E M B tx b := by
  obtain ⟨kind,block,entropy⟩ := ctx
  subst settings header
  let moved : Blockchain σ := { b with pendingBlock := { b.pendingBlock with index := b.pendingBlock.index+1 } }
  have run : runIn M B ⟨.user,b.pendingBlock.block E,entropy⟩ tx b.pendingBlock.index moved =
      runTransaction E M B .user tx b.pendingBlock.index moved := rfl
  unfold executePendingIn executePending
  rw [bind_ok (view_run _ b),bind_ok (view_run _ b),bind_ok (modifyPending_run _ b),bind_ok (modifyPending_run _ b)]
  exact bind_left run _

/-- In the context of the pending block the next transaction is executed as the emulator executes it. -/
theorem executeNextTransactionIn_eq {ctx : Context} {b : Blockchain σ} (settings : ctx.kind = .user)
    (header : ctx.header = b.pendingBlock.block E) :
    executeNextTransactionIn E M B ctx b = Blockchain.executeNextTransaction E M B b := by
  unfold executeNextTransactionIn Blockchain.executeNextTransaction
  rw [bind_ok (view_run _ b),bind_ok (view_run _ b)]
  split
  · rfl
  · cases b.pendingBlock.nextTransaction with
    | none => rfl
    | some tx =>
      exact bind_left (executePendingIn_eq settings header tx) _

/-! ### The runs of a block -/

/-- The context has the header of the pending block, and a number of transactions are left. -/
structure Aligned (E : Encoding) (ctx : Context) (count : Nat) (x : Stepper σ) : Prop where
  context : x.vmCtx = ctx
  header : ctx.header = x.emulator.pendingBlock.block E
  left : remaining x = count

theorem withHeader_aligned (x : Stepper σ) : Aligned E (withHeader E x).vmCtx (remaining x) (withHeader E x) :=
  ⟨rfl,rfl,rfl⟩

/-- A header that is there already changes nothing. -/
theorem aligned_withHeader {ctx : Context} {count : Nat} (aligned : Aligned E ctx count x) : withHeader E x = x := by
  obtain ⟨emulator,⟨kind,header,entropy⟩,settings⟩ := x
  obtain ⟨rfl,same,_⟩ := aligned
  unfold withHeader setFVMContextFromHeader
  rw [← same]

theorem aligned_unfinished {ctx : Context} {count : Nat} (aligned : Aligned E ctx (count+1) x) : unfinished x = true := by
  have left := aligned.left
  unfold remaining PendingBlock.size at left
  unfold unfinished PendingBlock.executionComplete PendingBlock.empty PendingBlock.size
  simp only [Bool.and_eq_true,Bool.not_eq_true',decide_eq_false_iff_not]
  omega

/-- Executing the next transaction makes a run in the context. -/
theorem aligned_step {ctx : Context} {count : Nat} (aligned : Aligned E ctx count x) :
    executeNextTransaction E M B x = inEmulator (executeNextTransactionIn E M B ctx) x := by
  unfold executeNextTransaction
  rw [aligned_withHeader aligned,aligned.context]

theorem aligned_emulator {ctx : Context} {count : Nat} (aligned : Aligned E ctx count x) :
    executeNextTransactionIn E M B ctx x.emulator = Blockchain.executeNextTransaction E M B x.emulator := by
  refine executeNextTransactionIn_eq ?_ aligned.header
  rw [← aligned.context]
  exact x.settings

/-- A transaction that is executed leaves one less. -/
theorem aligned_next {ctx : Context} {count : Nat} (aligned : Aligned E ctx (count+1) x) {after : Stepper σ}
    {result : TransactionResult} (run : executeNextTransaction E M B x = (.ok result,after)) : Aligned E ctx count after := by
  have executes := executeNextTransaction_executes E M B x.emulator
  rw [aligned_step aligned] at run
  unfold inEmulator at run
  rw [aligned_emulator aligned] at run
  obtain ⟨context,header,left⟩ := aligned
  generalize Blockchain.executeNextTransaction E M B x.emulator = out at executes run
  cases executes with
  | executed tx incomplete next writes output ran merged =>
    obtain rfl : _ = after := congrArg Prod.snd run
    refine ⟨context,header,?_⟩
    show x.emulator.pendingBlock.size-(x.emulator.pendingBlock.index+1) = count
    unfold remaining at left
    omega
  | _ => cases run

/-- An attempt to execute a transaction when none is left. -/
theorem aligned_exhausted {ctx : Context} (aligned : Aligned E ctx 0 x) : executeNextTransaction E M B x =
    (.error (.pendingBlockTransactionsExhausted (x.emulator.pendingBlock.id E)),x) := by
  have complete : x.emulator.pendingBlock.executionComplete = true := decide_eq_true (Nat.sub_eq_zero_iff_le.mp aligned.left)
  rw [aligned_step aligned]
  unfold inEmulator executeNextTransactionIn
  rw [bind_ok (view_run _ _),if_pos complete]
  rfl

/-- The first call puts the header into the context, so it may as well be there. -/
theorem rounds_withHeader (count : Nat) (x : Stepper σ) :
    rounds (executeNextTransaction E M B) (count+1) (withHeader E x) = rounds (executeNextTransaction E M B) (count+1) x := by
  have same : executeNextTransaction E M B (withHeader E x) = executeNextTransaction E M B x := by
    unfold executeNextTransaction
    rw [aligned_withHeader (withHeader_aligned x)]
  unfold rounds
  rcases run : executeNextTransaction E M B x with ⟨e | result,after⟩
  · rw [loop_error rfl run,loop_error rfl (same.trans run)]
  · rw [loop_ok rfl run,loop_ok rfl (same.trans run)]

/-- The runs of a block in its context are calls that execute the next transaction. -/
theorem loop_rounds (x : Stepper σ) :
    loop unfinished (inEmulator (executeNextTransactionIn E M B (withHeader E x).vmCtx)) (remaining x) (withHeader E x) =
      rounds (executeNextTransaction E M B) (remaining x) (withHeader E x) := by
  refine loop_eq_rounds (fun n y aligned => ⟨aligned_unfinished aligned,?_⟩) (fun n y a t aligned run => aligned_next aligned run)
    (withHeader_aligned x)
  exact (aligned_step aligned).symm

/-- Executing a block makes as many rounds as there are transactions left. -/
theorem executeBlock_rounds (ready : (x.emulator.pendingBlock.executionComplete && !x.emulator.pendingBlock.empty) = false) :
    executeBlock E M B x = rounds (executeNextTransaction E M B) (remaining x) (withHeader E x) := by
  unfold executeBlock
  rw [if_neg (by rw [ready]; decide),loop_rounds]

theorem executeBlock_finished (finished : (x.emulator.pendingBlock.executionComplete && !x.emulator.pendingBlock.empty) = true) :
    executeBlock E M B x =
      ⟨[],some (.pendingBlockTransactionsExhausted (x.emulator.pendingBlock.id E)),withHeader E x⟩ := by
  unfold executeBlock
  rw [if_pos finished]

theorem executeBlock_aligned {ctx : Context} {count : Nat} (aligned : Aligned E ctx (count+1) x) :
    executeBlock E M B x = rounds (executeNextTransaction E M B) (count+1) x := by
  have incomplete := (Bool.and_eq_true_iff.mp (aligned_unfinished aligned)).1
  rw [Bool.not_eq_true'] at incomplete
  rw [executeBlock_rounds (by rw [incomplete]; rfl),aligned_withHeader aligned,aligned.left]

theorem aligned_rounds {ctx : Context} {front back : Nat} (start : Aligned E ctx (front+back) x)
    (succeeded : (rounds (executeNextTransaction E M B) front x).error = none) :
    Aligned E ctx back (rounds (executeNextTransaction E M B) front x).state :=
  rounds_keeps (fun _ _ _ _ aligned run => aligned_next aligned run) start succeeded

theorem aligned_finished {ctx : Context} (aligned : Aligned E ctx 0 x) : unfinished x = false := by
  have complete : x.emulator.pendingBlock.executionComplete = true := decide_eq_true (Nat.sub_eq_zero_iff_le.mp aligned.left)
  unfold unfinished
  rw [complete]
  rfl

/-- The loop over a block ends by itself: more rounds change nothing. -/
theorem executeBlock_bound (ready : (x.emulator.pendingBlock.executionComplete && !x.emulator.pendingBlock.empty) = false)
    (extra : Nat) : loop unfinished (inEmulator (executeNextTransactionIn E M B (withHeader E x).vmCtx)) (remaining x+extra)
      (withHeader E x) = executeBlock E M B x := by
  rw [loop_ended,loop_rounds,executeBlock_rounds ready]
  rw [loop_rounds]
  cases error : (rounds (executeNextTransaction E M B) (remaining x) (withHeader E x)).error with
  | some e => exact .inl (by rw [error]; rfl)
  | none => exact .inr (aligned_finished (aligned_rounds (withHeader_aligned x) error))

/-- After some transactions were executed one by one, what is left can be executed at once. -/
theorem rounds_then_executeBlock {count rest : Nat} (sum : remaining x = count+(rest+1)) :
    (rounds (executeNextTransaction E M B) count (withHeader E x)).andThen (executeBlock E M B) =
      rounds (executeNextTransaction E M B) (remaining x) (withHeader E x) := by
  have start : Aligned E (withHeader E x).vmCtx (count+(rest+1)) (withHeader E x) := sum ▸ withHeader_aligned x
  have split : rounds (executeNextTransaction E M B) (count+(rest+1)) (withHeader E x) = _ := loop_add count (rest+1) _
  rw [sum,split]
  exact andThen_congr fun succeeded => executeBlock_aligned (aligned_rounds start succeeded)

/-- One more call than there are transactions reports that there are none left, unless another error came before. -/
theorem rounds_exhausted (x : Stepper σ) : rounds (executeNextTransaction E M B) (remaining x+1) (withHeader E x) =
    { rounds (executeNextTransaction E M B) (remaining x) (withHeader E x) with
      error := some ((rounds (executeNextTransaction E M B) (remaining x) (withHeader E x)).error.getD
        (.pendingBlockTransactionsExhausted (x.emulator.pendingBlock.id E))) } := by
  have split : rounds (executeNextTransaction E M B) (remaining x+1) (withHeader E x) = _ := loop_add (remaining x) 1 _
  have last (succeeded : (rounds (executeNextTransaction E M B) (remaining x) (withHeader E x)).error = none) :
      Aligned E (withHeader E x).vmCtx 0 (rounds (executeNextTransaction E M B) (remaining x) (withHeader E x)).state :=
    aligned_rounds (withHeader_aligned x) succeeded
  rw [split]
  show (rounds (executeNextTransaction E M B) (remaining x) (withHeader E x)).andThen _ = _
  generalize rounds (executeNextTransaction E M B) (remaining x) (withHeader E x) = r at last ⊢
  obtain ⟨results,error,y⟩ := r
  cases error with
  | some e => rfl
  | none =>
    have aligned : Aligned E (withHeader E x).vmCtx 0 y := last rfl
    have same : y.emulator.pendingBlock.id E = x.emulator.pendingBlock.id E := congrArg E.blockID aligned.header.symm
    show Returned.mk (results ++ (loop _ _ 1 y).results) (loop _ _ 1 y).error (loop _ _ 1 y).state = _
    rw [loop_error rfl (aligned_exhausted aligned),List.append_nil,same]
    rfl

/-- Executing the block after some of its transactions were executed one by one
    gives what executing it at once gives. Executing transactions until an error
    is reported gives the same results and the same block; the error is the one
    of the block if there is one, and otherwise says that there are none left. -/
theorem executeBlock_eq_stepping (E : Encoding) (M : Machine) (B : Backend σ) (x : Stepper σ) :
    (∀ count, count ≤ remaining x → (x.emulator.pendingBlock.empty = false → count < remaining x) →
      (rounds (executeNextTransaction E M B) count x).andThen (executeBlock E M B) = executeBlock E M B x) ∧
    rounds (executeNextTransaction E M B) (remaining x+1) x = { executeBlock E M B x with
      error := some ((executeBlock E M B x).error.getD
        (.pendingBlockTransactionsExhausted (x.emulator.pendingBlock.id E))) } := by
  rw [← rounds_withHeader]
  cases ready : x.emulator.pendingBlock.executionComplete && !x.emulator.pendingBlock.empty with
  | false =>
    rw [executeBlock_rounds ready]
    refine ⟨fun count within inside => ?_,rounds_exhausted x⟩
    cases count with
    | zero => exact executeBlock_rounds ready
    | succ count =>
      have nonempty : x.emulator.pendingBlock.empty = false := by
        unfold remaining PendingBlock.size at within
        exact decide_eq_false (by omega)
      obtain ⟨rest,sum⟩ := Nat.exists_eq_add_of_lt (inside nonempty)
      rw [← rounds_withHeader]
      exact rounds_then_executeBlock sum
  | true =>
    -- nothing is left of a block that has transactions, so there is no place to split it
    obtain ⟨complete,nonempty⟩ := Bool.and_eq_true_iff.mp ready
    rw [Bool.not_eq_true'] at nonempty
    have none : remaining x = 0 := Nat.sub_eq_zero_of_le (of_decide_eq_true complete)
    refine ⟨fun count within inside => ?_,?_⟩
    · have few := inside nonempty
      omega
    · rw [executeBlock_finished ready,rounds_exhausted,none]
      rfl

section
open FlowEmulator.Samples

/-- An emulator whose pending block has two transactions. -/
def two : Stepper Sqlite.Store where
  emulator := ⟨Sqlite.fresh .inMemory,((newPendingBlock numberEncoding tick (block 0)).addTransaction numberEncoding
    (numbered 10)).addTransaction numberEncoding (numbered 11),zeroID,false⟩
  vmCtx := ⟨.user,block 0,zeroID⟩
  settings := rfl

theorem executeBlock_eq_stepping_two : 1 < remaining two ∧
    (rounds (executeNextTransaction numberEncoding machine (Sqlite.backend numberEncoding .earliest)) 1 two).andThen
      (executeBlock numberEncoding machine (Sqlite.backend numberEncoding .earliest)) =
    executeBlock numberEncoding machine (Sqlite.backend numberEncoding .earliest) two :=
  ⟨by decide,(executeBlock_eq_stepping _ _ _ two).1 1 (by decide) (fun _ => by decide)⟩

end

/-! ### The same as requests of the emulator -/

/-- What a loop over the emulator answers, after results that are there already. -/
def answer (earlier : List TransactionResult) (r : Returned (Stepper σ) EmulatorError TransactionResult) :
    Except EmulatorError (List TransactionResult) × Blockchain σ :=
  (match r.error with
    | none => .ok (earlier ++ r.results)
    | some e => .error e,r.state.emulator)

theorem answer_after (earlier : List TransactionResult) (a : TransactionResult)
    (r : Returned (Stepper σ) EmulatorError TransactionResult) : answer earlier (r.after a) = answer (earlier ++ [a]) r := by
  unfold answer Returned.after
  rw [List.append_assoc]
  rfl

theorem executeRemaining_answer {ctx : Context} {count : Nat} (aligned : Aligned E ctx count x)
    (earlier : List TransactionResult) : executeRemaining E M B count earlier x.emulator =
      answer earlier (rounds (executeNextTransaction E M B) count x) := by
  induction count generalizing x earlier with
  | zero =>
    show (Except.ok earlier,x.emulator) = (Except.ok (earlier ++ []),x.emulator)
    rw [List.append_nil]
  | succ count ih =>
    have unfinished := aligned_unfinished aligned
    have goesOn : (x.emulator.pendingBlock.executionComplete || x.emulator.pendingBlock.empty) = false := by
      rw [← Bool.not_eq_true',Bool.not_or]
      exact unfinished
    unfold executeRemaining rounds
    rw [bind_ok (view_run _ _),if_neg (by rw [goesOn]; decide)]
    have step := aligned_step (M := M) (B := B) aligned
    unfold inEmulator at step
    rw [aligned_emulator aligned] at step
    rcases run : Blockchain.executeNextTransaction E M B x.emulator with ⟨e | result,after⟩
    · rw [run] at step
      rw [bind_error run,loop_error rfl step]
      rfl
    · rw [run] at step
      rw [bind_ok run,loop_ok rfl step,answer_after]
      exact ih (aligned_next aligned step) _

/-- Without the results before an error this is how the emulator executes a block. -/
theorem executeBlock_answer (x : Stepper σ) :
    Blockchain.executeBlock E M B x.emulator = answer [] (executeBlock E M B x) := by
  unfold Blockchain.executeBlock
  rw [bind_ok (view_run _ _)]
  cases ready : x.emulator.pendingBlock.executionComplete && !x.emulator.pendingBlock.empty with
  | true =>
    rw [executeBlock_finished ready]
    rfl
  | false =>
    rw [executeBlock_rounds ready]
    exact executeRemaining_answer (withHeader_aligned x) []

end
end FlowEmulator.Stepping
