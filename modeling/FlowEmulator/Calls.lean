import FlowEmulator.Requests
import FlowEmulator.Run

/-!
Requests as the calls they are made of. A request that adds, executes and commits
makes its calls one after the other and stops at the first error; it leaves the
emulator its calls leave. So conditions on a run can be stated for its calls, and
what every call keeps, every request keeps.
-/
namespace FlowEmulator.Blockchain
open FlowEmulator.Fallible FlowEmulator.Run

inductive Call where
  | addTransaction (tx : TransactionBody)
  | executeNextTransaction
  | commitBlock (tick : Tick)
  | resetPendingBlock (tick : Tick)
  | setClock (now : Time)
  | setAutoMine (on : Bool)

/-- The call drops the pending block. -/
def Call.resets : Call → Bool
  | .resetPendingBlock _ => true
  | _ => false

section
variable {σ : Type} (E : Encoding) (M : Machine) (config : Config) (B : Backend σ)

/-- The emulator after a call, also where the call fails. -/
def call : Call → Blockchain σ → Blockchain σ
  | .addTransaction tx, b => (addTransaction E M B tx b).2
  | .executeNextTransaction, b => (executeNextTransaction E M B b).2
  | .commitBlock tick, b => (commitBlock E M config B tick b).2
  | .resetPendingBlock tick, b => (resetPendingBlock E B tick b).2
  | .setClock now, b => (setClock now b).2
  | .setAutoMine on, b => (setAutoMine on b).2

/-- The calls that execute a number of transactions while there are some left. -/
def callsOfRemaining : Nat → Blockchain σ → List Call
  | 0, _ => []
  | fuel+1, b =>
    if b.pendingBlock.executionComplete || b.pendingBlock.empty then []
    else .executeNextTransaction :: match executeNextTransaction E M B b with
      | (.ok _,after) => callsOfRemaining fuel after
      | (.error _,_) => []

def callsOfExecuteBlock (b : Blockchain σ) : List Call :=
  if b.pendingBlock.executionComplete && !b.pendingBlock.empty then []
  else callsOfRemaining E M B (b.pendingBlock.size-b.pendingBlock.index) b

def callsOfExecuteAndCommitBlock (tick : Tick) (b : Blockchain σ) : List Call :=
  callsOfExecuteBlock E M B b ++ match executeBlock E M B b with
    | (.ok _,_) => [.commitBlock tick]
    | (.error _,_) => []

def callsOfSendTransaction (tick : Tick) (tx : TransactionBody) (b : Blockchain σ) : List Call :=
  .addTransaction tx :: match addTransaction E M B tx b with
    | (.ok _,after) => if after.autoMine then callsOfExecuteAndCommitBlock E M B tick after else []
    | (.error _,_) => []

/-- The calls a request makes, those after a failed one left out. -/
def callsOf : Request → Blockchain σ → List Call
  | .addTransaction tx, _ => [.addTransaction tx]
  | .sendTransaction tick tx, b => callsOfSendTransaction E M B tick tx b
  | .executeNextTransaction, _ => [.executeNextTransaction]
  | .executeBlock, b => callsOfExecuteBlock E M B b
  | .commitBlock tick, _ => [.commitBlock tick]
  | .executeAndCommitBlock tick, b => callsOfExecuteAndCommitBlock E M B tick b
  | .resetPendingBlock tick, _ => [.resetPendingBlock tick]
  | .setClock now, _ => [.setClock now]
  | .setAutoMine on, _ => [.setAutoMine on]

end

section
variable {σ : Type} {E : Encoding} {M : Machine} {config : Config} {B : Backend σ}

/-- Executing a block is executing its next transaction a number of times. -/
theorem callsOfExecuteBlock_next {c : Call} {b : Blockchain σ} (member : c ∈ callsOfExecuteBlock E M B b) :
    c = .executeNextTransaction := by
  have remaining (fuel : Nat) (b : Blockchain σ) (member : c ∈ callsOfRemaining E M B fuel b) : c = .executeNextTransaction := by
    induction fuel generalizing b with
    | zero => cases member
    | succ fuel ih =>
      unfold callsOfRemaining at member
      split at member
      · cases member
      · rcases List.mem_cons.mp member with rfl | later
        · rfl
        · split at later
          · exact ih _ later
          · cases later
  unfold callsOfExecuteBlock at member
  split at member
  · cases member
  · exact remaining _ b member

theorem callsOfExecuteAndCommitBlock_next {c : Call} {tick : Tick} {b : Blockchain σ}
    (member : c ∈ callsOfExecuteAndCommitBlock E M B tick b) : c = .executeNextTransaction ∨ c = .commitBlock tick := by
  rcases List.mem_append.mp member with executing | committing
  · exact .inl (callsOfExecuteBlock_next executing)
  · split at committing
    · exact .inr (List.mem_singleton.mp committing)
    · cases committing

theorem callsOfSendTransaction_next {c : Call} {tick : Tick} {tx : TransactionBody} {b : Blockchain σ}
    (member : c ∈ callsOfSendTransaction E M B tick tx b) :
    c = .addTransaction tx ∨ c = .executeNextTransaction ∨ c = .commitBlock tick := by
  rcases List.mem_cons.mp member with first | later
  · exact .inl first
  · split at later
    · split at later
      · exact .inr (callsOfExecuteAndCommitBlock_next later)
      · cases later
    · cases later

theorem executeRemaining_calls (fuel : Nat) (results : List TransactionResult) (b : Blockchain σ) :
    (executeRemaining E M B fuel results b).2 = play (call E M config B) (callsOfRemaining E M B fuel b) b := by
  induction fuel generalizing results b with
  | zero => rfl
  | succ fuel ih =>
    unfold executeRemaining callsOfRemaining
    rw [bind_ok (view_run _ b)]
    split
    · rfl
    · rcases run : executeNextTransaction E M B b with ⟨e | result,after⟩
      · have left : call E M config B .executeNextTransaction b = after := congrArg Prod.snd run
        rw [bind_error run,play_cons,left,play_nil]
      · have left : call E M config B .executeNextTransaction b = after := congrArg Prod.snd run
        rw [bind_ok run,play_cons,left]
        exact ih _ after

theorem executeBlock_calls (b : Blockchain σ) :
    (executeBlock E M B b).2 = play (call E M config B) (callsOfExecuteBlock E M B b) b := by
  unfold executeBlock callsOfExecuteBlock
  rw [bind_ok (view_run _ b)]
  split
  · rfl
  · exact executeRemaining_calls _ _ b

theorem executeAndCommitBlock_calls (tick : Tick) (b : Blockchain σ) : (executeAndCommitBlock E M config B tick b).2 =
    play (call E M config B) (callsOfExecuteAndCommitBlock E M B tick b) b := by
  have executed : (executeBlock E M B b).2 = play (call E M config B) _ b := executeBlock_calls b
  unfold executeAndCommitBlock callsOfExecuteAndCommitBlock
  rw [play_append,← executed]
  rcases run : executeBlock E M B b with ⟨e | results,middle⟩
  · rw [bind_error run]
    rfl
  · rw [bind_ok run]
    show _ = (commitBlock E M config B tick middle).2
    rcases commit : commitBlock E M config B tick middle with ⟨e | block,after⟩
    · rw [bind_error commit]
    · rw [bind_ok commit]
      rfl

theorem sendTransaction_calls (tick : Tick) (tx : TransactionBody) (b : Blockchain σ) :
    (sendTransaction E M config B tick tx b).2 =
      play (call E M config B) (callsOfSendTransaction E M B tick tx b) b := by
  unfold sendTransaction callsOfSendTransaction
  rcases run : addTransaction E M B tx b with ⟨e | _,middle⟩
  · have left : call E M config B (.addTransaction tx) b = middle := congrArg Prod.snd run
    rw [bind_error run,play_cons,left,play_nil]
  · have left : call E M config B (.addTransaction tx) b = middle := congrArg Prod.snd run
    rw [bind_ok run,bind_ok (view_run _ middle),play_cons,left]
    cases mining : middle.autoMine with
    | false =>
      dsimp only
      rw [mining]
      rfl
    | true =>
      dsimp only
      rw [if_pos rfl,mining,if_pos rfl,← executeAndCommitBlock_calls]
      rcases done : executeAndCommitBlock E M config B tick middle with ⟨e | result,after⟩
      · rw [bind_error done]
      · rw [bind_ok done]
        rfl

/-- A request leaves the emulator its calls leave. -/
theorem request_calls (r : Request) (b : Blockchain σ) :
    request E M config B r b = play (call E M config B) (callsOf E M B r b) b := by
  cases r with
  | sendTransaction tick tx => exact sendTransaction_calls tick tx b
  | executeBlock => exact executeBlock_calls b
  | executeAndCommitBlock tick => exact executeAndCommitBlock_calls tick b
  | addTransaction tx => rfl
  | executeNextTransaction => rfl
  | commitBlock tick => rfl
  | resetPendingBlock tick => rfl
  | setClock now => rfl
  | setAutoMine on => rfl

end
end FlowEmulator.Blockchain
