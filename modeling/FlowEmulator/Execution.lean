import FlowEmulator.Blockchain
import FlowEmulator.Overlay

/-!
The runs of the virtual machine in a block. Each transaction is run on the
ledger with the writes of the transactions before it over it, and leaves its
events and its writes in the pending block. `Trail` says so of a list of runs.
The operations that run transactions are described by the runs they record.
-/
namespace FlowEmulator
open FlowEmulator.Fallible

/-- A run of the virtual machine: what was run in which context, and what came of it. -/
structure Execution where
  context : Context
  tx : TransactionBody
  writes : WriteSet
  output : ProcedureOutput

/-- The registers with some writes over them. -/
def withWrites (writes : WriteSet) (base : Registers) : Registers := fun id =>
  match writes.lookup id with
  | some value => .ok value
  | none => base id

/-- The writes of some runs over earlier ones, each over those before it. -/
def accumulate (ledger : WriteSet) (runs : List Execution) : WriteSet :=
  runs.foldl (fun current run => run.writes ∪ current) ledger

/-- The events of some runs in order. -/
def emitted (runs : List Execution) : List Event := runs.flatMap fun run => run.output.events

/-- The transactions were run one after the other from an index on, each on the
    registers with the writes of those before it over them. -/
def Trail (M : Machine) (base : Registers) : Nat → WriteSet → List Execution → Prop
  | _, _, [] => True
  | index, ledger, run :: rest =>
    M.run run.context run.tx index (withWrites ledger base) = .ok (run.writes,run.output) ∧
      Trail M base (index+1) (run.writes ∪ ledger) rest

theorem accumulate_append (ledger : WriteSet) (front back : List Execution) :
    accumulate ledger (front ++ back) = accumulate (accumulate ledger front) back := List.foldl_append ..

theorem emitted_append (front back : List Execution) : emitted (front ++ back) = emitted front ++ emitted back :=
  List.flatMap_append ..

theorem emitted_singleton (run : Execution) : emitted [run] = run.output.events := List.flatMap_singleton ..

theorem trail_append {M : Machine} {base : Registers} {index : Nat} {ledger : WriteSet} {front back : List Execution} :
    Trail M base index ledger (front ++ back) ↔
      Trail M base index ledger front ∧ Trail M base (index+front.length) (accumulate ledger front) back := by
  induction front generalizing index ledger with
  | nil => simp [Trail,accumulate]
  | cons run rest ih =>
    have shift : index+1+rest.length = index+(run :: rest).length := by simp; omega
    simp only [List.cons_append,Trail,ih,shift,and_assoc]
    rfl

/-- The run at a place of a trail was given that place as its index. -/
theorem trail_getElem {M : Machine} {base : Registers} {index : Nat} {ledger : WriteSet} {runs : List Execution}
    (trail : Trail M base index ledger runs) {i : Nat} {run : Execution} (here : runs[i]? = some run) :
    M.run run.context run.tx (index+i) (withWrites (accumulate ledger (runs.take i)) base) = .ok (run.writes,run.output) := by
  induction runs generalizing index ledger i with
  | nil => cases here
  | cons first rest ih =>
    cases i with
    | zero => cases here; exact trail.1
    | succ i =>
      have later := ih trail.2 here
      rw [Nat.add_assoc,Nat.add_comm 1 i] at later
      exact later

/-- The block with the events and the writes of some runs. -/
def PendingBlock.record (runs : List Execution) (p : PendingBlock) : PendingBlock :=
  { p with events := p.events ++ emitted runs, ledgerState := accumulate p.ledgerState runs }

theorem PendingBlock.record_nil (p : PendingBlock) : p.record [] = p := by
  simp [record,emitted,accumulate]

theorem PendingBlock.record_append (front back : List Execution) (p : PendingBlock) :
    p.record (front ++ back) = (p.record front).record back := by
  simp only [record,emitted_append,accumulate_append,List.append_assoc]

/-- What a commit that fails leaves of a block: the runs are recorded in it, and its ledger may be finalized. -/
def PendingBlock.Left (p : PendingBlock) (runs : List Execution) (q : PendingBlock) : Prop :=
  q = p.record runs ∨ q = (p.record runs).finalize

theorem PendingBlock.Left.transactionIDs {p q : PendingBlock} {runs : List Execution} (left : p.Left runs q) :
    q.transactionIDs = p.transactionIDs := by
  rcases left with rfl | rfl <;> rfl

namespace Blockchain
variable {σ : Type} (E : Encoding) (M : Machine) (config : Config) (B : Backend σ)

/-- The registers under the pending block. -/
def base (b : Blockchain σ) : Registers := fun id => B.ledgerByHeight b.pendingBlock.ledgerHeight id b.storage

/-- The context of the transactions of the pending block. -/
def context (kind : ContextKind) (b : Blockchain σ) : Context := ⟨kind,b.pendingBlock.block E,b.latestEntropy⟩

/-- The emulator with runs recorded in the pending block. -/
def record (runs : List Execution) (b : Blockchain σ) : Blockchain σ :=
  { b with pendingBlock := b.pendingBlock.record runs }

/-- The emulator whose pending block was taken for a commit. -/
def finalize (b : Blockchain σ) : Blockchain σ := { b with pendingBlock := b.pendingBlock.finalize }

theorem record_nil (b : Blockchain σ) : b.record [] = b := by
  unfold record
  rw [PendingBlock.record_nil]

theorem record_append (front back : List Execution) (b : Blockchain σ) :
    b.record (front ++ back) = (b.record front).record back := by
  unfold record
  rw [PendingBlock.record_append]

theorem registers_eq (b : Blockchain σ) : b.registers B = withWrites b.pendingBlock.ledgerState (b.base B) := rfl

theorem record_base (runs : List Execution) (b : Blockchain σ) : (b.record runs).base B = b.base B := rfl

/-! ### One transaction -/

theorem modifyPending_run (f : PendingBlock → PendingBlock) (b : Blockchain σ) :
    modifyPending f b = (.ok (),{ b with pendingBlock := f b.pendingBlock }) := rfl

theorem finalize_run (b : Blockchain σ) : modifyPending PendingBlock.finalize b = (.ok (),b.finalize) := rfl

variable {M} in
/-- A ledger that is not finalized leaves the machine as it is. -/
theorem on_open {p : PendingBlock} (opened : p.finalized = false) : M.on p = M := by
  unfold Machine.on
  rw [opened]
  rfl

variable {M} in
theorem on_finalized {p : PendingBlock} (closed : p.finalized = true) (context : Context) (tx : TransactionBody) (index : Nat)
    (registers : Registers) : (M.on p).run context tx index registers = .error "cannot Get on a finalized state" := by
  show (if p.finalized = true then _ else _) = _
  rw [if_pos closed]

variable {M} in
/-- A run that does not fail is one of the machine, over a ledger that is not finalized. -/
theorem on_ok {p : PendingBlock} {context : Context} {tx : TransactionBody} {index : Nat} {registers : Registers}
    {result : WriteSet × ProcedureOutput} (ran : (M.on p).run context tx index registers = .ok result) :
    p.finalized = false ∧ M.run context tx index registers = .ok result := by
  cases finalized : p.finalized with
  | false =>
    rw [on_open finalized] at ran
    exact ⟨rfl,ran⟩
  | true =>
    rw [on_finalized finalized] at ran
    cases ran

variable {E M B} in
theorem runTransaction_error {kind : ContextKind} {tx : TransactionBody} {index : Nat} {b : Blockchain σ} {message : String}
    (fatal : (M.on b.pendingBlock).run (b.context E kind) tx index (b.registers B) = .error message) :
    runTransaction E M B kind tx index b = (.error (.fatal message),b) := by
  unfold runTransaction
  rw [bind_ok (view_run _ b)]
  show library ((M.on b.pendingBlock).run (b.context E kind) tx index (b.registers B)) b = _
  rw [fatal]
  rfl

variable {E M B} in
theorem runTransaction_ok {kind : ContextKind} {tx : TransactionBody} {index : Nat} {b : Blockchain σ} {writes : WriteSet}
    {output : ProcedureOutput}
    (ran : (M.on b.pendingBlock).run (b.context E kind) tx index (b.registers B) = .ok (writes,output)) :
    runTransaction E M B kind tx index b = (.ok (writes,output),b) := by
  unfold runTransaction
  rw [bind_ok (view_run _ b)]
  show library ((M.on b.pendingBlock).run (b.context E kind) tx index (b.registers B)) b = _
  rw [ran]
  rfl

/-- The events and the writes of a run. The events stay where the writes cannot be merged. -/
def recordRun (writes : WriteSet) (output : ProcedureOutput) : EmulatorM σ Unit := do
  modifyPending (PendingBlock.appendEvents output.events)
  mergeLedger M writes

variable {M} in
theorem recordRun_ok {writes : WriteSet} {b : Blockchain σ} (merged : M.mergeable b.pendingBlock.ledgerState writes = true)
    (output : ProcedureOutput) (context : Context) (tx : TransactionBody) :
    recordRun M writes output b = (.ok (),b.record [⟨context,tx,writes,output⟩]) := by
  unfold recordRun mergeLedger
  rw [bind_ok (modifyPending_run _ b),bind_ok (view_run _ _)]
  show (if M.mergeable b.pendingBlock.ledgerState writes = true then _ else _ : EmulatorM σ Unit) _ = _
  rw [if_pos merged]
  show (Except.ok (),_) = _
  unfold record PendingBlock.record
  rw [emitted_singleton]
  rfl

variable {M} in
theorem recordRun_error {writes : WriteSet} {b : Blockchain σ}
    (fatal : M.mergeable b.pendingBlock.ledgerState writes = false) (output : ProcedureOutput) (context : Context)
    (tx : TransactionBody) :
    recordRun M writes output b = (.error (.fatal "merge"),b.record [⟨context,tx,∅,output⟩]) := by
  unfold recordRun mergeLedger
  rw [bind_ok (modifyPending_run _ b),bind_ok (view_run _ _)]
  show (if M.mergeable b.pendingBlock.ledgerState writes = true then _ else _ : EmulatorM σ Unit) _ = _
  rw [if_neg (by rw [fatal]; decide)]
  show (Except.error _,_) = _
  unfold record PendingBlock.record accumulate
  rw [emitted_singleton,List.foldl_cons,List.foldl_nil,AList.empty_union]
  rfl

/-! ### The transactions of users -/

/-- The block after a run of its next transaction. -/
def afterRun (run : Execution) (p : PendingBlock) : PendingBlock :=
  { p.record [run] with
    index := p.index+1
    transactionResults := p.transactionResults.insert (E.transactionID run.tx) ⟨run.output,p.index⟩ }

/-- What an attempt to execute the next transaction answers and leaves. -/
inductive Executes (b : Blockchain σ) : Except EmulatorError TransactionResult × Blockchain σ → Prop where
  | exhausted (complete : b.pendingBlock.executionComplete = true) :
      Executes b (.error (.pendingBlockTransactionsExhausted (b.pendingBlock.id E)),b)
  | missing (incomplete : b.pendingBlock.executionComplete = false) (next : b.pendingBlock.nextTransaction = none) :
      Executes b (.error .nilTransaction,b)
  | failed (tx : TransactionBody) (incomplete : b.pendingBlock.executionComplete = false)
      (next : b.pendingBlock.nextTransaction = some tx) (message : String)
      (fatal : (M.on b.pendingBlock).run (b.context E .user) tx b.pendingBlock.index (b.registers B) = .error message) :
      Executes b (.error (.fatal message),
        { b with pendingBlock := { b.pendingBlock with index := b.pendingBlock.index+1 } })
  | unmerged (tx : TransactionBody) (incomplete : b.pendingBlock.executionComplete = false)
      (next : b.pendingBlock.nextTransaction = some tx) (writes : WriteSet) (output : ProcedureOutput)
      (ran : M.run (b.context E .user) tx b.pendingBlock.index (b.registers B) = .ok (writes,output))
      (fatal : M.mergeable b.pendingBlock.ledgerState writes = false) (opened : b.pendingBlock.finalized = false) :
      Executes b (.error (.fatal "merge"),{ b with pendingBlock :=
        { b.pendingBlock.record [⟨b.context E .user,tx,∅,output⟩] with index := b.pendingBlock.index+1 } })
  | executed (tx : TransactionBody) (incomplete : b.pendingBlock.executionComplete = false)
      (next : b.pendingBlock.nextTransaction = some tx) (writes : WriteSet) (output : ProcedureOutput)
      (ran : M.run (b.context E .user) tx b.pendingBlock.index (b.registers B) = .ok (writes,output))
      (merged : M.mergeable b.pendingBlock.ledgerState writes = true) (opened : b.pendingBlock.finalized = false) :
      Executes b (if M.convertible output.events then .ok ⟨E.transactionID tx,output⟩ else .error (.fatal "events"),
        { b with pendingBlock := afterRun E ⟨b.context E .user,tx,writes,output⟩ b.pendingBlock })

theorem executeNextTransaction_executes (b : Blockchain σ) :
    Executes E M B b (executeNextTransaction E M B b) := by
  unfold executeNextTransaction
  rw [bind_ok (view_run _ b)]
  by_cases complete : b.pendingBlock.executionComplete = true
  · rw [if_pos complete]
    exact .exhausted complete
  have incomplete : b.pendingBlock.executionComplete = false := by simpa using complete
  rw [if_neg complete]
  cases next : b.pendingBlock.nextTransaction with
  | none => exact .missing incomplete next
  | some tx =>
    let moved : Blockchain σ := { b with pendingBlock := { b.pendingBlock with index := b.pendingBlock.index+1 } }
    have start : executePending E M B tx b = (runTransaction E M B .user tx b.pendingBlock.index >>= fun result =>
        recordRun M result.1 result.2 >>= fun _ =>
        modifyPending (fun p => { p with
          transactionResults := p.transactionResults.insert (E.transactionID tx) ⟨result.2,b.pendingBlock.index⟩ }) >>=
        fun _ => pure result.2) moved := by
      unfold executePending recordRun
      simp only [bind_assoc]
      rfl
    dsimp only
    rw [bind_run,start]
    cases ran : (M.on b.pendingBlock).run (b.context E .user) tx b.pendingBlock.index (b.registers B) with
    | error message =>
      have stopped : runTransaction E M B .user tx b.pendingBlock.index moved = (.error (.fatal message),moved) :=
        runTransaction_error ran
      rw [bind_error stopped]
      exact .failed tx incomplete next message ran
    | ok result =>
      obtain ⟨writes,output⟩ := result
      have went : runTransaction E M B .user tx b.pendingBlock.index moved = (.ok (writes,output),moved) :=
        runTransaction_ok ran
      rw [bind_ok went]
      cases merged : M.mergeable b.pendingBlock.ledgerState writes with
      | false =>
        have stopped : recordRun M writes output moved = _ := recordRun_error (b := moved) merged output (b.context E .user) tx
        rw [bind_error stopped]
        exact .unmerged tx incomplete next writes output (on_ok ran).2 merged (on_ok ran).1
      | true =>
        have done : recordRun M writes output moved = _ := recordRun_ok (b := moved) merged output (b.context E .user) tx
        have outcome := Executes.executed tx incomplete next writes output (on_ok ran).2 merged (on_ok ran).1
        rw [bind_ok done]
        show Executes E M B b
          ((if M.convertible output.events then pure ⟨E.transactionID tx,output⟩ else fail (.fatal "events") :
            EmulatorM σ TransactionResult) _)
        cases convertible : M.convertible output.events with
        | true => rw [convertible] at outcome; exact outcome
        | false => rw [convertible] at outcome; exact outcome

end Blockchain
end FlowEmulator
