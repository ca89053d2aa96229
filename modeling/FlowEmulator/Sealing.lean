import FlowEmulator.Execution

/-!
The system transactions of a commit, seen from the virtual machine alone. An
`Attempt` goes from the writes of a block so far to the runs that are recorded
and to how it ends; the emulator's own functions do what the attempts say
(`sealBlock_attempt`). What is sealed is then determined by the runs.
-/
namespace FlowEmulator
open FlowEmulator.Fallible FlowEmulator.Text

/-- A part of a commit: from the writes so far to the runs that are recorded and to how it ends. -/
def Attempt (α : Type) : Type := WriteSet → List Execution × Except EmulatorError α

namespace Attempt
variable {α β : Type}

instance : Monad Attempt where
  pure a := fun _ => ([],.ok a)
  bind x f := fun ledger => match x ledger with
    | (runs,.ok a) => (runs ++ (f a (accumulate ledger runs)).1,(f a (accumulate ledger runs)).2)
    | (runs,.error e) => (runs,.error e)

theorem pure_run (a : α) (ledger : WriteSet) : (pure a : Attempt α) ledger = ([],.ok a) := rfl

theorem bind_ok {x : Attempt α} {ledger : WriteSet} {runs : List Execution} {a : α} (first : x ledger = (runs,.ok a))
    (f : α → Attempt β) :
    (x >>= f) ledger = (runs ++ (f a (accumulate ledger runs)).1,(f a (accumulate ledger runs)).2) := by
  show (match x ledger with
    | (runs,.ok a) => (runs ++ (f a (accumulate ledger runs)).1,(f a (accumulate ledger runs)).2)
    | (runs,.error e) => (runs,.error e)) = _
  rw [first]

theorem bind_error {x : Attempt α} {ledger : WriteSet} {runs : List Execution} {e : EmulatorError}
    (first : x ledger = (runs,.error e)) (f : α → Attempt β) : (x >>= f) ledger = (runs,.error e) := by
  show (match x ledger with
    | (runs,.ok a) => (runs ++ (f a (accumulate ledger runs)).1,(f a (accumulate ledger runs)).2)
    | (runs,.error e) => (runs,.error e)) = _
  rw [first]

theorem bind_eq_ok {x : Attempt α} {f : α → Attempt β} {ledger : WriteSet} {runs : List Execution} {b : β}
    (done : (x >>= f) ledger = (runs,.ok b)) : ∃ a front back,
      x ledger = (front,.ok a) ∧ f a (accumulate ledger front) = (back,.ok b) ∧ runs = front ++ back := by
  rcases first : x ledger with ⟨front,e | a⟩
  · rw [bind_error first] at done
    cases done
  · rw [bind_ok first] at done
    rcases second : f a (accumulate ledger front) with ⟨back,result⟩
    rw [second] at done
    cases done
    exact ⟨a,front,back,rfl,second,rfl⟩

/-- Take a result of a library. -/
def library : Except String α → Attempt α
  | .ok a => pure a
  | .error message => fun _ => ([],.error (.fatal message))

/-- Run a transaction, and record the run when its output is accepted. Of a run
    whose writes cannot be merged the events are recorded. -/
def run (M : Machine) (base : Registers) (context : Context) (tx : TransactionBody) (index : Nat)
    (accept : ProcedureOutput → Except EmulatorError Unit) : Attempt Execution := fun ledger =>
  match M.run context tx index (withWrites ledger base) with
  | .error message => ([],.error (.fatal message))
  | .ok (writes,output) => match accept output with
    | .error e => ([],.error e)
    | .ok _ =>
      if M.mergeable ledger writes then ([⟨context,tx,writes,output⟩],.ok ⟨context,tx,writes,output⟩)
      else ([⟨context,tx,∅,output⟩],.error (.fatal "merge"))

/-- A run that ends well is the one that is recorded. -/
theorem run_ok {M : Machine} {base : Registers} {context : Context} {tx : TransactionBody} {index : Nat}
    {accept : ProcedureOutput → Except EmulatorError Unit} {ledger : WriteSet} {runs : List Execution} {run : Execution}
    (done : Attempt.run M base context tx index accept ledger = (runs,.ok run)) :
    runs = [run] ∧ run.context = context ∧ run.tx = tx ∧
      M.run context tx index (withWrites ledger base) = .ok (run.writes,run.output) ∧ accept run.output = .ok () := by
  unfold Attempt.run at done
  rcases ran : M.run context tx index (withWrites ledger base) with message | ⟨writes,output⟩
  · rw [ran] at done
    cases done
  rw [ran] at done
  dsimp only at done
  rcases accepted : accept output with e | _
  · rw [accepted] at done
    cases done
  rw [accepted] at done
  dsimp only at done
  split at done
  · cases done
    exact ⟨rfl,rfl,rfl,rfl,accepted⟩
  · cases done

/-- The attempt fails only with errors of a kind. -/
def Raises (P : EmulatorError → Prop) (x : Attempt α) : Prop := ∀ ledger e, (x ledger).2 = .error e → P e

variable {P : EmulatorError → Prop}

theorem raises_pure (a : α) : Raises P (pure a : Attempt α) := fun _ _ failed => nomatch failed

theorem raises_bind {x : Attempt α} {f : α → Attempt β} (first : Raises P x) (second : ∀ a, Raises P (f a)) :
    Raises P (x >>= f) := by
  intro ledger e failed
  have start := first ledger
  rcases run : x ledger with ⟨runs,other | a⟩
  · rw [bind_error run] at failed
    rw [run] at start
    cases failed
    exact start e rfl
  · rw [bind_ok run] at failed
    exact second a _ e failed

theorem raises_library (fatal : ∀ message, P (.fatal message)) (result : Except String α) : Raises P (library result) := by
  intro ledger e failed
  cases result with
  | ok a => cases failed
  | error message => cases failed; exact fatal message

theorem raises_run (fatal : ∀ message, P (.fatal message)) {accept : ProcedureOutput → Except EmulatorError Unit}
    (rejected : ∀ output e, accept output = .error e → P e) (M : Machine) (base : Registers) (context : Context)
    (tx : TransactionBody) (index : Nat) : Raises P (run M base context tx index accept) := by
  intro ledger e failed
  unfold run at failed
  rcases ran : M.run context tx index (withWrites ledger base) with message | ⟨writes,output⟩
  · rw [ran] at failed
    cases failed
    exact fatal message
  rw [ran] at failed
  dsimp only at failed
  rcases accepted : accept output with other | _
  · rw [accepted] at failed
    cases failed
    exact rejected output _ accepted
  · rw [accepted] at failed
    dsimp only at failed
    split at failed
    · cases failed
    · cases failed
      exact fatal _

end Attempt

/-- What the system transactions leave for a commit, with one more of them run. -/
def SystemRun.add (E : Encoding) (ids : List Bytes) (idx index : Nat) (run : Execution) (system : SystemRun) : SystemRun where
  bodies := system.bodies.insert (E.transactionID run.tx) run.tx
  results := system.results.insert (E.transactionID run.tx) ⟨run.output,index⟩
  scheduled := ((ids[idx]?).bind scanUint64).elim system.scheduled fun id => system.scheduled.insert id (E.transactionID run.tx)
  ordered := system.ordered ++ [E.transactionID run.tx]

section
variable (E : Encoding) (M : Machine) (config : Config) (contexts : ContextKind → Context) (base : Registers)

/-- Results of callbacks are accepted when their events can be converted. -/
def acceptCallback (output : ProcedureOutput) : Except EmulatorError Unit :=
  if M.convertible output.events then .ok () else .error (.fatal "events")

/-- The system chunk transaction must succeed. -/
def acceptChunk (output : ProcedureOutput) : Except EmulatorError Unit :=
  match output.err with
  | some e => .error (.systemChunk e)
  | none => .ok ()

def attemptCallbacks (start : Nat) (ids : List Bytes) : Nat → List TransactionBody → SystemRun → Attempt SystemRun
  | _, [], system => pure system
  | idx, tx :: rest, system => do
    let run ← Attempt.run M base (contexts .scheduled) tx (start+1+idx) (acceptCallback M)
    attemptCallbacks start ids (idx+1) rest (system.add E ids idx (start+1+idx) run)

/-- What the process transaction leaves. -/
def SystemRun.first (index : Nat) (run : Execution) : SystemRun where
  bodies := AList.singleton (E.transactionID run.tx) run.tx
  results := AList.singleton (E.transactionID run.tx) ⟨run.output,index⟩
  scheduled := ∅
  ordered := [E.transactionID run.tx]

def attemptScheduled (start : Nat) : Attempt SystemRun := do
  let processTx ← Attempt.library (M.processCallbacksTransaction config.getChainID)
  let process ← Attempt.run M base (contexts .scheduled) processTx start (fun _ => .ok ())
  let executeTxs ← Attempt.library (M.executeCallbacksTransactions config.getChainID process.output.events)
  let ids ← Attempt.library (parseScheduledIDs M config.getChainID process.output.events)
  attemptCallbacks E M contexts base start ids 0 executeTxs (SystemRun.first E start process)

def attemptChunk (index : Nat) : Attempt Execution := do
  let tx ← Attempt.library (M.systemChunkTransaction config.getChainID)
  Attempt.run M base (contexts .systemChunk) tx index acceptChunk

/-- The scheduled transactions of the block, when they are enabled. -/
def attemptScheduledRun (start : Nat) : Attempt SystemRun :=
  if config.scheduledTransactionsEnabled then attemptScheduled E M config contexts base start else pure ⟨∅,∅,∅,[]⟩

/-- The system transactions of a block with a number of transactions of users. -/
def attemptSystem (count : Nat) : Attempt (SystemRun × Execution) := do
  let system ← attemptScheduledRun E M config contexts base count
  let chunk ← attemptChunk M config contexts base (count+system.ordered.length)
  pure (system,chunk)

end

section
variable {E : Encoding} {M : Machine} {config : Config} {contexts : ContextKind → Context} {base : Registers}

/-- System transactions fail with errors of the libraries or of the system chunk transaction. -/
theorem attemptSystem_raises {P : EmulatorError → Prop} (fatal : ∀ message, P (.fatal message))
    (chunk : ∀ e, P (.systemChunk e)) (count : Nat) :
    Attempt.Raises P (attemptSystem E M config contexts base count) := by
  have callback (output : ProcedureOutput) (e : EmulatorError) (rejected : acceptCallback M output = .error e) : P e := by
    unfold acceptCallback at rejected
    split at rejected
    · cases rejected
    · cases rejected
      exact fatal _
  have last (output : ProcedureOutput) (e : EmulatorError) (rejected : acceptChunk output = .error e) : P e := by
    unfold acceptChunk at rejected
    split at rejected
    · cases rejected
      exact chunk _
    · cases rejected
  have callbacks (start : Nat) (ids : List Bytes) (idx : Nat) (txs : List TransactionBody) (system : SystemRun) :
      Attempt.Raises P (attemptCallbacks E M contexts base start ids idx txs system) := by
    induction txs generalizing idx system with
    | nil => exact Attempt.raises_pure system
    | cons tx rest ih => exact Attempt.raises_bind (Attempt.raises_run fatal callback _ _ _ _ _) (fun run => ih _ _)
  have scheduled : Attempt.Raises P (attemptScheduledRun E M config contexts base count) := by
    unfold attemptScheduledRun
    split
    · refine Attempt.raises_bind (Attempt.raises_library fatal _) (fun processTx => ?_)
      refine Attempt.raises_bind (Attempt.raises_run fatal (fun _ _ rejected => by cases rejected) _ _ _ _ _) (fun process => ?_)
      refine Attempt.raises_bind (Attempt.raises_library fatal _) (fun executeTxs => ?_)
      exact Attempt.raises_bind (Attempt.raises_library fatal _) (fun ids => callbacks _ _ _ _ _)
    · exact Attempt.raises_pure _
  refine Attempt.raises_bind scheduled (fun system => ?_)
  refine Attempt.raises_bind ?_ (fun chunk => Attempt.raises_pure _)
  exact Attempt.raises_bind (Attempt.raises_library fatal _) (fun tx => Attempt.raises_run fatal last _ _ _ _ _)

end

/-! ### Attempts that end well -/

/-- The results of some runs under the identifiers of their transactions, with their indexes from a first one on. -/
def indexed (E : Encoding) : Nat → List Execution → List (Identifier × IndexedTransactionResult)
  | _, [] => []
  | index, run :: rest => (E.transactionID run.tx,⟨run.output,index⟩) :: indexed E (index+1) rest

/-- The identifiers of the transactions of some runs. -/
def transactionIDs (E : Encoding) (runs : List Execution) : List Identifier := runs.map fun run => E.transactionID run.tx

/-- The transactions of some runs under their identifiers. -/
def bodiesOf (E : Encoding) (runs : List Execution) : List (Identifier × TransactionBody) :=
  runs.map fun run => (E.transactionID run.tx,run.tx)

theorem indexed_append (E : Encoding) (index : Nat) (front back : List Execution) :
    indexed E index (front ++ back) = indexed E index front ++ indexed E (index+front.length) back := by
  induction front generalizing index with
  | nil => rfl
  | cons run rest ih =>
    have shift : index+1+rest.length = index+(run :: rest).length := by simp; omega
    rw [List.cons_append,indexed,ih,shift]
    rfl

theorem indexed_keys (E : Encoding) (index : Nat) (runs : List Execution) :
    (indexed E index runs).map Prod.fst = transactionIDs E runs := by
  induction runs generalizing index with
  | nil => rfl
  | cons run rest ih => rw [indexed,List.map_cons,ih]; rfl

theorem indexed_length (E : Encoding) (index : Nat) (runs : List Execution) : (indexed E index runs).length = runs.length := by
  induction runs generalizing index with
  | nil => rfl
  | cons run rest ih => rw [indexed,List.length_cons,ih]; rfl

/-- The entries are those of the runs at their places. -/
theorem mem_indexed {E : Encoding} {index : Nat} {runs : List Execution} {entry : Identifier × IndexedTransactionResult} :
    entry ∈ indexed E index runs ↔
      ∃ i run, runs[i]? = some run ∧ entry = (E.transactionID run.tx,⟨run.output,index+i⟩) := by
  induction runs generalizing index with
  | nil => simp [indexed]
  | cons first rest ih =>
    rw [indexed,List.mem_cons,ih]
    constructor
    · rintro (rfl | ⟨i,run,here,rfl⟩)
      · exact ⟨0,first,rfl,rfl⟩
      · exact ⟨i+1,run,here,by rw [Nat.add_assoc,Nat.add_comm 1 i]⟩
    · rintro ⟨i,run,here,rfl⟩
      cases i with
      | zero => cases here; exact .inl rfl
      | succ i => exact .inr ⟨i,run,here,by rw [Nat.add_assoc,Nat.add_comm 1 i]⟩

/-- The pairs of a list whose first part can be read as a number, with that number. -/
def scanned (pairs : List (Bytes × Identifier)) : List (Nat × Identifier) :=
  pairs.filterMap fun pair => (scanUint64 pair.1).map fun id => (id,pair.2)

/-- The scheduled transactions of a block: the process transaction and the
    callbacks its events ask for, of which those with a number are indexed by it. -/
def ScheduledOrder (E : Encoding) (M : Machine) (config : Config) (runs : List Execution)
    (scheduled : GoMap Nat Identifier) : Prop :=
  if config.scheduledTransactionsEnabled then
    ∃ process callbacks ids, runs = process :: callbacks ∧
      M.processCallbacksTransaction config.getChainID = .ok process.tx ∧
      M.executeCallbacksTransactions config.getChainID process.output.events = .ok (callbacks.map Execution.tx) ∧
      parseScheduledIDs M config.getChainID process.output.events = .ok ids ∧
      scheduled = collect ∅ (scanned (ids.zip (transactionIDs E callbacks)))
  else runs = [] ∧ scheduled = ∅

/-- The system transactions of a block were run after a number of transactions of users. -/
structure SystemRuns (E : Encoding) (M : Machine) (config : Config) (base : Registers) (start : Nat) (ledger : WriteSet)
    (before : List Execution) (system : SystemRun) (chunk : Execution) : Prop where
  trail : Trail M base start ledger (before ++ [chunk])
  scheduled : ScheduledOrder E M config before system.scheduled
  chunkTx : M.systemChunkTransaction config.getChainID = .ok chunk.tx
  bodies : system.bodies = collect ∅ (bodiesOf E before)
  results : system.results = collect ∅ (indexed E start before)
  ordered : system.ordered = transactionIDs E before

theorem Attempt.library_ok {α : Type} {result : Except String α} {ledger : WriteSet} {runs : List Execution} {a : α}
    (done : Attempt.library result ledger = (runs,.ok a)) : runs = [] ∧ result = .ok a := by
  cases result with
  | error message => cases done
  | ok value => cases done; exact ⟨rfl,rfl⟩

section
variable {E : Encoding} {M : Machine} {config : Config} {contexts : ContextKind → Context} {base : Registers}

theorem attemptCallbacks_ok {start : Nat} {ids : List Bytes} {idx : Nat} {txs : List TransactionBody} {system after : SystemRun}
    {ledger : WriteSet} {runs : List Execution}
    (done : attemptCallbacks E M contexts base start ids idx txs system ledger = (runs,.ok after)) :
    runs.map Execution.tx = txs ∧ Trail M base (start+1+idx) ledger runs ∧
      after.bodies = collect system.bodies (bodiesOf E runs) ∧
      after.results = collect system.results (indexed E (start+1+idx) runs) ∧
      after.scheduled = collect system.scheduled (scanned ((ids.drop idx).zip (transactionIDs E runs))) ∧
      after.ordered = system.ordered ++ transactionIDs E runs := by
  induction txs generalizing idx system ledger runs with
  | nil =>
    cases done
    refine ⟨rfl,trivial,rfl,rfl,?_,?_⟩
    · simp [transactionIDs,collect,scanned]
    · simp [transactionIDs]
  | cons tx rest ih =>
    obtain ⟨run,front,back,first,second,rfl⟩ := Attempt.bind_eq_ok done
    obtain ⟨rfl,context,rfl,ran,_⟩ := Attempt.run_ok first
    obtain ⟨txs,trail,bodies,results,scheduled,ordered⟩ := ih second
    refine ⟨by rw [← txs]; rfl,⟨by rw [context]; exact ran,trail⟩,bodies,results,?_,?_⟩
    · rw [scheduled]
      show collect (((ids[idx]?).bind scanUint64).elim _ _) _ = _
      cases here : ids[idx]? with
      | none =>
        have past := List.getElem?_eq_none_iff.mp here
        rw [List.drop_eq_nil_of_le past,List.drop_eq_nil_of_le (by omega)]
        rfl
      | some id =>
        obtain ⟨inside,rfl⟩ := List.getElem?_eq_some_iff.mp here
        have whole : scanned ((ids.drop idx).zip (transactionIDs E (run :: back))) =
            ((scanUint64 ids[idx]).map fun id => (id,E.transactionID run.tx)).toList ++
              scanned ((ids.drop (idx+1)).zip (transactionIDs E back)) := by
          rw [List.drop_eq_getElem_cons inside]
          show List.filterMap _ (_ :: _) = _
          rw [List.filterMap_cons]
          cases scanUint64 ids[idx] <;> rfl
        show _ = collect _ (scanned ((ids.drop idx).zip (transactionIDs E (run :: back))))
        rw [whole]
        show collect ((scanUint64 ids[idx]).elim _ _) _ = _
        cases scanUint64 ids[idx] <;> rfl
    · rw [ordered]
      simp [SystemRun.add,transactionIDs]

theorem attemptScheduledRun_ok {start : Nat} {ledger : WriteSet} {runs : List Execution} {system : SystemRun}
    (done : attemptScheduledRun E M config contexts base start ledger = (runs,.ok system)) :
    Trail M base start ledger runs ∧ ScheduledOrder E M config runs system.scheduled ∧
      system.bodies = collect ∅ (bodiesOf E runs) ∧ system.results = collect ∅ (indexed E start runs) ∧
      system.ordered = transactionIDs E runs := by
  unfold attemptScheduledRun at done
  unfold ScheduledOrder
  split at done
  · next enabled =>
    rw [if_pos enabled]
    obtain ⟨processTx,_,_,first,afterTx,rfl⟩ := Attempt.bind_eq_ok done
    obtain ⟨rfl,built⟩ := Attempt.library_ok first
    obtain ⟨process,_,_,second,afterProcess,rfl⟩ := Attempt.bind_eq_ok afterTx
    obtain ⟨rfl,context,rfl,ran,_⟩ := Attempt.run_ok second
    obtain ⟨executeTxs,_,_,third,afterAsked,rfl⟩ := Attempt.bind_eq_ok afterProcess
    obtain ⟨rfl,asked⟩ := Attempt.library_ok third
    obtain ⟨ids,_,callbacks,fourth,afterParsed,rfl⟩ := Attempt.bind_eq_ok afterAsked
    obtain ⟨rfl,parsed⟩ := Attempt.library_ok fourth
    obtain ⟨rfl,trail,bodies,results,scheduled,ordered⟩ := attemptCallbacks_ok afterParsed
    exact ⟨⟨by rw [context]; exact ran,trail⟩,⟨process,callbacks,ids,rfl,built,asked,parsed,scheduled⟩,bodies,results,ordered⟩
  · next disabled =>
    rw [if_neg disabled]
    cases done
    exact ⟨trivial,⟨rfl,rfl⟩,rfl,rfl,rfl⟩

/-- System transactions that end well were run one after the other. -/
theorem attemptSystem_ok {count : Nat} {ledger : WriteSet} {runs : List Execution} {system : SystemRun} {chunk : Execution}
    (done : attemptSystem E M config contexts base count ledger = (runs,.ok (system,chunk))) :
    ∃ before, runs = before ++ [chunk] ∧ SystemRuns E M config base count ledger before system chunk := by
  obtain ⟨_,before,_,first,afterScheduled,rfl⟩ := Attempt.bind_eq_ok done
  obtain ⟨_,last,_,second,afterChunk,rfl⟩ := Attempt.bind_eq_ok afterScheduled
  cases afterChunk
  obtain ⟨trail,scheduled,bodies,results,ordered⟩ := attemptScheduledRun_ok first
  obtain ⟨tx,_,_,third,afterTx,rfl⟩ := Attempt.bind_eq_ok second
  obtain ⟨rfl,built⟩ := Attempt.library_ok third
  obtain ⟨rfl,context,rfl,ran,_⟩ := Attempt.run_ok afterTx
  refine ⟨before,rfl,trail_append.mpr ⟨trail,?_,trivial⟩,scheduled,built,bodies,results,ordered⟩
  have position : system.ordered.length = before.length := by rw [ordered]; simp [transactionIDs]
  rw [context,← position]
  exact ran

end

namespace Blockchain
section
variable {σ α β : Type} (E : Encoding) (M : Machine) (config : Config) (B : Backend σ)

/-- On a ledger that is not finalized the computation does what an attempt says: it ends as the attempt does, and
    records its runs. -/
def Performs (x : EmulatorM σ α) (y : (ContextKind → Context) → Registers → Attempt α) : Prop :=
  ∀ b, b.pendingBlock.finalized = false → x b = ((y (b.context E) (b.base B) b.pendingBlock.ledgerState).2,
    b.record (y (b.context E) (b.base B) b.pendingBlock.ledgerState).1)

variable {E B}

theorem performs_pure (a : α) : Performs E B (pure a : EmulatorM σ α) fun _ _ => pure a := by
  intro b _
  show (Except.ok a,b) = (Except.ok a,b.record [])
  rw [record_nil]

theorem performs_library (result : Except String α) :
    Performs E B (library result : EmulatorM σ α) fun _ _ => Attempt.library result := by
  intro b opened
  cases result with
  | ok a => exact performs_pure (E := E) (B := B) a b opened
  | error message =>
    show (Except.error (EmulatorError.fatal message),b) = (Except.error (EmulatorError.fatal message),b.record [])
    rw [record_nil]

theorem performs_bind {x : EmulatorM σ α} {y : (ContextKind → Context) → Registers → Attempt α}
    {f : α → EmulatorM σ β} {g : α → (ContextKind → Context) → Registers → Attempt β} (first : Performs E B x y)
    (second : ∀ a, Performs E B (f a) (g a)) :
    Performs E B (x >>= f) fun contexts base => y contexts base >>= fun a => g a contexts base := by
  intro b opened
  have start := first b opened
  rcases attempt : y (b.context E) (b.base B) b.pendingBlock.ledgerState with ⟨runs,e | a⟩
  · rw [attempt] at start
    dsimp only
    rw [Fallible.bind_error start,Attempt.bind_error attempt]
  · rw [attempt] at start
    dsimp only
    rw [Fallible.bind_ok start,Attempt.bind_ok attempt,second a (b.record runs) opened,record_append]
    rfl

variable (E B)

/-- Run a transaction, and record the run when its output is accepted. -/
def performRun (kind : ContextKind) (tx : TransactionBody) (index : Nat)
    (accept : ProcedureOutput → Except EmulatorError Unit) : EmulatorM σ Execution := do
  let context ← view (context E kind)
  let (writes,output) ← runTransaction E M B kind tx index
  match accept output with
  | .error e => fail e
  | .ok _ => do
    recordRun M writes output
    pure ⟨context,tx,writes,output⟩

variable {E M B config}

theorem performs_run (kind : ContextKind) (tx : TransactionBody) (index : Nat)
    (accept : ProcedureOutput → Except EmulatorError Unit) :
    Performs E B (performRun E M B kind tx index accept) fun contexts base =>
      Attempt.run M base (contexts kind) tx index accept := by
  intro b opened
  have same := on_open (M := M) opened
  unfold performRun Attempt.run
  dsimp only
  rw [bind_ok (view_run _ b),← registers_eq]
  rcases ran : M.run (b.context E kind) tx index (b.registers B) with message | ⟨writes,output⟩
  · rw [bind_error (runTransaction_error (same.symm ▸ ran))]
    dsimp only
    rw [record_nil]
  rw [bind_ok (runTransaction_ok (same.symm ▸ ran))]
  dsimp only
  rcases accept output with e | _
  · dsimp only
    rw [record_nil]
    rfl
  dsimp only
  by_cases merged : M.mergeable b.pendingBlock.ledgerState writes = true
  · rw [bind_ok (recordRun_ok merged output (b.context E kind) tx),if_pos merged]
    rfl
  · have fatal : M.mergeable b.pendingBlock.ledgerState writes = false := by simpa using merged
    rw [bind_error (recordRun_error fatal output (b.context E kind) tx),if_neg merged]

theorem performs_executeCallbacks (start : Nat) (ids : List Bytes) (idx : Nat) (txs : List TransactionBody)
    (system : SystemRun) :
    Performs E B (executeCallbacks E M B start ids idx txs system) fun contexts base =>
      attemptCallbacks E M contexts base start ids idx txs system := by
  induction txs generalizing idx system with
  | nil => exact performs_pure system
  | cons tx rest ih =>
    have step : executeCallbacks E M B start ids idx (tx :: rest) system =
        performRun E M B .scheduled tx (start+1+idx) (acceptCallback M) >>= fun run =>
          executeCallbacks E M B start ids (idx+1) rest (system.add E ids idx (start+1+idx) run) := by
      funext b
      unfold performRun
      rw [bind_assoc,bind_ok (view_run _ b),bind_assoc,executeCallbacks]
      refine congrArg (fun next => (runTransaction E M B .scheduled tx (start+1+idx) >>= next) b) (funext fun result => ?_)
      by_cases convertible : M.convertible result.2.events = true
      · simp [acceptCallback,convertible,recordRun,SystemRun.add]
      · simp [acceptCallback,convertible]
    rw [step]
    exact performs_bind (performs_run .scheduled tx (start+1+idx) (acceptCallback M)) (fun run => ih _ _)

variable (E M config B) in
theorem performs_executeScheduledTransactions (b : Blockchain σ) (opened : b.pendingBlock.finalized = false) :
    executeScheduledTransactions E M config B b =
      ((attemptScheduled E M config (b.context E) (b.base B) b.pendingBlock.transactions.entries.length
          b.pendingBlock.ledgerState).2,
        b.record (attemptScheduled E M config (b.context E) (b.base B) b.pendingBlock.transactions.entries.length
          b.pendingBlock.ledgerState).1) := by
  let start := b.pendingBlock.transactions.entries.length
  have parts : executeScheduledTransactions E M config B b =
      (library (M.processCallbacksTransaction config.getChainID) >>= fun processTx =>
        performRun E M B .scheduled processTx start (fun _ => .ok ()) >>= fun process =>
        library (M.executeCallbacksTransactions config.getChainID process.output.events) >>= fun executeTxs =>
        library (parseScheduledIDs M config.getChainID process.output.events) >>= fun ids =>
        executeCallbacks E M B start ids 0 executeTxs (SystemRun.first E start process)) b := by
    unfold executeScheduledTransactions
    rw [bind_ok (view_run _ b)]
    refine congrArg (fun next => (library (M.processCallbacksTransaction config.getChainID) >>= next) b)
      (funext fun processTx => ?_)
    unfold performRun
    funext c
    rw [bind_assoc,bind_ok (view_run _ c),bind_assoc]
    refine congrArg (fun next => (runTransaction E M B .scheduled processTx start >>= next) c) (funext fun result => ?_)
    simp [recordRun,SystemRun.first,start]
  rw [parts]
  exact performs_bind (performs_library _) (fun processTx => performs_bind (performs_run _ _ _ _) (fun process =>
    performs_bind (performs_library _) (fun executeTxs => performs_bind (performs_library _) (fun ids =>
      performs_executeCallbacks _ _ _ _ _)))) b opened

theorem performs_executeSystemChunkTransaction (index : Nat) :
    Performs E B (executeSystemChunkTransaction E M config B index) fun contexts base =>
      attemptChunk M config contexts base index >>= fun run => pure (run.tx,⟨run.output,index⟩) := by
  have parts : executeSystemChunkTransaction E M config B index =
      (library (M.systemChunkTransaction config.getChainID) >>= fun tx =>
        performRun E M B .systemChunk tx index acceptChunk) >>= fun run => pure (run.tx,⟨run.output,index⟩) := by
    unfold executeSystemChunkTransaction
    rw [bind_assoc]
    refine congrArg (library (M.systemChunkTransaction config.getChainID) >>= ·) (funext fun tx => ?_)
    unfold performRun
    funext c
    rw [bind_assoc,bind_ok (view_run _ c),bind_assoc]
    refine congrArg (fun next => (runTransaction E M B .systemChunk tx index >>= next) c) (funext fun result => ?_)
    cases failed : result.2.err with
    | none => simp [acceptChunk,failed,recordRun]
    | some e => simp only [acceptChunk,failed,fail_bind]
  rw [parts]
  exact performs_bind (performs_bind (performs_library _) (fun tx => performs_run _ _ _ _)) (fun run => performs_pure _)

/-- What a commit of a pending block receives after its system transactions. -/
def sealedContents (E : Encoding) (p : PendingBlock) (runs : List Execution) (system : SystemRun) (chunk : Execution) :
    BlockContents where
  block := p.block E
  collections := p.collections
  transactions := p.transactions
  transactionResults := convertToSealedResults p.transactionResults (p.id E) p.height
    ((p.collections.head?.map E.collectionID).getD zeroID)
  systemTransactions := system.ordered ++ [E.transactionID chunk.tx]
  systemTransactionBodies := system.bodies.insert (E.transactionID chunk.tx) chunk.tx
  systemTransactionResults := (convertToSealedResults system.results (p.id E) p.height zeroID).insert
    (E.transactionID chunk.tx) (toStorableResult chunk.output (p.id E) p.height zeroID)
  executionSnapshot := (p.record runs).ledgerState
  events := (p.record runs).events
  scheduledTransactionIDs := system.scheduled

/-- Why a transaction cannot be run on a finalized ledger: it cannot be made, or its run fails. -/
def closedError : Except String TransactionBody → EmulatorError
  | .error message => .fatal message
  | .ok _ => .fatal "cannot Get on a finalized state"

variable (M config) in
/-- The transaction that a commit runs first. -/
def firstSystemTransaction : Except String TransactionBody :=
  if config.scheduledTransactionsEnabled then M.processCallbacksTransaction config.getChainID
  else M.systemChunkTransaction config.getChainID

variable (E M config B) in
/-- The system transactions of the pending block as the virtual machine sees them. On a finalized ledger none is run. -/
def attempted (b : Blockchain σ) : List Execution × Except EmulatorError (SystemRun × Execution) :=
  if b.pendingBlock.finalized then ([],.error (closedError (firstSystemTransaction M config)))
  else attemptSystem E M config (b.context E) (b.base B) b.pendingBlock.transactions.entries.length b.pendingBlock.ledgerState

theorem attempted_open {b : Blockchain σ} (opened : b.pendingBlock.finalized = false) : attempted E M config B b =
    attemptSystem E M config (b.context E) (b.base B) b.pendingBlock.transactions.entries.length
      b.pendingBlock.ledgerState := by
  rw [attempted,opened]
  rfl

theorem attempted_finalized {b : Blockchain σ} (closed : b.pendingBlock.finalized = true) :
    attempted E M config B b = ([],.error (closedError (firstSystemTransaction M config))) := by
  rw [attempted,closed]
  rfl

/-- A block whose ledger is finalized cannot be sealed. -/
theorem sealBlock_finalized {b : Blockchain σ} (closed : b.pendingBlock.finalized = true) :
    sealBlock E M config B b = (.error (closedError (firstSystemTransaction M config)),b) := by
  have stopped (kind : ContextKind) (tx : TransactionBody) (index : Nat) : runTransaction E M B kind tx index b =
      (.error (.fatal "cannot Get on a finalized state"),b) := runTransaction_error (on_finalized closed _ _ _ _)
  have scheduled : executeScheduledTransactions E M config B b =
      (.error (closedError (M.processCallbacksTransaction config.getChainID)),b) := by
    unfold executeScheduledTransactions
    rw [bind_ok (view_run _ b)]
    cases M.processCallbacksTransaction config.getChainID with
    | error message => rfl
    | ok tx => exact bind_error (stopped _ _ _) _
  have chunk (index : Nat) : executeSystemChunkTransaction E M config B index b =
      (.error (closedError (M.systemChunkTransaction config.getChainID)),b) := by
    unfold executeSystemChunkTransaction
    cases M.systemChunkTransaction config.getChainID with
    | error message => rfl
    | ok tx => exact bind_error (stopped _ _ _) _
  unfold sealBlock scheduledRun firstSystemTransaction
  rw [bind_ok (view_run _ b)]
  cases config.scheduledTransactionsEnabled with
  | true => exact bind_error scheduled _
  | false => exact bind_error (chunk _) _

variable (E M config B) in
/-- Sealing records the runs of the system transactions, and seals what they left when they end well. -/
theorem sealBlock_attempt (b : Blockchain σ) : sealBlock E M config B b =
    ((attempted E M config B b).2.map fun ended =>
      sealedContents E b.pendingBlock (attempted E M config B b).1 ended.1 ended.2,
      b.record (attempted E M config B b).1) := by
  cases opened : b.pendingBlock.finalized with
  | true =>
    rw [sealBlock_finalized opened,attempted_finalized opened,record_nil]
    rfl
  | false =>
  let start := b.pendingBlock.transactions.entries.length
  have scheduled : scheduledRun E M config B b =
      ((attemptScheduledRun E M config (b.context E) (b.base B) start b.pendingBlock.ledgerState).2,
        b.record (attemptScheduledRun E M config (b.context E) (b.base B) start b.pendingBlock.ledgerState).1) := by
    unfold scheduledRun attemptScheduledRun
    split
    · exact performs_executeScheduledTransactions E M config B b opened
    · exact performs_pure (E := E) (B := B) _ b opened
  have whole : attempted E M config B b =
      (attemptScheduledRun E M config (b.context E) (b.base B) start >>= fun system =>
        attemptChunk M config (b.context E) (b.base B) (start+system.ordered.length) >>= fun chunk =>
          pure (system,chunk)) b.pendingBlock.ledgerState := attempted_open opened
  unfold sealBlock
  rw [bind_ok (view_run _ b),whole]
  rcases first : attemptScheduledRun E M config (b.context E) (b.base B) start b.pendingBlock.ledgerState with
    ⟨runs,e | system⟩
  · rw [first] at scheduled
    rw [bind_error scheduled,Attempt.bind_error first]
    rfl
  rw [first] at scheduled
  rw [bind_ok scheduled,Attempt.bind_ok first]
  have chunkRun : executeSystemChunkTransaction E M config B (start+system.ordered.length) (b.record runs) = _ :=
    performs_executeSystemChunkTransaction (E := E) (B := B) (M := M) (start+system.ordered.length) (b.record runs) opened
  dsimp only at chunkRun ⊢
  rcases second : attemptChunk M config (b.context E) (b.base B) (start+system.ordered.length)
      (accumulate b.pendingBlock.ledgerState runs) with ⟨last,e | chunk⟩
  · have stopped : (attemptChunk M config ((b.record runs).context E) ((b.record runs).base B)
        (start+system.ordered.length)) (b.record runs).pendingBlock.ledgerState = (last,.error e) := second
    rw [Attempt.bind_error stopped] at chunkRun
    rw [bind_error chunkRun,Attempt.bind_error second,record_append]
    rfl
  · have went : (attemptChunk M config ((b.record runs).context E) ((b.record runs).base B)
        (start+system.ordered.length)) (b.record runs).pendingBlock.ledgerState = (last,.ok chunk) := second
    rw [Attempt.bind_ok went] at chunkRun
    rw [bind_ok chunkRun,Attempt.bind_ok second]
    simp only [Attempt.pure_run,List.append_nil,record_append,sealedContents,PendingBlock.record_append]
    rfl

end

/-! ### What is sealed -/

theorem convert_length (results : GoMap Identifier IndexedTransactionResult) (blockID : Identifier) (height : Nat)
    (collectionID : Identifier) :
    (convertToSealedResults results blockID height collectionID).entries.length = results.entries.length :=
  List.length_map ..

theorem convert_keys (results : GoMap Identifier IndexedTransactionResult) (blockID : Identifier) (height : Nat)
    (collectionID : Identifier) :
    (convertToSealedResults results blockID height collectionID).keys = results.keys := by
  simp [convertToSealedResults,AList.keys,List.keys]

theorem convert_lookup (results : GoMap Identifier IndexedTransactionResult) (blockID : Identifier) (height : Nat)
    (collectionID id : Identifier) : (convertToSealedResults results blockID height collectionID).lookup id =
      (results.lookup id).map fun result => toStorableResult result.output blockID height collectionID := by
  cases found : results.lookup id with
  | none =>
    have absent := AList.lookup_eq_none.mp found
    rw [AList.mem_keys,← convert_keys results blockID height collectionID,← AList.mem_keys] at absent
    exact AList.lookup_eq_none.mpr absent
  | some result =>
    exact AList.mem_lookup_iff.mpr (List.mem_map.mpr ⟨⟨id,result⟩,AList.mem_lookup_iff.mp found,rfl⟩)

theorem convert_insert (results : GoMap Identifier IndexedTransactionResult) (blockID : Identifier) (height : Nat)
    (collectionID id : Identifier) (result : IndexedTransactionResult) :
    convertToSealedResults (results.insert id result) blockID height collectionID =
      (convertToSealedResults results blockID height collectionID).insert id
        (toStorableResult result.output blockID height collectionID) := by
  apply AList.ext
  simp only [convertToSealedResults,AList.entries_insert,List.kerase,List.map_cons,List.eraseP_map]
  rfl

/-- The system transactions of a block in order: the scheduled ones, then the system chunk. -/
def SystemOrder (E : Encoding) (M : Machine) (config : Config) (runs : List Execution)
    (scheduled : GoMap Nat Identifier) : Prop :=
  ∃ before chunk, runs = before ++ [chunk] ∧ ScheduledOrder E M config before scheduled ∧
    M.systemChunkTransaction config.getChainID = .ok chunk.tx

/-- The contents of a block are those of a pending block after the runs of the system transactions. -/
structure Sealed (E : Encoding) (M : Machine) (config : Config) (base : Registers) (p : PendingBlock)
    (runs : List Execution) (c : BlockContents) : Prop where
  trail : Trail M base p.transactions.entries.length p.ledgerState runs
  order : SystemOrder E M config runs c.scheduledTransactionIDs
  block : c.block = p.block E
  collections : c.collections = p.collections
  transactions : c.transactions = p.transactions
  transactionResults : c.transactionResults = convertToSealedResults p.transactionResults (p.id E) p.height
    ((p.collections.head?.map E.collectionID).getD zeroID)
  systemTransactions : c.systemTransactions = transactionIDs E runs
  systemTransactionBodies : c.systemTransactionBodies = collect ∅ (bodiesOf E runs)
  systemTransactionResults : c.systemTransactionResults = convertToSealedResults
    (collect ∅ (indexed E p.transactions.entries.length runs)) (p.id E) p.height zeroID
  executionSnapshot : c.executionSnapshot = accumulate p.ledgerState runs
  events : c.events = p.events ++ emitted runs

section
variable {σ : Type} {E : Encoding} {M : Machine} {config : Config} {B : Backend σ}

/-- System transactions that end well were run on a ledger that is not finalized. -/
theorem attempted_ok_open {b : Blockchain σ} {ended : SystemRun × Execution}
    (ok : (attempted E M config B b).2 = .ok ended) : b.pendingBlock.finalized = false := by
  cases closed : b.pendingBlock.finalized with
  | false => rfl
  | true =>
    rw [attempted_finalized closed] at ok
    cases ok

theorem sealed_attempted {b : Blockchain σ} {system : SystemRun} {chunk : Execution}
    (ended : (attempted E M config B b).2 = .ok (system,chunk)) :
    Sealed E M config (b.base B) b.pendingBlock (attempted E M config B b).1
      (sealedContents E b.pendingBlock (attempted E M config B b).1 system chunk) := by
  have opened := attempted_ok_open ended
  rcases whole : attempted E M config B b with ⟨runs,result⟩
  rw [whole] at ended
  dsimp only at ended ⊢
  subst ended
  obtain ⟨before,rfl,system⟩ := attemptSystem_ok ((attempted_open opened).symm.trans whole)
  refine ⟨system.trail,⟨before,chunk,rfl,system.scheduled,system.chunkTx⟩,rfl,rfl,rfl,rfl,?_,?_,?_,rfl,rfl⟩
  · show _ ++ [_] = _
    rw [system.ordered]
    simp [transactionIDs]
  · show AList.insert _ _ _ = _
    rw [system.bodies,bodiesOf,bodiesOf,List.map_append,collect_append]
    rfl
  · show AList.insert _ _ _ = _
    rw [system.results,indexed_append,collect_append]
    exact (convert_insert _ _ _ _ (E.transactionID chunk.tx) ⟨chunk.output,_⟩).symm

/-- There are as many system transactions as results exactly when their identifiers are distinct. -/
theorem sealed_systemCount {base : Registers} {p : PendingBlock} {runs : List Execution} {c : BlockContents}
    (sealed : Sealed E M config base p runs c) :
    c.systemTransactions.length = c.systemTransactionResults.entries.length ↔ (transactionIDs E runs).Nodup := by
  have count := length_collect ∅ (indexed E p.transactions.entries.length runs)
  rw [indexed_keys,indexed_length] at count
  rw [sealed.systemTransactions,sealed.systemTransactionResults,convert_length,transactionIDs,List.length_map]
  constructor
  · intro same
    exact (count.mp (by rw [← same]; exact (Nat.zero_add _).symm)).1
  · intro distinct
    rw [count.mpr ⟨distinct,fun key _ => AList.notMem_empty key⟩]
    exact (Nat.zero_add _).symm

/-- The body of a system transaction is recorded when their identifiers are distinct. -/
theorem sealed_systemBody {base : Registers} {p : PendingBlock} {runs : List Execution} {c : BlockContents}
    (sealed : Sealed E M config base p runs c) (distinct : (transactionIDs E runs).Nodup) {run : Execution} (here : run ∈ runs) :
    c.systemTransactionBodies.lookup (E.transactionID run.tx) = some run.tx := by
  have keys : (bodiesOf E runs).map Prod.fst = transactionIDs E runs := by simp [bodiesOf,transactionIDs]
  rw [sealed.systemTransactionBodies]
  exact lookup_collect (by rw [keys]; exact distinct) (List.mem_map.mpr ⟨run,here,rfl⟩)

/-- The result of a system transaction is recorded when their identifiers are distinct. -/
theorem sealed_systemResult {base : Registers} {p : PendingBlock} {runs : List Execution} {c : BlockContents}
    (sealed : Sealed E M config base p runs c) (distinct : (transactionIDs E runs).Nodup) {run : Execution} (here : run ∈ runs) :
    c.systemTransactionResults.lookup (E.transactionID run.tx) =
      some (toStorableResult run.output (E.blockID c.block) c.block.height zeroID) := by
  obtain ⟨i,place⟩ := List.mem_iff_getElem?.mp here
  rw [sealed.systemTransactionResults,convert_lookup,lookup_collect (by rw [indexed_keys]; exact distinct)
    (mem_indexed.mpr ⟨i,run,place,rfl⟩),sealed.block]
  rfl

/-- What an attempt to commit the pending block answers and leaves. -/
inductive Commits (E : Encoding) (M : Machine) (config : Config) (B : Backend σ) (tick : Tick) (b : Blockchain σ) :
    Except EmulatorError Block × Blockchain σ → Prop where
  | refused (waiting : b.pendingBlock.index < b.pendingBlock.size) :
      Commits E M config B tick b (.error (if b.pendingBlock.index = 0
        then .pendingBlockCommitBeforeExecution (b.pendingBlock.id E) else .pendingBlockMidExecution (b.pendingBlock.id E)),b)
  | unsealed (ready : b.pendingBlock.size ≤ b.pendingBlock.index) (e : EmulatorError)
      (failed : (attempted E M config B b).2 = .error e) :
      Commits E M config B tick b (.error e,b.record (attempted E M config B b).1)
  | unsaved (ready : b.pendingBlock.size ≤ b.pendingBlock.index) (c : BlockContents)
      (sealed : Sealed E M config (b.base B) b.pendingBlock (attempted E M config B b).1 c) (e : StoreError) (storage : σ)
      (run : B.saveBlock E (static E M config) c b.storage = (.error e,storage)) (opened : b.pendingBlock.finalized = false) :
      Commits E M config B tick b (.error (.storage e),{ (b.record (attempted E M config B b).1).finalize with
        storage := storage })
  | committed (ready : b.pendingBlock.size ≤ b.pendingBlock.index) (c : BlockContents)
      (made : (sealBlock E M config B b).1 = .ok c)
      (sealed : Sealed E M config (b.base B) b.pendingBlock (attempted E M config B b).1 c) (storage : σ)
      (run : B.saveBlock E (static E M config) c b.storage = (.ok (),storage)) (opened : b.pendingBlock.finalized = false) :
      Commits E M config B tick b (.ok c.block,{ b with
        storage := storage
        pendingBlock := newPendingBlock E tick c.block
        latestEntropy := E.blockID c.block })

theorem commitBlock_commits (tick : Tick) (b : Blockchain σ) :
    Commits E M config B tick b (commitBlock E M config B tick b) := by
  have started : b.pendingBlock.executionStarted = decide (0 < b.pendingBlock.index) := rfl
  have complete : b.pendingBlock.executionComplete = decide (b.pendingBlock.size ≤ b.pendingBlock.index) := rfl
  have empty : b.pendingBlock.empty = decide (b.pendingBlock.size = 0) := rfl
  unfold commitBlock
  rw [bind_ok (view_run _ b),started,complete,empty]
  by_cases waiting : b.pendingBlock.index < b.pendingBlock.size
  · have refused : Commits E M config B tick b _ := .refused waiting
    by_cases first : b.pendingBlock.index = 0
    · rw [if_pos first] at refused
      rw [if_pos (by simp; omega)]
      exact refused
    · rw [if_neg first] at refused
      rw [if_neg (by simp; omega),if_pos (by simp; omega)]
      exact refused
  have ready : b.pendingBlock.size ≤ b.pendingBlock.index := by omega
  rw [if_neg (by simp; omega),if_neg (by simp; omega)]
  have sealedRun := sealBlock_attempt E M config B b
  rcases ended : (attempted E M config B b).2 with e | ⟨system,chunk⟩
  · rw [ended] at sealedRun
    rw [bind_error sealedRun]
    exact .unsealed ready e ended
  · rw [ended] at sealedRun
    have sealed := sealed_attempted ended
    rw [bind_ok sealedRun,bind_ok (finalize_run _)]
    rcases run : B.saveBlock E (static E M config)
      (sealedContents E b.pendingBlock (attempted E M config B b).1 system chunk) b.storage with ⟨e | _,storage⟩
    · rw [bind_error (inStorage_error (b := (b.record (attempted E M config B b).1).finalize) run)]
      exact .unsaved ready _ sealed e storage run (attempted_ok_open ended)
    · rw [bind_ok (inStorage_ok (b := (b.record (attempted E M config B b).1).finalize) run)]
      exact .committed ready _ (congrArg Prod.fst sealedRun) sealed storage run (attempted_ok_open ended)

end
end Blockchain
end FlowEmulator
