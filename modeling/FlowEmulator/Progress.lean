import FlowEmulator.Sealing

/-!
The pending block while it is filled and executed. Its transactions are listed
once each (`Listed`). What it holds beyond them is determined by the runs so far
(`Intact`), unless a run failed in a way that left no result: such a block has
fewer results than it has executed transactions (`Broken`), and stays so. The
results alone are determined by the runs (`Tallied`) also where a commit has
failed and left its events and writes.
-/
namespace FlowEmulator
open FlowEmulator.Fallible

/-- Each transaction of the block is listed once and has its body. -/
structure Listed (E : Encoding) (p : PendingBlock) : Prop where
  distinct : p.transactionIDs.Nodup
  keys : ∀ id, id ∈ p.transactions ↔ id ∈ p.transactionIDs
  bodies : ∀ id tx, p.transactions.lookup id = some tx → E.transactionID tx = id
  bound : p.index ≤ p.size

/-- The block holds the results, the events and the writes of the runs of its first transactions. -/
structure Intact (E : Encoding) (M : Machine) (base : Registers) (p : PendingBlock) (runs : List Execution) : Prop where
  ids : transactionIDs E runs = p.transactionIDs.take p.index
  bodies : ∀ run ∈ runs, p.transactions.lookup (E.transactionID run.tx) = some run.tx
  results : p.transactionResults = collect ∅ (indexed E 0 runs)
  events : p.events = emitted runs
  ledger : p.ledgerState = accumulate ∅ runs
  trail : Trail M base 0 ∅ runs

/-- The block holds the results of the runs of its first transactions, whatever its events and writes are. -/
structure Tallied (E : Encoding) (p : PendingBlock) (runs : List Execution) : Prop where
  ids : transactionIDs E runs = p.transactionIDs.take p.index
  results : p.transactionResults = collect ∅ (indexed E 0 runs)

/-- Some transaction was executed and has no result. -/
def Broken (p : PendingBlock) : Prop := p.transactionResults.entries.length < p.index

section
variable {E : Encoding} {M : Machine} {base : Registers} {p : PendingBlock} {runs : List Execution}

theorem listed_count (listed : Listed E p) : p.transactions.entries.length = p.size := by
  have same : p.transactions.keys.Perm p.transactionIDs :=
    (List.perm_ext_iff_of_nodup p.transactions.keys_nodup listed.distinct).mpr listed.keys
  have lengths := same.length_eq
  rw [AList.keys,List.keys,List.length_map] at lengths
  exact lengths

theorem listed_new (E : Encoding) (tick : Tick) (prev : Block) : Listed E (newPendingBlock E tick prev) :=
  ⟨List.nodup_nil,fun id => by simp [newPendingBlock],fun id tx found => by simp [newPendingBlock] at found,Nat.le_refl 0⟩

theorem listed_next (listed : Listed E p) (incomplete : p.executionComplete = false) :
    ∃ tx, p.nextTransaction = some tx ∧ p.transactionIDs[p.index]? = some (E.transactionID tx) ∧
      p.transactions.lookup (E.transactionID tx) = some tx := by
  have inside : p.index < p.transactionIDs.length := Nat.lt_of_not_le (of_decide_eq_false incomplete)
  have here : p.transactionIDs[p.index]? = some p.transactionIDs[p.index] := List.getElem?_eq_getElem inside
  have member := (listed.keys _).mpr (List.mem_of_getElem? here)
  obtain ⟨tx,found⟩ := Option.isSome_iff_exists.mp (AList.lookup_isSome.mpr member)
  have same := listed.bodies _ tx found
  refine ⟨tx,?_,by rw [here,same],by rw [same]; exact found⟩
  unfold PendingBlock.nextTransaction
  rw [here]
  exact found

theorem listed_contains (listed : Listed E p) (id : Identifier) : p.containsTransaction id = true ↔ id ∈ p.transactionIDs := by
  rw [← listed.keys id,PendingBlock.containsTransaction,AList.lookup_isSome]

theorem listed_add (listed : Listed E p) {tx : TransactionBody} (fresh : p.containsTransaction (E.transactionID tx) = false) :
    Listed E (p.addTransaction E tx) := by
  have absent : E.transactionID tx ∉ p.transactions := by
    rw [← AList.lookup_isSome]
    simpa [PendingBlock.containsTransaction] using fresh
  refine ⟨?_,fun id => ?_,fun id body found => ?_,?_⟩
  · refine listed.distinct.append (List.nodup_singleton _) ?_
    rw [List.disjoint_singleton]
    exact fun old => absent ((listed.keys _).mpr old)
  · show id ∈ AList.insert _ _ _ ↔ id ∈ _ ++ _
    rw [AList.mem_insert,List.mem_append,List.mem_singleton,listed.keys]
    exact or_comm
  · have found : (p.transactions.insert (E.transactionID tx) tx).lookup id = some body := found
    by_cases same : id = E.transactionID tx
    · subst same
      rw [AList.lookup_insert] at found
      cases found
      rfl
    · rw [AList.lookup_insert_ne same] at found
      exact listed.bodies id body found
  · have bound := listed.bound
    show p.index ≤ (p.transactionIDs ++ [_]).length
    unfold PendingBlock.size at bound
    simp
    omega

theorem intact_new (E : Encoding) (M : Machine) (base : Registers) (tick : Tick) (prev : Block) :
    Intact E M base (newPendingBlock E tick prev) [] :=
  ⟨rfl,fun _ absent => absurd absent List.not_mem_nil,rfl,rfl,rfl,trivial⟩

theorem Intact.tallied (intact : Intact E M base p runs) : Tallied E p runs := ⟨intact.ids,intact.results⟩

theorem tallied_length (tallied : Tallied E p runs) (listed : Listed E p) : runs.length = p.index := by
  have lengths := congrArg List.length tallied.ids
  have bound := listed.bound
  unfold PendingBlock.size at bound
  simp only [transactionIDs,List.length_map,List.length_take] at lengths
  omega

theorem tallied_distinct (tallied : Tallied E p runs) (listed : Listed E p) : (transactionIDs E runs).Nodup := by
  rw [tallied.ids]
  exact listed.distinct.sublist (List.take_sublist _ _)

/-- There is a result for each executed transaction. -/
theorem tallied_count (tallied : Tallied E p runs) (listed : Listed E p) :
    p.transactionResults.entries.length = p.index := by
  rw [tallied.results,(length_collect ∅ (indexed E 0 runs)).mpr ⟨?_,?_⟩,indexed_length,tallied_length tallied listed]
  · exact Nat.zero_add _
  · rw [indexed_keys]
    exact tallied_distinct tallied listed
  · exact fun key _ => AList.notMem_empty key

/-- The result of a run. -/
theorem tallied_lookup (tallied : Tallied E p runs) (listed : Listed E p) {i : Nat} {run : Execution}
    (here : runs[i]? = some run) : p.transactionResults.lookup (E.transactionID run.tx) = some ⟨run.output,i⟩ := by
  have distinct : ((indexed E 0 runs).map Prod.fst).Nodup := by
    rw [indexed_keys]
    exact tallied_distinct tallied listed
  rw [tallied.results]
  exact lookup_collect distinct (mem_indexed.mpr ⟨i,run,here,by rw [Nat.zero_add]⟩)

/-- Before the first run there are no results. -/
theorem tallied_none (tallied : Tallied E p runs) (listed : Listed E p) (idle : p.index = 0) : runs = [] :=
  List.length_eq_zero_iff.mp (by rw [tallied_length tallied listed,idle])

theorem tallied_run (tallied : Tallied E p runs) (listed : Listed E p) {run : Execution}
    (here : p.transactionIDs[p.index]? = some (E.transactionID run.tx)) :
    Tallied E (Blockchain.afterRun E run p) (runs ++ [run]) := by
  constructor
  · show transactionIDs E (runs ++ [run]) = p.transactionIDs.take (p.index+1)
    rw [List.take_add_one,here,← tallied.ids]
    simp [transactionIDs]
  · show AList.insert _ _ _ = _
    rw [indexed_append,collect_append,← tallied.results,Nat.zero_add,tallied_length tallied listed]
    rfl

/-- A block that is sealed has as many results as transactions exactly when it is executed and not broken. -/
theorem sealed_count {config : Config} {system : List Execution} {c : BlockContents} (listed : Listed E p)
    (sealed : Blockchain.Sealed E M config base p system c) :
    c.transactions.entries.length = c.transactionResults.entries.length ↔
      p.size = p.transactionResults.entries.length := by
  rw [sealed.transactions,sealed.transactionResults,Blockchain.convert_length,listed_count listed]

theorem sealed_counted {config : Config} {system : List Execution} {c : BlockContents} (listed : Listed E p)
    (sealed : Blockchain.Sealed E M config base p system c) :
    c.Counted ↔ p.size = p.transactionResults.entries.length ∧ (transactionIDs E system).Nodup :=
  and_congr (sealed_count listed sealed) (Blockchain.sealed_systemCount sealed)

/-- A run of the next transaction is one more run. -/
theorem intact_run (intact : Intact E M base p runs) (listed : Listed E p) {run : Execution}
    (here : p.transactionIDs[p.index]? = some (E.transactionID run.tx))
    (body : p.transactions.lookup (E.transactionID run.tx) = some run.tx)
    (ran : M.run run.context run.tx p.index (withWrites p.ledgerState base) = .ok (run.writes,run.output)) :
    Intact E M base (Blockchain.afterRun E run p) (runs ++ [run]) := by
  have tallied := tallied_run intact.tallied listed here
  refine ⟨tallied.ids,fun each member => ?_,tallied.results,?_,?_,trail_append.mpr ⟨intact.trail,?_,trivial⟩⟩
  · rcases List.mem_append.mp member with before | last
    · exact intact.bodies each before
    · rw [List.mem_singleton.mp last]
      exact body
  · show p.events ++ emitted [run] = _
    rw [emitted_append,intact.events]
  · show accumulate p.ledgerState [run] = _
    rw [accumulate_append,intact.ledger]
  · rw [Nat.zero_add,tallied_length intact.tallied listed,← intact.ledger]
    exact ran

end

namespace Blockchain
variable {σ : Type} {E : Encoding} {M : Machine} {B : Backend σ}

/-- What an attempt to add a transaction answers and leaves. -/
inductive Adds (E : Encoding) (M : Machine) (B : Backend σ) (tx : TransactionBody) (b : Blockchain σ) :
    Except EmulatorError Unit × Blockchain σ → Prop where
  | started (started : 0 < b.pendingBlock.index) :
      Adds E M B tx b (.error (.pendingBlockMidExecution (b.pendingBlock.id E)),b)
  | repeated (idle : b.pendingBlock.index = 0) (listed : b.pendingBlock.containsTransaction (E.transactionID tx) = true) :
      Adds E M B tx b (.error (.duplicateTransaction (E.transactionID tx)),b)
  | stored (idle : b.pendingBlock.index = 0) (fresh : b.pendingBlock.containsTransaction (E.transactionID tx) = false)
      (body : TransactionBody) (found : B.transactionByID (E.transactionID tx) b.storage = .ok body) :
      Adds E M B tx b (.error (.duplicateTransaction (E.transactionID tx)),b)
  | unreadable (idle : b.pendingBlock.index = 0) (fresh : b.pendingBlock.containsTransaction (E.transactionID tx) = false)
      (e : StoreError) (failed : B.transactionByID (E.transactionID tx) b.storage = .error e) (other : e ≠ .notFound) :
      Adds E M B tx b (.error (.storage e),b)
  | invalid (idle : b.pendingBlock.index = 0) (fresh : b.pendingBlock.containsTransaction (E.transactionID tx) = false)
      (missing : B.transactionByID (E.transactionID tx) b.storage = .error .notFound) (message : String)
      (rejected : M.validate (fun id => B.blockByID id b.storage) (B.latestBlock b.storage) tx = .error message) :
      Adds E M B tx b (.error (.invalidTransaction message),b)
  | added (idle : b.pendingBlock.index = 0) (fresh : b.pendingBlock.containsTransaction (E.transactionID tx) = false)
      (missing : B.transactionByID (E.transactionID tx) b.storage = .error .notFound)
      (valid : M.validate (fun id => B.blockByID id b.storage) (B.latestBlock b.storage) tx = .ok ()) :
      Adds E M B tx b (.ok (),{ b with pendingBlock := b.pendingBlock.addTransaction E tx })

variable (E M B) in
theorem addTransaction_adds (tx : TransactionBody) (b : Blockchain σ) : Adds E M B tx b (addTransaction E M B tx b) := by
  have started : b.pendingBlock.executionStarted = decide (0 < b.pendingBlock.index) := rfl
  unfold addTransaction
  rw [bind_ok (view_run _ b),started]
  by_cases first : 0 < b.pendingBlock.index
  · rw [if_pos (by simpa using first)]
    exact .started first
  have idle : b.pendingBlock.index = 0 := by omega
  rw [if_neg (by simpa using first)]
  cases listed : b.pendingBlock.containsTransaction (E.transactionID tx) with
  | true => exact .repeated idle listed
  | false =>
    rw [if_neg (by decide),bind_ok (view_run _ b)]
    cases read : B.transactionByID (E.transactionID tx) b.storage with
    | ok body => exact .stored idle listed body read
    | error e =>
      by_cases missing : e = .notFound
      · subst missing
        dsimp only
        rw [bind_ok (view_run _ b)]
        cases valid : M.validate (fun id => B.blockByID id b.storage) (B.latestBlock b.storage) tx with
        | error message => exact .invalid idle listed read message valid
        | ok _ => exact .added idle listed read valid
      · have outcome := Adds.unreadable (M := M) idle listed e read missing
        cases e with
        | notFound => exact absurd rfl missing
        | _ => exact outcome

/-- A transaction that is new and valid is added while nothing is executed yet. -/
theorem addTransaction_ok {tx : TransactionBody} {b : Blockchain σ} (idle : b.pendingBlock.index = 0)
    (fresh : b.pendingBlock.containsTransaction (E.transactionID tx) = false)
    (missing : B.transactionByID (E.transactionID tx) b.storage = .error .notFound)
    (valid : M.validate (fun id => B.blockByID id b.storage) (B.latestBlock b.storage) tx = .ok ()) :
    addTransaction E M B tx b = (.ok (),{ b with pendingBlock := b.pendingBlock.addTransaction E tx }) := by
  have adds := addTransaction_adds E M B tx b
  generalize addTransaction E M B tx b = out at adds ⊢
  cases adds with
  | started started => omega
  | repeated _ listed => rw [fresh] at listed; cases listed
  | stored _ _ body found => rw [missing] at found; cases found
  | unreadable _ _ e failed other => rw [missing] at failed; cases failed; exact absurd rfl other
  | invalid _ _ _ message rejected => rw [valid] at rejected; cases rejected
  | added _ _ _ _ => rfl

/-- The next transaction is executed when it runs and its writes can be merged. -/
theorem executeNextTransaction_run {tx : TransactionBody} {b : Blockchain σ}
    (incomplete : b.pendingBlock.executionComplete = false) (next : b.pendingBlock.nextTransaction = some tx)
    {writes : WriteSet} {output : ProcedureOutput} (opened : b.pendingBlock.finalized = false)
    (ran : M.run (b.context E .user) tx b.pendingBlock.index (b.registers B) = .ok (writes,output))
    (merged : M.mergeable b.pendingBlock.ledgerState writes = true) : (executeNextTransaction E M B b).2 =
      { b with pendingBlock := afterRun E ⟨b.context E .user,tx,writes,output⟩ b.pendingBlock } := by
  have executes := executeNextTransaction_executes E M B b
  generalize executeNextTransaction E M B b = out at executes ⊢
  cases executes with
  | exhausted complete => rw [incomplete] at complete; cases complete
  | missing _ none => rw [next] at none; cases none
  | failed other _ found message fatal =>
    obtain rfl := Option.some.inj (next.symm.trans found)
    rw [on_open opened,ran] at fatal
    cases fatal
  | unmerged other _ found _ _ again fatal =>
    obtain rfl := Option.some.inj (next.symm.trans found)
    rw [ran] at again
    cases again
    rw [merged] at fatal
    cases fatal
  | executed other _ found _ _ again _ =>
    obtain rfl := Option.some.inj (next.symm.trans found)
    rw [ran] at again
    cases again
    rfl

/-! ### What the requests keep -/

theorem listed_moved {p q : PendingBlock} (listed : Listed E p) (ids : q.transactionIDs = p.transactionIDs)
    (transactions : q.transactions = p.transactions) (bound : q.index ≤ p.size) : Listed E q := by
  refine ⟨by rw [ids]; exact listed.distinct,fun id => ?_,fun id tx => ?_,by rw [PendingBlock.size,ids]; exact bound⟩
  · rw [transactions,ids]
    exact listed.keys id
  · rw [transactions]
    exact listed.bodies id tx

theorem executes_listed {b : Blockchain σ} {out : Except EmulatorError TransactionResult × Blockchain σ}
    (executes : Executes E M B b out) (listed : Listed E b.pendingBlock) : Listed E out.2.pendingBlock := by
  have moved (incomplete : b.pendingBlock.executionComplete = false) : b.pendingBlock.index+1 ≤ b.pendingBlock.size :=
    Nat.lt_of_not_le (of_decide_eq_false incomplete)
  cases executes with
  | exhausted complete => exact listed
  | missing incomplete next => exact listed
  | failed tx incomplete next message fatal => exact listed_moved listed rfl rfl (moved incomplete)
  | unmerged tx incomplete next writes output ran fatal => exact listed_moved listed rfl rfl (moved incomplete)
  | executed tx incomplete next writes output ran merged => exact listed_moved listed rfl rfl (moved incomplete)

theorem executes_finalized {b : Blockchain σ} {out : Except EmulatorError TransactionResult × Blockchain σ}
    (executes : Executes E M B b out) : out.2.pendingBlock.finalized = b.pendingBlock.finalized := by
  cases executes <;> rfl

theorem adds_finalized {b : Blockchain σ} {tx : TransactionBody} {out : Except EmulatorError Unit × Blockchain σ}
    (adds : Adds E M B tx b out) : out.2.pendingBlock.finalized = b.pendingBlock.finalized := by
  cases adds <;> rfl

/-- The next transaction, if there is one, runs without a fatal error. -/
def Runs (E : Encoding) (M : Machine) (B : Backend σ) (b : Blockchain σ) : Prop :=
  ∀ tx, b.pendingBlock.executionComplete = false → b.pendingBlock.nextTransaction = some tx → ∃ writes output,
    (M.on b.pendingBlock).run (b.context E .user) tx b.pendingBlock.index (b.registers B) = .ok (writes,output) ∧
      M.mergeable b.pendingBlock.ledgerState writes = true

/-- An intact block stays intact, or is broken by a run that failed. -/
theorem executes_intact {b : Blockchain σ} {out : Except EmulatorError TransactionResult × Blockchain σ}
    (executes : Executes E M B b out) (listed : Listed E b.pendingBlock) {runs : List Execution}
    (intact : Intact E M (b.base B) b.pendingBlock runs) :
    (∃ runs, Intact E M (out.2.base B) out.2.pendingBlock runs) ∨ ¬ Runs E M B b ∧ Broken out.2.pendingBlock := by
  have count := tallied_count intact.tallied listed
  cases executes with
  | exhausted complete => exact .inl ⟨runs,intact⟩
  | missing incomplete next => exact .inl ⟨runs,intact⟩
  | failed tx incomplete next message fatal =>
    refine .inr ⟨fun fine => ?_,?_⟩
    · obtain ⟨writes,output,ran,_⟩ := fine tx incomplete next
      rw [ran] at fatal
      cases fatal
    · show b.pendingBlock.transactionResults.entries.length < b.pendingBlock.index+1
      omega
  | unmerged tx incomplete next writes output ran fatal =>
    refine .inr ⟨fun fine => ?_,?_⟩
    · obtain ⟨_,_,again,merged⟩ := fine tx incomplete next
      rw [(on_ok again).2] at ran
      cases ran
      rw [fatal] at merged
      cases merged
    · show b.pendingBlock.transactionResults.entries.length < b.pendingBlock.index+1
      omega
  | executed tx incomplete next writes output ran merged =>
    obtain ⟨found,isNext,here,body⟩ := listed_next listed incomplete
    rw [next] at isNext
    cases isNext
    let run : Execution := ⟨b.context E .user,tx,writes,output⟩
    have longer : Intact E M (b.base B) (afterRun E run b.pendingBlock) (runs ++ [run]) := intact_run intact listed here body ran
    exact .inl ⟨_,longer⟩

theorem executes_broken {b : Blockchain σ} {out : Except EmulatorError TransactionResult × Blockchain σ}
    (executes : Executes E M B b out) (broken : Broken b.pendingBlock) : Broken out.2.pendingBlock := by
  unfold Broken at broken
  cases executes with
  | exhausted complete => exact broken
  | missing incomplete next => exact broken
  | failed tx incomplete next message fatal =>
    show b.pendingBlock.transactionResults.entries.length < b.pendingBlock.index+1
    omega
  | unmerged tx incomplete next writes output ran fatal =>
    show b.pendingBlock.transactionResults.entries.length < b.pendingBlock.index+1
    omega
  | executed tx incomplete next writes output ran merged =>
    have most := length_insert_le b.pendingBlock.transactionResults (E.transactionID tx) ⟨output,b.pendingBlock.index⟩
    show (b.pendingBlock.transactionResults.insert (E.transactionID tx) ⟨output,b.pendingBlock.index⟩).entries.length <
      b.pendingBlock.index+1
    omega

theorem adds_listed {b : Blockchain σ} {tx : TransactionBody} {out : Except EmulatorError Unit × Blockchain σ}
    (adds : Adds E M B tx b out) (listed : Listed E b.pendingBlock) : Listed E out.2.pendingBlock := by
  cases adds with
  | added idle fresh missing valid => exact listed_add listed fresh
  | _ => exact listed

/-- Transactions are added to a block that has no runs yet, and it stays without. -/
theorem adds_tallied {b : Blockchain σ} {tx : TransactionBody} {out : Except EmulatorError Unit × Blockchain σ}
    (adds : Adds E M B tx b out) (listed : Listed E b.pendingBlock) {runs : List Execution}
    (tallied : Tallied E b.pendingBlock runs) : Tallied E out.2.pendingBlock runs := by
  cases adds with
  | added idle fresh missing valid =>
    have none := tallied_none tallied listed idle
    subst none
    refine ⟨?_,tallied.results⟩
    show _ = List.take b.pendingBlock.index _
    rw [idle]
    rfl
  | _ => exact tallied

theorem adds_intact {b : Blockchain σ} {tx : TransactionBody} {out : Except EmulatorError Unit × Blockchain σ}
    (adds : Adds E M B tx b out) (listed : Listed E b.pendingBlock) {runs : List Execution}
    (intact : Intact E M (b.base B) b.pendingBlock runs) : Intact E M (out.2.base B) out.2.pendingBlock runs := by
  have tallied := adds_tallied adds listed intact.tallied
  cases adds with
  | added idle fresh missing valid =>
    have none := tallied_none intact.tallied listed idle
    subst none
    exact ⟨tallied.ids,fun _ absent => absurd absent List.not_mem_nil,tallied.results,intact.events,intact.ledger,trivial⟩
  | _ => exact intact

theorem adds_broken {b : Blockchain σ} {tx : TransactionBody} {out : Except EmulatorError Unit × Blockchain σ}
    (adds : Adds E M B tx b out) (broken : Broken b.pendingBlock) : Broken out.2.pendingBlock := by
  cases adds <;> exact broken

/-! ### A virtual machine that never fails -/

end Blockchain

/-- Whatever is asked of the virtual machine succeeds. -/
structure Machine.Steady (M : Machine) : Prop where
  runs : ∀ context tx index registers, ∃ writes output, M.run context tx index registers = .ok (writes,output)
  merges : ∀ ledger writes, M.mergeable ledger writes = true
  converts : ∀ events, M.convertible events = true

namespace Blockchain
section
variable {σ : Type} {E : Encoding} {M : Machine} {B : Backend σ} (steady : M.Steady)
include steady

/-- On an open ledger the next transaction is executed, with a result. -/
theorem steady_executes {b : Blockchain σ} (listed : Listed E b.pendingBlock) (opened : b.pendingBlock.finalized = false)
    (incomplete : b.pendingBlock.executionComplete = false) : ∃ run result,
      b.pendingBlock.transactionIDs[b.pendingBlock.index]? = some (E.transactionID run.tx) ∧
      executeNextTransaction E M B b = (.ok result,{ b with pendingBlock := afterRun E run b.pendingBlock }) := by
  obtain ⟨tx,isNext,here,_⟩ := listed_next listed incomplete
  have executes := executeNextTransaction_executes E M B b
  generalize executeNextTransaction E M B b = out at executes ⊢
  cases executes with
  | exhausted complete => rw [incomplete] at complete; cases complete
  | missing _ none => rw [isNext] at none; cases none
  | failed other _ found message fatal =>
    obtain ⟨_,_,ran⟩ := steady.runs (b.context E .user) other b.pendingBlock.index (b.registers B)
    rw [on_open opened,ran] at fatal
    cases fatal
  | unmerged other _ found writes output ran fatal =>
    rw [steady.merges] at fatal
    cases fatal
  | executed other _ found writes output ran merged =>
    obtain rfl := Option.some.inj (isNext.symm.trans found)
    rw [steady.converts]
    exact ⟨_,_,here,rfl⟩

/-- On an open ledger executing a block completes it. -/
theorem steady_completes {b : Blockchain σ} (listed : Listed E b.pendingBlock) (opened : b.pendingBlock.finalized = false) :
    (executeBlock E M B b).2.pendingBlock.transactionIDs = b.pendingBlock.transactionIDs ∧
      (executeBlock E M B b).2.pendingBlock.index = b.pendingBlock.size := by
  -- as many rounds are made as there are transactions left, and each executes one
  have rounds (fuel : Nat) (results : List TransactionResult) (b : Blockchain σ) (listed : Listed E b.pendingBlock)
      (opened : b.pendingBlock.finalized = false) (left : b.pendingBlock.size-b.pendingBlock.index = fuel) :
      (executeRemaining E M B fuel results b).2.pendingBlock.transactionIDs = b.pendingBlock.transactionIDs ∧
        (executeRemaining E M B fuel results b).2.pendingBlock.index = b.pendingBlock.size := by
    induction fuel generalizing results b with
    | zero => exact ⟨rfl,Nat.le_antisymm listed.bound (Nat.sub_eq_zero_iff_le.mp left)⟩
    | succ fuel ih =>
      have incomplete : b.pendingBlock.executionComplete = false := by
        rw [PendingBlock.executionComplete,decide_eq_false_iff_not]
        omega
      have some : b.pendingBlock.empty = false := by
        have size : b.pendingBlock.size = b.pendingBlock.transactionIDs.length := rfl
        rw [PendingBlock.empty,decide_eq_false_iff_not]
        omega
      obtain ⟨run,result,here,done⟩ := steady_executes (B := B) steady listed opened incomplete
      have next : Listed E (afterRun E run b.pendingBlock) := listed_moved listed rfl rfl (by
        show b.pendingBlock.index+1 ≤ b.pendingBlock.size
        omega)
      have later := ih (results ++ [result]) { b with pendingBlock := afterRun E run b.pendingBlock } next opened (by
        show b.pendingBlock.size-(b.pendingBlock.index+1) = fuel
        omega)
      rw [executeRemaining,bind_ok (view_run _ b),incomplete,some,if_neg (by decide),bind_ok done]
      exact later
  have bound := listed.bound
  rw [executeBlock,bind_ok (view_run _ b)]
  by_cases complete : (b.pendingBlock.executionComplete && !b.pendingBlock.empty) = true
  · rw [if_pos complete]
    have reached : b.pendingBlock.size ≤ b.pendingBlock.index := of_decide_eq_true (Bool.and_eq_true_iff.mp complete).1
    exact ⟨rfl,Nat.le_antisymm bound reached⟩
  · rw [if_neg complete]
    exact rounds _ [] b listed opened rfl

end
end Blockchain
end FlowEmulator
