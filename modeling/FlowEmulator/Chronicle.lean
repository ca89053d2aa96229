import FlowEmulator.Archive
import FlowEmulator.Calls
import FlowEmulator.LinkedChain

/-!
What the chain of an emulator over the SQL store is made of, in whole runs. Each
block of the chain is the first one or was sealed from a pending block, and a
transaction of users is in one block of the chain or in the pending block, once.
Calls and rollbacks keep this, whatever the virtual machine does.
-/
namespace FlowEmulator
open FlowEmulator.Fallible FlowEmulator.DefaultStore FlowEmulator.Run

/-- The transactions of users in a block, in order. -/
def BlockContents.userTransactions (c : BlockContents) : List Identifier :=
  c.collections.flatMap LightCollection.transactions

namespace Chronicle
open FlowEmulator.Blockchain FlowEmulator.LinkedChain
open FlowEmulator.Sqlite (Choices Recorded Archived)

/-- The pending block has results of its own transactions only. -/
structure Tracked (E : Encoding) (p : PendingBlock) : Prop where
  listed : Listed E p
  results : ∀ id ∈ p.transactionResults, id ∈ p.transactionIDs

/-- Where the contents of a block come from. -/
inductive Origin (E : Encoding) (M : Machine) (config : Config) (c : BlockContents) : Prop where
  | first (writes : WriteSet) (events : List Event) (same : c = genesisContents M config writes events)
  | sealed (base : Registers) (p : PendingBlock) (runs : List Execution) (tracked : Tracked E p)
      (sealed : Sealed E M config base p runs c)

/-- How the parts of the contents of a block belong together. -/
structure Filled (E : Encoding) (c : BlockContents) : Prop where
  distinct : c.userTransactions.Nodup
  collections : c.collections = if c.userTransactions = [] then [] else [⟨c.userTransactions⟩]
  guarantees : c.block.guarantees = c.collections.map E.collectionID
  transactions : ∀ id, id ∈ c.transactions ↔ id ∈ c.userTransactions
  bodies : ∀ id tx, c.transactions.lookup id = some tx → E.transactionID tx = id
  results : ∀ id, id ∈ c.transactionResults ↔ id ∈ c.userTransactions
  placed : ∀ id result, c.transactionResults.lookup id = some result → result.blockID = E.blockID c.block ∧
    result.blockHeight = c.block.height ∧ result.collectionID = (c.collections.head?.map E.collectionID).getD zeroID
  system : ∀ id, id ∈ c.systemTransactionBodies ↔ id ∈ c.systemTransactions
  systemBodies : ∀ id tx, c.systemTransactionBodies.lookup id = some tx → E.transactionID tx = id
  systemResults : ∀ id, id ∈ c.systemTransactionResults ↔ id ∈ c.systemTransactions

section
variable {E : Encoding} {M : Machine} {config : Config} {c : BlockContents} {p : PendingBlock}

theorem collections_transactions (p : PendingBlock) :
    p.collections.flatMap LightCollection.transactions = p.transactionIDs := by
  unfold PendingBlock.collections
  split
  · next empty => rw [empty]; rfl
  · exact List.flatMap_singleton ..

theorem sealed_userTransactions {base : Registers} {runs : List Execution} (sealed : Sealed E M config base p runs c) :
    c.userTransactions = p.transactionIDs := by
  unfold BlockContents.userTransactions
  rw [sealed.collections,collections_transactions]

/-- A block with as many results as transactions has a result for each of them. -/
theorem tracked_results (tracked : Tracked E p) (count : p.size = p.transactionResults.entries.length) (id : Identifier) :
    id ∈ p.transactionResults ↔ id ∈ p.transactionIDs := by
  have inside : p.transactionResults.keys ⊆ p.transactionIDs :=
    fun key member => tracked.results key (AList.mem_keys.mpr member)
  have lengths : p.transactionIDs.length ≤ p.transactionResults.keys.length := by
    rw [AList.keys,List.keys,List.length_map,← count]
    exact Nat.le_refl _
  have same := (p.transactionResults.keys_nodup.subperm inside).perm_of_length_le lengths
  rw [AList.mem_keys]
  exact same.mem_iff

theorem filled_sealed {base : Registers} {runs : List Execution} (tracked : Tracked E p)
    (sealed : Sealed E M config base p runs c) (counted : c.Counted) : Filled E c := by
  have users := sealed_userTransactions sealed
  have keys : (bodiesOf E runs).map Prod.fst = transactionIDs E runs := by simp [bodiesOf,transactionIDs]
  refine ⟨?_,?_,?_,fun id => ?_,?_,fun id => ?_,fun id result found => ?_,fun id => ?_,fun id tx found => ?_,fun id => ?_⟩
  · rw [users]
    exact tracked.listed.distinct
  · rw [users,sealed.collections]
    rfl
  · rw [sealed.block,sealed.collections]
    rfl
  · rw [users,sealed.transactions]
    exact tracked.listed.keys id
  · rw [sealed.transactions]
    exact tracked.listed.bodies
  · have count := (sealed_count tracked.listed sealed).mp counted.1
    rw [users,sealed.transactionResults,AList.mem_keys,convert_keys,← AList.mem_keys]
    exact tracked_results tracked count id
  · rw [sealed.transactionResults,convert_lookup] at found
    obtain ⟨any,_,rfl⟩ := Option.map_eq_some_iff.mp found
    rw [sealed.block,sealed.collections]
    exact ⟨rfl,rfl,rfl⟩
  · rw [sealed.systemTransactionBodies,sealed.systemTransactions,mem_collect,keys]
    exact or_iff_right (AList.notMem_empty id)
  · rw [sealed.systemTransactionBodies] at found
    rcases collect_found found with absent | member
    · cases absent
    · obtain ⟨run,_,same⟩ := List.mem_map.mp member
      cases same
      rfl
  · rw [sealed.systemTransactionResults,sealed.systemTransactions,AList.mem_keys,convert_keys,← AList.mem_keys,
      mem_collect,indexed_keys]
    exact or_iff_right (AList.notMem_empty id)

theorem filled_origin (origin : Origin E M config c) (counted : c.Counted) : Filled E c := by
  cases origin with
  | sealed base p runs tracked sealed => exact filled_sealed tracked sealed counted
  | first writes events same =>
    subst same
    have absent {V : Type} (id : Identifier) : id ∈ (∅ : GoMap Identifier V) ↔ id ∈ ([] : List Identifier) :=
      ⟨fun member => absurd member (AList.notMem_empty id),fun member => absurd member List.not_mem_nil⟩
    exact ⟨List.nodup_nil,rfl,rfl,absent,fun _ _ found => (by cases found),absent,fun _ _ found => (by cases found),
      absent,fun _ _ found => (by cases found),absent⟩

end

/-- The blocks without collections are those without transactions of users. -/
theorem filled_empty {E : Encoding} {c : BlockContents} (filled : Filled E c) :
    c.block.guarantees = [] ↔ c.userTransactions = [] := by
  rw [filled.guarantees,filled.collections,List.map_eq_nil_iff]
  split
  · next none => exact iff_of_true rfl none
  · next some => exact iff_of_false (List.cons_ne_nil _ _) some

/-! ### The store and the pending block -/

/-- The store holds a chain, after the blocks `seen` were committed. -/
structure Stored (E : Encoding) (M : Machine) (config : Config) (cs seen : List BlockContents) (latest : Nat)
    (s : Sqlite.Store) : Prop where
  recorded : Recorded E 0 none cs latest s.database
  main : s.db = .main
  current : s.currentHeight ≤ latest
  linked : cs.IsChain fun c d => Follows E c.block d.block
  archived : Archived E (static E M config) cs seen s.database
  origin : ∀ c ∈ cs, Origin E M config c
  distinct : (cs.flatMap BlockContents.userTransactions).Nodup

/-- The pending block comes next, with transactions that are not in the chain. -/
structure Underway (E : Encoding) (cs : List BlockContents) (latest : Nat) (p : PendingBlock) : Prop where
  next : ∃ last ∈ cs, last.block.height = latest ∧ Next E last.block p
  ledgerHeight : p.ledgerHeight = latest
  tracked : Tracked E p
  fresh : ∀ id ∈ p.transactionIDs, ∀ c ∈ cs, id ∉ c.transactions ∧ id ∉ c.systemTransactionBodies

structure Accounted (E : Encoding) (M : Machine) (config : Config) (cs seen : List BlockContents) (latest : Nat)
    (b : Blockchain Sqlite.Store) : Prop where
  stored : Stored E M config cs seen latest b.storage
  underway : Underway E cs latest b.pendingBlock

section
variable {E : Encoding} {M : Machine} {config : Config} {choices : Choices} {cs seen : List BlockContents} {latest : Nat}
  {b after : Blockchain Sqlite.Store}

theorem stored_filled {s : Sqlite.Store} (stored : Stored E M config cs seen latest s) {c : BlockContents} (here : c ∈ cs) :
    Filled E c := filled_origin (stored.origin c here) (chain_counted stored.recorded.chain c here)

theorem accounted_grounded (accounted : Accounted E M config cs seen latest b) : Grounded E cs latest b :=
  ⟨accounted.stored.recorded,accounted.stored.main,accounted.stored.current,accounted.stored.linked,
    accounted.underway.next⟩

theorem tracked_new (E : Encoding) (tick : Tick) (prev : Block) : Tracked E (newPendingBlock E tick prev) :=
  ⟨listed_new E tick prev,fun id member => absurd member (AList.notMem_empty id)⟩

theorem underway_new (tick : Tick) {last : BlockContents} (here : last ∈ cs) (height : last.block.height = latest) :
    Underway E cs latest (newPendingBlock E tick last.block) :=
  ⟨⟨last,here,height,next_new E tick last.block⟩,height,tracked_new E tick last.block,
    fun _ absent => absurd absent List.not_mem_nil⟩

/-- A pending block with the same transactions at the same place. -/
theorem underway_same {p q : PendingBlock} (underway : Underway E cs latest p) (place : SamePlace p q)
    (ledgerHeight : q.ledgerHeight = p.ledgerHeight) (ids : q.transactionIDs = p.transactionIDs) (tracked : Tracked E q) :
    Underway E cs latest q := by
  obtain ⟨last,here,height,next⟩ := underway.next
  refine ⟨⟨last,here,height,next_same next place⟩,ledgerHeight.trans underway.ledgerHeight,tracked,fun id member => ?_⟩
  rw [ids] at member
  exact underway.fresh id member

/-- A new pending block on the latest block of the store. -/
theorem accounted_new (stored : Stored E M config cs seen latest b.storage) (tick : Tick) {block : Block}
    (found : (Sqlite.backend E choices).latestBlock b.storage = .ok block) (storage : after.storage = b.storage)
    (pending : after.pendingBlock = newPendingBlock E tick block) : Accounted E M config cs seen latest after := by
  obtain ⟨last,here,height,read⟩ := Sqlite.recorded_latestBlock choices stored.recorded (Nat.zero_le latest)
  have same : DefaultStore.latestBlock E (Sqlite.dataStore choices) b.storage = .ok block := found
  rw [read] at same
  cases same
  refine ⟨by rw [storage]; exact stored,?_⟩
  rw [pending]
  exact underway_new tick here height

/-! ### Calls -/

theorem tracked_add {p : PendingBlock} (tracked : Tracked E p) {tx : TransactionBody}
    (fresh : p.containsTransaction (E.transactionID tx) = false) : Tracked E (p.addTransaction E tx) :=
  ⟨listed_add tracked.listed fresh,fun id member => List.mem_append_left _ (tracked.results id member)⟩

/-- A transaction that is not found in the store is in no block of the chain. -/
theorem stored_missing {s : Sqlite.Store} (stored : Stored E M config cs seen latest s) {id : Identifier}
    (missing : (Sqlite.backend E choices).transactionByID id s = .error .notFound) :
    ∀ c ∈ cs, id ∉ c.transactions ∧ id ∉ c.systemTransactionBodies := by
  have missing : transactionByID E (Sqlite.dataStore choices) id s = .error .notFound := missing
  intro c here
  rw [← not_or]
  intro member
  obtain ⟨_,_,tx,_,found⟩ := Sqlite.archived_transaction choices stored.archived here member
  rw [missing] at found
  cases found

theorem accounted_add (accounted : Accounted E M config cs seen latest b) (tx : TransactionBody) :
    Accounted E M config cs seen latest (addTransaction E M (Sqlite.backend E choices) tx b).2 := by
  have adds := addTransaction_adds E M (Sqlite.backend E choices) tx b
  generalize addTransaction E M (Sqlite.backend E choices) tx b = out at adds ⊢
  cases adds with
  | added idle fresh missing valid =>
    obtain ⟨last,here,height,next⟩ := accounted.underway.next
    refine ⟨accounted.stored,⟨last,here,height,next_same next ⟨rfl,rfl,rfl⟩⟩,accounted.underway.ledgerHeight,
      tracked_add accounted.underway.tracked fresh,fun id member => ?_⟩
    rcases List.mem_append.mp member with old | new
    · exact accounted.underway.fresh id old
    · rw [List.mem_singleton.mp new]
      exact stored_missing accounted.stored missing
  | _ => exact accounted

theorem accounted_execute (accounted : Accounted E M config cs seen latest b) :
    Accounted E M config cs seen latest (executeNextTransaction E M (Sqlite.backend E choices) b).2 := by
  have executes := executeNextTransaction_executes E M (Sqlite.backend E choices) b
  have tracked := accounted.underway.tracked
  have listed := executes_listed executes tracked.listed
  generalize executeNextTransaction E M (Sqlite.backend E choices) b = out at executes listed ⊢
  cases executes with
  | exhausted complete => exact accounted
  | missing incomplete next => exact accounted
  | failed tx incomplete next message fatal =>
    exact ⟨accounted.stored,underway_same accounted.underway ⟨rfl,rfl,rfl⟩ rfl rfl ⟨listed,tracked.results⟩⟩
  | unmerged tx incomplete next writes output ran fatal =>
    exact ⟨accounted.stored,underway_same accounted.underway ⟨rfl,rfl,rfl⟩ rfl rfl ⟨listed,tracked.results⟩⟩
  | executed tx incomplete next writes output ran merged =>
    refine ⟨accounted.stored,underway_same accounted.underway ⟨rfl,rfl,rfl⟩ rfl rfl ⟨listed,fun id member => ?_⟩⟩
    obtain ⟨found,isNext,here,_⟩ := listed_next tracked.listed incomplete
    rw [next] at isNext
    cases isNext
    rcases (AList.mem_insert _).mp member with rfl | old
    · exact List.mem_of_getElem? here
    · exact tracked.results id old

/-- No transaction of users is in the chain and the pending block twice. -/
theorem accounted_distinct (accounted : Accounted E M config cs seen latest b) :
    (cs.flatMap BlockContents.userTransactions ++ b.pendingBlock.transactionIDs).Nodup := by
  refine accounted.stored.distinct.append accounted.underway.tracked.listed.distinct (fun id inChain pending => ?_)
  obtain ⟨c,here,member⟩ := List.mem_flatMap.mp inChain
  exact (accounted.underway.fresh id pending c here).1 (((stored_filled accounted.stored here).transactions id).mpr member)

theorem tracked_record {p : PendingBlock} (tracked : Tracked E p) (runs : List Execution) : Tracked E (p.record runs) :=
  ⟨listed_moved tracked.listed rfl rfl tracked.listed.bound,tracked.results⟩

theorem underway_left {p q : PendingBlock} (underway : Underway E cs latest p) {runs : List Execution}
    (left : p.Left runs q) : Underway E cs latest q := by
  have tracked := tracked_record underway.tracked runs
  rcases left with rfl | rfl
  · exact underway_same underway ⟨rfl,rfl,rfl⟩ rfl rfl tracked
  · exact underway_same underway ⟨rfl,rfl,rfl⟩ rfl rfl ⟨listed_moved tracked.listed rfl rfl tracked.listed.bound,tracked.results⟩

/-- A block that is sealed from the pending block and saved is the next of the chain. -/
theorem accounted_saved (accounted : Accounted E M config cs seen latest b) {base : Registers} {runs : List Execution}
    {c : BlockContents} (sealed : Sealed E M config base b.pendingBlock runs c)
    (run : (Sqlite.backend E choices).saveBlock E (static E M config) c b.storage = (.ok (),after.storage)) (tick : Tick)
    (pending : after.pendingBlock = newPendingBlock E tick c.block) :
    c.Counted ∧ Accounted E M config (cs ++ [c]) (seen ++ [c]) (latest+1) after := by
  have grounded := accounted_grounded accounted
  have longer : Grounded E (cs ++ [c]) (latest+1) after := grounded_saved grounded (sealed_placed sealed) run tick pending
  have tip := Sqlite.recorded_tip grounded.recorded
  obtain ⟨counted,wrote⟩ := Sqlite.saved_wrote tip run
  have height : c.block.height = latest+1 := Sqlite.recorded_last longer.recorded (by simp)
  have new (d : BlockContents) (there : d ∈ cs) : d.block.height ≠ c.block.height := by
    have range := Sqlite.recorded_range grounded.recorded there
    omega
  have origin : Origin E M config c := .sealed base b.pendingBlock runs accounted.underway.tracked sealed
  refine ⟨counted,⟨longer.recorded,longer.main,longer.current,longer.linked,
    Sqlite.archived_saved accounted.stored.archived wrote new,fun d there => ?_,?_⟩,?_⟩
  · rcases List.mem_append.mp there with before | only
    · exact accounted.stored.origin d before
    · rw [List.mem_singleton.mp only]
      exact origin
  · rw [List.flatMap_append,List.flatMap_singleton,sealed_userTransactions sealed]
    exact accounted_distinct accounted
  · rw [pending]
    exact underway_new tick (List.mem_append_right _ List.mem_cons_self) height

/-- What a commit can do to the chain. -/
inductive Committed (E : Encoding) (M : Machine) (config : Config) (choices : Choices) (cs seen : List BlockContents)
    (latest : Nat) (tick : Tick) (b : Blockchain Sqlite.Store) :
    Except EmulatorError Block × Blockchain Sqlite.Store → Prop where
  | failed (e : EmulatorError) (after : Blockchain Sqlite.Store) (runs : List Execution)
      (pending : b.pendingBlock.Left runs after.pendingBlock)
      (waiting : b.pendingBlock.index < b.pendingBlock.size → after.pendingBlock = b.pendingBlock)
      (accounted : Accounted E M config cs seen latest after) :
      Committed E M config choices cs seen latest tick b (.error e,after)
  | saved (c : BlockContents) (after : Blockchain Sqlite.Store) (ready : b.pendingBlock.size ≤ b.pendingBlock.index)
      (made : (sealBlock E M config (Sqlite.backend E choices) b).1 = .ok c) (counted : c.Counted)
      (sealed : Sealed E M config (b.base (Sqlite.backend E choices)) b.pendingBlock
        (attempted E M config (Sqlite.backend E choices) b).1 c)
      (pending : after.pendingBlock = newPendingBlock E tick c.block)
      (accounted : Accounted E M config (cs ++ [c]) (seen ++ [c]) (latest+1) after) :
      Committed E M config choices cs seen latest tick b (.ok c.block,after)

theorem accounted_commit (accounted : Accounted E M config cs seen latest b) (tick : Tick) :
    Committed E M config choices cs seen latest tick b (commitBlock E M config (Sqlite.backend E choices) tick b) := by
  have commits : Commits E M config (Sqlite.backend E choices) tick b
      (commitBlock E M config (Sqlite.backend E choices) tick b) := commitBlock_commits tick b
  generalize commitBlock E M config (Sqlite.backend E choices) tick b = out at commits ⊢
  cases commits with
  | refused waiting => exact .failed _ _ [] (.inl (PendingBlock.record_nil _).symm) (fun _ => rfl) accounted
  | unsealed ready e failed =>
    exact .failed _ _ _ (.inl rfl) (fun waiting => absurd ready (Nat.not_le.mpr waiting))
      ⟨accounted.stored,underway_left accounted.underway (.inl rfl)⟩
  | unsaved ready c sealed e storage run =>
    have same := Sqlite.refused_same (Sqlite.recorded_tip accounted.stored.recorded) run
    refine .failed _ _ _ (.inr rfl) (fun waiting => absurd ready (Nat.not_le.mpr waiting))
      ⟨?_,underway_left accounted.underway (.inr rfl)⟩
    show Stored E M config cs seen latest storage
    rw [same]
    exact accounted.stored
  | committed ready c made sealed storage run =>
    have longer : c.Counted ∧ Accounted E M config (cs ++ [c]) (seen ++ [c]) (latest+1) { b with
        storage := storage
        pendingBlock := newPendingBlock E tick c.block
        latestEntropy := E.blockID c.block } := accounted_saved accounted sealed run tick rfl
    exact .saved c _ ready made longer.1 sealed rfl longer.2

/-- A reset finds the latest block and starts anew on it. -/
theorem reset_succeeds (stored : Stored E M config cs seen latest b.storage) (tick : Tick) :
    ∃ block, (Sqlite.backend E choices).latestBlock b.storage = .ok block ∧ resetPendingBlock E (Sqlite.backend E choices) tick b =
      (.ok (),{ b with pendingBlock := newPendingBlock E tick block }) := by
  obtain ⟨last,_,_,found⟩ := Sqlite.recorded_latestBlock choices stored.recorded (Nat.zero_le latest)
  have found : (Sqlite.backend E choices).latestBlock b.storage = .ok last.block := found
  refine ⟨last.block,found,?_⟩
  unfold resetPendingBlock readStorage
  rw [bind_run,attempt_run,found]
  rfl

theorem accounted_reset (stored : Stored E M config cs seen latest b.storage) (tick : Tick) :
    Accounted E M config cs seen latest (resetPendingBlock E (Sqlite.backend E choices) tick b).2 := by
  have done : ∃ block, (Sqlite.backend E choices).latestBlock b.storage = .ok block ∧
      resetPendingBlock E (Sqlite.backend E choices) tick b =
        (.ok (),{ b with pendingBlock := newPendingBlock E tick block }) := reset_succeeds stored tick
  obtain ⟨block,found,done⟩ := done
  rw [done]
  exact accounted_new stored tick found rfl rfl

theorem accounted_setClock (accounted : Accounted E M config cs seen latest b) (now : Time) :
    Accounted E M config cs seen latest (setClock now b).2 :=
  ⟨accounted.stored,underway_same accounted.underway ⟨rfl,rfl,rfl⟩ rfl rfl
    ⟨listed_moved accounted.underway.tracked.listed rfl rfl accounted.underway.tracked.listed.bound,
      accounted.underway.tracked.results⟩⟩

theorem accounted_setAutoMine (accounted : Accounted E M config cs seen latest b) (on : Bool) :
    Accounted E M config cs seen latest (setAutoMine on b).2 := ⟨accounted.stored,accounted.underway⟩

/-! ### Rollbacks and starts -/

/-- The store after a rollback to a block of the chain. -/
theorem stored_rolledBack {s t : Sqlite.Store} {height : Nat} (stored : Stored E M config cs seen latest s)
    (rolled : Sqlite.RolledBack E height s t) (below : height ≤ latest) :
    Stored E M config (cs.take (height+1)) seen height t := by
  have recorded := Sqlite.recorded_rolledBack stored.recorded rolled (Nat.zero_le _) below
  have archived := Sqlite.archived_rolledBack stored.archived rolled
  rw [chain_filter stored.recorded.chain] at archived
  refine ⟨recorded,rolled.db.trans stored.main,rolled.currentHeight.le,stored.linked.take _,archived,
    fun c here => stored.origin c (List.mem_of_mem_take here),?_⟩
  have parts : ((cs.take (height+1) ++ cs.drop (height+1)).flatMap BlockContents.userTransactions).Nodup := by
    rw [List.take_append_drop]
    exact stored.distinct
  rw [List.flatMap_append] at parts
  exact parts.of_append_left

/-- A rollback to a height below the current one cuts the chain. -/
theorem accounted_rollsBack (accounted : Accounted E M config cs seen latest b) (tick : Tick) {height : Nat}
    (above : height < b.storage.currentHeight) :
    height ≤ latest ∧ (rollbackToBlockHeight E M config (Sqlite.backend E choices) tick height b).1 = .ok () ∧
      (∃ block, (rollbackToBlockHeight E M config (Sqlite.backend E choices) tick height b).2.pendingBlock =
        newPendingBlock E tick block) ∧
      Accounted E M config (cs.take (height+1)) seen height
        (rollbackToBlockHeight E M config (Sqlite.backend E choices) tick height b).2 := by
  obtain ⟨storage,run,rolled⟩ := Sqlite.rollback_run E choices above
  have below : height ≤ latest := by have := accounted.stored.current; omega
  have stored := stored_rolledBack accounted.stored rolled below
  obtain ⟨last,here,lastHeight,found⟩ := Sqlite.recorded_latestBlock choices stored.recorded (Nat.zero_le height)
  rw [rollback_ok tick rfl run found]
  exact ⟨below,rfl,⟨last.block,rfl⟩,stored,underway_new tick here lastHeight⟩

/-- A rollback cuts the chain, or changes nothing. -/
theorem accounted_rollback (accounted : Accounted E M config cs seen latest b) (tick : Tick) (height : Nat) :
    rollbackToBlockHeight E M config (Sqlite.backend E choices) tick height b =
        (.error (.storage .rollbackHeight),b) ∨
      height ≤ latest ∧ (rollbackToBlockHeight E M config (Sqlite.backend E choices) tick height b).1 = .ok () ∧
        (∃ block, (rollbackToBlockHeight E M config (Sqlite.backend E choices) tick height b).2.pendingBlock =
          newPendingBlock E tick block) ∧
        Accounted E M config (cs.take (height+1)) seen height
          (rollbackToBlockHeight E M config (Sqlite.backend E choices) tick height b).2 := by
  by_cases above : height < b.storage.currentHeight
  · exact .inr (accounted_rollsBack accounted tick above)
  · rw [rollback_error tick rfl (Sqlite.rollback_refused (Nat.le_of_not_lt above))]
    exact .inl rfl

/-- The first start on an empty store. -/
theorem accounted_first {tick : Tick} {autoMine : Bool} {url : Sqlite.Url}
    (started : newBlockchain E M config (Sqlite.backend E choices) tick autoMine (Sqlite.fresh url) = .ok b) :
    ∃ writes events, M.bootstrap config.getChainID
        (fun id => (Sqlite.backend E choices).ledgerByHeight 0 id (Sqlite.fresh url)) = .ok (writes,events) ∧
      b.pendingBlock = newPendingBlock E tick (genesis M config.getChainID) ∧
      Accounted E M config [genesisContents M config writes events] [genesisContents M config writes events] 0 b := by
  have empty := Sqlite.fresh_database url
  obtain ⟨writes,events,bootstrapped,wrote,pending⟩ := first_wrote (Sqlite.fresh_tip E url) started
  refine ⟨writes,events,bootstrapped,pending,⟨Sqlite.recorded_first empty ⟨rfl,rfl⟩ rfl wrote,wrote.db,wrote.currentHeight.le,
    List.isChain_singleton _,?_,fun c only => ?_,List.nodup_nil⟩,?_⟩
  · refine Sqlite.archived_first empty (fun name => ?_) wrote
    cases name <;> rfl
  · rw [List.mem_singleton.mp only]
    exact .first writes events rfl
  · rw [pending]
    exact underway_new tick List.mem_cons_self rfl

/-- An emulator starts on an empty store whenever the ledger can be bootstrapped. -/
theorem starts (tick : Tick) (autoMine : Bool) (url : Sqlite.Url) {writes : WriteSet} {events : List Event}
    (bootstrapped : M.bootstrap config.getChainID
      (fun id => (Sqlite.backend E choices).ledgerByHeight 0 id (Sqlite.fresh url)) = .ok (writes,events)) :
    ∃ storage, newBlockchain E M config (Sqlite.backend E choices) tick autoMine (Sqlite.fresh url) =
        .ok ⟨storage,newPendingBlock E tick (genesis M config.getChainID),zeroID,autoMine⟩ ∧
      Accounted E M config [genesisContents M config writes events] [genesisContents M config writes events] 0
        ⟨storage,newPendingBlock E tick (genesis M config.getChainID),zeroID,autoMine⟩ := by
  have tip := Sqlite.fresh_tip E url
  have counted : (genesisContents M config writes events).Counted := ⟨rfl,rfl⟩
  obtain ⟨after,run,_⟩ := (Sqlite.commits_commitBlock E choices).wrote _ _ none counted tip
  have created := new_bootstrapped (E := E) tick autoMine (empty_latestBlock choices tip) bootstrapped run
  obtain ⟨_,_,again,_,accounted⟩ := accounted_first created
  rw [bootstrapped] at again
  cases again
  exact ⟨after,created,accounted⟩

end
end Chronicle
end FlowEmulator
