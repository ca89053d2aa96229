import FlowEmulator.Lookups

/-!
Scheduled transactions. The process transaction of a block asks for callbacks by
events, each with a number; the callbacks and the numbers are two lists that are
matched by position, and the numbers go through a text. In a session without
rollbacks every query for a number answers with the callback that was run for its
event, whichever index it goes through.
-/
namespace FlowEmulator.Scheduled
open FlowEmulator.Blockchain FlowEmulator.Chronicle FlowEmulator.Text
open FlowEmulator.Sqlite (Choices)

/-- The events that ask for a callback. -/
def pendingEvents (M : Machine) (chainID : ChainID) (events : List Event) : List Event :=
  events.filter fun event => event.type = M.pendingExecutionEventType chainID

/-- The texts of the numbers are those of the events that ask for a callback, in order. -/
theorem parseScheduledIDs_ok {M : Machine} {chainID : ChainID} {events : List Event} {texts : List Bytes}
    (parsed : parseScheduledIDs M chainID events = .ok texts) : ∃ ids : List UInt64,
      texts = ids.map (fun id => decimal id.toNat) ∧
      List.Forall₂ (fun event id => M.callbackID event = .ok id) (pendingEvents M chainID events) ids := by
  induction events generalizing texts with
  | nil =>
    cases parsed
    exact ⟨[],rfl,.nil⟩
  | cons event rest ih =>
    unfold parseScheduledIDs at parsed
    by_cases other : event.type = M.pendingExecutionEventType chainID
    · rw [if_neg (not_not.mpr other)] at parsed
      have kept : pendingEvents M chainID (event :: rest) = event :: pendingEvents M chainID rest :=
        List.filter_cons_of_pos (by simpa using other)
      rcases first : M.callbackID event with message | id
      · rw [first] at parsed
        cases parsed
      · rcases later : parseScheduledIDs M chainID rest with message | tail
        · rw [first,later] at parsed
          cases parsed
        · rw [first,later] at parsed
          cases parsed
          obtain ⟨ids,rfl,matched⟩ := ih later
          exact ⟨id :: ids,rfl,by rw [kept]; exact .cons first matched⟩
    · rw [if_pos other] at parsed
      have skipped : pendingEvents M chainID (event :: rest) = pendingEvents M chainID rest :=
        List.filter_cons_of_neg (by simpa using other)
      rw [skipped]
      exact ih parsed

/-- Every number comes back from its text. -/
theorem scanned_zip (ids : List UInt64) (txIDs : List Identifier) :
    scanned ((ids.map fun id => decimal id.toNat).zip txIDs) = (ids.map UInt64.toNat).zip txIDs := by
  induction ids generalizing txIDs with
  | nil => rfl
  | cons id rest ih =>
    cases txIDs with
    | nil => rfl
    | cons txID later =>
      show List.filterMap _ (_ :: _) = _
      rw [List.filterMap_cons,scanUint64_decimal id.toNat_lt]
      exact congrArg (_ :: ·) (ih later)

/-- In a block that was sealed the number of an event leads to the callback at
    the place of the event, when no other event of the block has that number. -/
theorem sealed_scheduled {E : Encoding} {M : Machine} {config : Config} {base : Registers} {p : PendingBlock}
    {process chunk : Execution} {callbacks : List Execution} {c : BlockContents}
    (sealed : Sealed E M config base p (process :: callbacks ++ [chunk]) c)
    (blueprint : ∀ events txs, M.executeCallbacksTransactions config.getChainID events = .ok txs →
      txs.length = (pendingEvents M config.getChainID events).length)
    {i : Nat} {event : Event} {id : UInt64}
    (here : (pendingEvents M config.getChainID process.output.events)[i]? = some event) (number : M.callbackID event = .ok id)
    (once : ∀ j other, (pendingEvents M config.getChainID process.output.events)[j]? = some other →
      M.callbackID other = .ok id → j = i) :
    ∃ run, callbacks[i]? = some run ∧ c.scheduledTransactionIDs.lookup id.toNat = some (E.transactionID run.tx) := by
  obtain ⟨before,last,parts,scheduled,_⟩ := sealed.order
  obtain ⟨rfl,_⟩ := List.append_inj' parts rfl
  unfold ScheduledOrder at scheduled
  split at scheduled
  · obtain ⟨_,_,texts,same,_,asked,parsed,collected⟩ := scheduled
    cases same
    obtain ⟨ids,rfl,matched⟩ := parseScheduledIDs_ok parsed
    have count : callbacks.length = (pendingEvents M config.getChainID process.output.events).length := by
      rw [← blueprint _ _ asked,List.length_map]
    obtain ⟨inEvents,_⟩ := List.getElem?_eq_some_iff.mp here
    have inside : i < callbacks.length := by rw [count]; exact inEvents
    have numbers (j : Nat) (inJ : j < (pendingEvents M config.getChainID process.output.events).length)
        (inIDs : j < ids.length) :
        M.callbackID (pendingEvents M config.getChainID process.output.events)[j] = .ok ids[j] := matched.get inJ inIDs
    refine ⟨callbacks[i],List.getElem?_eq_getElem inside,?_⟩
    rw [collected,scanned_zip]
    refine lookup_collect_zip ∅ (i := i) ?_ (by simp [transactionIDs,inside]) (fun j there => ?_)
    · have inIDs : i < ids.length := by rw [← matched.length_eq]; exact inEvents
      have read := numbers i inEvents inIDs
      obtain ⟨_,rfl⟩ := List.getElem?_eq_some_iff.mp here
      rw [number] at read
      rw [List.getElem?_map,List.getElem?_eq_getElem inIDs,Except.ok.inj read]
      rfl
    · rw [List.getElem?_map] at there
      obtain ⟨again,atJ,same⟩ := Option.map_eq_some_iff.mp there
      obtain ⟨inIDs,rfl⟩ := List.getElem?_eq_some_iff.mp atJ
      have inJ : j < (pendingEvents M config.getChainID process.output.events).length := by
        rw [matched.length_eq]
        exact inIDs
      refine once j _ (List.getElem?_eq_getElem inJ) ?_
      rw [numbers j inJ inIDs,UInt64.toNat_inj.mp same]
  · exact absurd scheduled.1 (List.cons_ne_nil _ _)

/-- What the queries answer for the number of a scheduled transaction that was run in a block. -/
structure Answers {σ : Type} (E : Encoding) (M : Machine) (config : Config) (B : Backend σ) (b : Blockchain σ) (block : Block)
    (id : Nat) (run : Execution) : Prop where
  transaction : getScheduledTransaction E M config B id b = .ok run.tx
  transactionByBlock : getScheduledTransactionByBlockID E M config B id (E.blockID block) b = .ok run.tx
  listed : ∃ systemTxs, B.systemTransactionsForBlockID (E.blockID block) b.storage = .ok systemTxs ∧
    E.transactionID run.tx ∈ systemTxs.transactions
  result : getScheduledTransactionResult B id b = .ok (resultOf E block zeroID run)
  resultByBlock : getScheduledTransactionResultByBlockID B id (E.blockID block) b = .ok (resultOf E block zeroID run)
  systemResult : getSystemTransactionResult B (E.transactionID run.tx) (E.blockID block) b = .ok (resultOf E block zeroID run)
  transactionResult : getTransactionResult B (E.transactionID run.tx) b = .ok (resultOf E block zeroID run)

/-- A number is processed in one block only, a scheduled transaction has an
    identifier of its own, and no transaction of users has that of a system
    transaction. The zero identifier, which stands for the last system transaction
    in queries, is no identifier of a scheduled one. -/
structure Separate (E : Encoding) (M : Machine) (config : Config) (seen : List BlockContents) : Prop where
  numbers : ∀ c ∈ seen, ∀ d ∈ seen, ∀ id ∈ c.scheduledTransactionIDs, id ∈ d.scheduledTransactionIDs →
    d.block.height = c.block.height
  scheduled : ∀ c ∈ seen, ∀ id txID, c.scheduledTransactionIDs.lookup id = some txID → txID ≠ zeroID ∧
    static E M config txID = false ∧ ∀ d ∈ seen, txID ∈ d.systemTransactions → d.block.height = c.block.height
  users : ∀ c ∈ seen, ∀ txID ∈ c.systemTransactions, ∀ d ∈ seen, txID ∉ d.userTransactions

section
variable {E : Encoding} {M : Machine} {config : Config} {choices : Choices} {seen : List BlockContents} {latest : Nat}
  {b : Blockchain Sqlite.Store} (accounted : Accounted E M config seen seen latest b)
  (separate : Separate E M config seen) {c : BlockContents} (here : c ∈ seen)
include accounted separate here

/-- The transaction that is found for a scheduled one is the one that was run. -/
theorem accounted_scheduledTransaction {id : Nat} {txID : Identifier} {tx : TransactionBody}
    (scheduled : c.scheduledTransactionIDs.lookup id = some txID) (body : c.systemTransactionBodies.lookup txID = some tx) :
    getTransaction E M config (Sqlite.backend E choices) txID b = .ok tx := by
  have stored := accounted.stored
  have inside : txID ∈ c.systemTransactionBodies := AList.lookup_isSome.mp (Option.isSome_iff_exists.mpr ⟨tx,body⟩)
  have system := ((stored_filled stored here).system txID).mp inside
  have absent : b.pendingBlock.transactions.lookup txID = none := by
    rw [AList.lookup_eq_none,accounted.underway.tracked.listed.keys]
    exact accounted_outside accounted here (.inr system)
  have found : (Sqlite.backend E choices).transactionByID txID b.storage = .ok tx := by
    obtain ⟨d,there,other,origin,read⟩ := Sqlite.archived_transaction choices stored.archived here (.inr inside)
    have filled := stored_filled stored there
    have member {V : Type} {map : GoMap Identifier V} {value : V} (at_id : map.lookup txID = some value) : txID ∈ map :=
      AList.lookup_isSome.mp (Option.isSome_iff_exists.mpr ⟨value,at_id⟩)
    rcases origin with user | again
    · exact absurd ((filled.transactions txID).mp (member user)) (separate.users c here txID system d there)
    · have height := (separate.scheduled c here id txID scheduled).2.2 d there ((filled.system txID).mp (member again))
      obtain rfl := chain_height_inj stored.recorded.chain there here height
      rw [body] at again
      cases again
      exact read
  unfold getTransaction
  rw [absent]
  dsimp only
  rw [found]

theorem accounted_answers (collisionFree : CollisionFree E seen) {id : Nat} {run : Execution}
    (scheduled : c.scheduledTransactionIDs.lookup id = some (E.transactionID run.tx))
    (body : c.systemTransactionBodies.lookup (E.transactionID run.tx) = some run.tx)
    (result : c.systemTransactionResults.lookup (E.transactionID run.tx) =
      some (toStorableResult run.output (E.blockID c.block) c.block.height zeroID)) :
    Answers E M config (Sqlite.backend E choices) b c.block id run := by
  have stored := accounted.stored
  have filled := stored_filled stored here
  have inBodies : E.transactionID run.tx ∈ c.systemTransactionBodies :=
    AList.lookup_isSome.mp (Option.isSome_iff_exists.mpr ⟨run.tx,body⟩)
  have system := (filled.system _).mp inBodies
  obtain ⟨proper,dynamic,only⟩ := separate.scheduled c here id _ scheduled
  have number : id ∈ c.scheduledTransactionIDs := AList.lookup_isSome.mp (Option.isSome_iff_exists.mpr ⟨_,scheduled⟩)
  have blockID : (Sqlite.backend E choices).blockIDByScheduledTransactionID id b.storage = .ok (E.blockID c.block) :=
    Sqlite.archived_scheduled choices stored.archived here number (fun d there => separate.numbers c here d there id number)
  have record : (Sqlite.backend E choices).systemTransactionsForBlockID (E.blockID c.block) b.storage =
      .ok ⟨E.blockID c.block,c.systemTransactions,c.scheduledTransactionIDs⟩ :=
    stored_systemTransactions choices stored collisionFree here (List.ne_nil_of_mem system)
  have index : (Sqlite.backend E choices).scheduledTransactionBlockIDByTxID (E.transactionID run.tx) b.storage =
      .ok (E.blockID c.block) := by
    refine Sqlite.archived_scheduledBlock choices stored.archived here ((filled.systemResults _).mpr system) dynamic
      (fun d there member => only d there (((stored_filled stored there).systemResults _).mp member))
  have transaction : getTransaction E M config (Sqlite.backend E choices) (E.transactionID run.tx) b = .ok run.tx :=
    accounted_scheduledTransaction accounted separate here scheduled body
  have answer : Blockchain.systemResult (Sqlite.backend E choices) (E.blockID c.block) (E.transactionID run.tx) b =
      .ok (resultOf E c.block zeroID run) := by
    unfold Blockchain.systemResult
    rw [stored_systemResult choices stored collisionFree here result]
    rfl
  refine ⟨(ofScheduled_ok record _ blockID scheduled).trans transaction,
    (ofScheduledByBlockID_ok record _ scheduled).trans transaction,⟨_,record,system⟩,
    (ofScheduled_ok record _ blockID scheduled).trans answer,(ofScheduledByBlockID_ok record _ scheduled).trans answer,
    (ofSystemTransaction_ok record _ proper system).trans answer,?_⟩
  rw [accounted_stored choices accounted (accounted_outside accounted here (.inr system)),
    stored_noResult choices stored (fun d there => separate.users c here _ system d there),index]
  exact answer

end

/-- In every session without rollbacks each block above the first was sealed, and
    for each event of its process transaction that asks for a callback under a
    number of its own all queries answer with the callback at the place of the event. -/
theorem scheduled_lookups_agree {E : Encoding} {M : Machine} {config : Config} {choices : Choices} {x : Session}
    (served : Served E M config choices x) (collisionFree : CollisionFree E x.seen) (separate : Separate E M config x.seen)
    (blueprint : ∀ events txs, M.executeCallbacksTransactions config.getChainID events = .ok txs →
      txs.length = (pendingEvents M config.getChainID events).length) :
    ∀ c ∈ x.seen, 0 < c.block.height → (∃ base p runs, Sealed E M config base p runs c) ∧
      ∀ base p process callbacks chunk, Sealed E M config base p (process :: callbacks ++ [chunk]) c →
        ∀ (i : Nat) event id, (pendingEvents M config.getChainID process.output.events)[i]? = some event →
          M.callbackID event = .ok id →
          (∀ j other, (pendingEvents M config.getChainID process.output.events)[j]? = some other →
            M.callbackID other = .ok id → j = i) →
          ∃ run, callbacks[i]? = some run ∧ Answers E M config (Sqlite.backend E choices) x.emulator c.block id.toNat run := by
  obtain ⟨latest,accounted⟩ := served_accounted served
  intro c here above
  refine ⟨?_,fun base p process callbacks chunk sealed i event id place number once => ?_⟩
  · cases accounted.stored.origin c here with
    | first writes events same =>
      subst same
      exact absurd above (Nat.lt_irrefl 0)
    | sealed base p runs tracked sealed => exact ⟨base,p,runs,sealed⟩
  · have distinct := (sealed_systemCount sealed).mp (chain_counted accounted.stored.recorded.chain c here).2
    obtain ⟨run,atPlace,scheduled⟩ := sealed_scheduled sealed blueprint place number once
    have member : run ∈ process :: callbacks ++ [chunk] :=
      List.mem_append_left _ (List.mem_cons_of_mem _ (List.mem_of_getElem? atPlace))
    exact ⟨run,atPlace,accounted_answers accounted separate here collisionFree scheduled
      (sealed_systemBody sealed distinct member) (sealed_systemResult sealed distinct member)⟩

open FlowEmulator.Samples in
theorem sample_separate {start : Session} {c : BlockContents} (sample : SampleBlock start c) :
    Separate numberEncoding scheduler scheduledConfig (sampleCommitted start).seen := by
  rw [sample.seen]
  have either {d : BlockContents} (here : d ∈ [genesisContents scheduler scheduledConfig ∅ [],c]) :
      d = genesisContents scheduler scheduledConfig ∅ [] ∨ d = c :=
    (List.mem_cons.mp here).imp_right List.mem_singleton.mp
  refine ⟨fun d here e there id left right => ?_,fun d here id txID found => ?_,fun d here txID member e there => ?_⟩
  · rcases either here with rfl | rfl
    · exact absurd left (AList.notMem_empty id)
    · rcases either there with rfl | rfl
      · exact absurd right (AList.notMem_empty id)
      · rfl
  · rcases either here with rfl | rfl
    · cases found
    · rw [sample.scheduled] at found
      have only : txID = digest 2 := by
        have entry := AList.mem_lookup_iff.mp found
        cases List.mem_singleton.mp entry
        rfl
      subst only
      refine ⟨by decide,by decide,fun e there member => ?_⟩
      rcases either there with rfl | rfl
      · cases member
      · rfl
  · rcases either here with rfl | rfl
    · cases member
    · rcases either there with rfl | rfl
      · exact List.not_mem_nil
      · rw [sample.system] at member
        rw [sample_userTransactions sample]
        have apart : ∀ id ∈ [digest 1,digest 2,digest 3], id ∉ [digest 10] := by decide
        exact apart txID member

open FlowEmulator.Samples in
theorem scheduled_lookups_agree_sample : ∃ x c run, Served numberEncoding scheduler scheduledConfig .earliest x ∧
    CollisionFree numberEncoding x.seen ∧ Separate numberEncoding scheduler scheduledConfig x.seen ∧ c ∈ x.seen ∧
    0 < c.block.height ∧
    Answers numberEncoding scheduler scheduledConfig (Sqlite.backend numberEncoding .earliest) x.emulator c.block 7 run := by
  obtain ⟨start,c,sample⟩ := sample_committed
  obtain ⟨base,process,callback,chunk,sealed,events⟩ := sample.runs
  have served : Served numberEncoding scheduler scheduledConfig .earliest (sampleCommitted start) :=
    ⟨start,[.addTransaction (numbered 10),.executeNextTransaction,.commitBlock tick],sample.started,rfl⟩
  have collisionFree := sample_collisionFree sample
  have separate := sample_separate sample
  have here := sample_member sample
  have above : 0 < c.block.height := by
    rw [sample_height sample]
    exact Nat.one_pos
  have blueprint (events : List Event) (txs : List TransactionBody)
      (asked : scheduler.executeCallbacksTransactions scheduledConfig.getChainID events = .ok txs) :
      txs.length = (pendingEvents scheduler scheduledConfig.getChainID events).length := by
    cases asked
    exact List.length_map ..
  have pending : pendingEvents scheduler scheduledConfig.getChainID process.output.events =
      [⟨"pending",digest 1,1,0,[]⟩] := by
    rw [events]
    rfl
  obtain ⟨run,_,answers⟩ := (scheduled_lookups_agree served collisionFree separate blueprint c here above).2
    base samplePending process [callback] chunk sealed 0 ⟨"pending",digest 1,1,0,[]⟩ 7 (by rw [pending]; rfl) rfl
    (fun j other place _ => by
      rw [pending] at place
      obtain ⟨inside,_⟩ := List.getElem?_eq_some_iff.mp place
      exact Nat.lt_one_iff.mp inside)
  exact ⟨_,c,run,served,collisionFree,separate,here,above,answers⟩

end FlowEmulator.Scheduled
