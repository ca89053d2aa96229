import FlowEmulator.Production
import FlowEmulator.StatusStream

/-!
The last update of a status stream, beside the result of the transaction that
clients can ask for. The update is built anew from some fields of that result,
and its status is always sealed. So it is the result exactly if the store has one
and it is not the one of a failed transaction.
-/
namespace FlowEmulator.StatusStream
open FlowEmulator.Blockchain FlowEmulator.Chronicle
open FlowEmulator.Sqlite (Choices)

section
variable {σ : Type} (B : Backend σ)

/-- What the store has for a transaction: its result, or the one in the block the index names for it. -/
def storedResult (id : Identifier) (b : Blockchain σ) : Option StorableTransactionResult :=
  match B.transactionResultByID id b.storage with
  | .ok stored => some stored
  | .error .notFound => match B.scheduledTransactionBlockIDByTxID id b.storage with
    | .ok blockID => match B.systemTransactionResultByID blockID id b.storage with
      | .ok stored => some stored
      | .error _ => none
    | .error _ => none
  | .error _ => none

variable (toJson : Event → Except String Event) (sub : Subscription) (b : Blockchain σ)

/-- An update of the stream is the result of the transaction, with the events in the encoding of the stream. -/
def Agrees (update : AccessTransactionResult) : Prop :=
  ∃ result events, getTransactionResult B sub.txID b = .ok result ∧
    convertEvents toJson sub.version result.events = .ok events ∧ update = { result with events := events }

end

section
variable {σ : Type} {B : Backend σ} {toJson : Event → Except String Event} {sub : Subscription} {b : Blockchain σ}
  {lastStatus : TransactionStatus} {height : Nat}

/-- What is reported for a transaction that is not pending is what the store has. -/
theorem getTransactionResult_stored {id : Identifier} (outside : b.pendingBlock.containsTransaction id = false)
    {result : AccessTransactionResult} (reported : getTransactionResult B id b = .ok result) :
    result = match storedResult B id b with
      | some stored => sealedResult id stored
      | none => { status := .unknown } := by
  simp only [getTransactionResult,outside,Bool.false_eq_true,if_false,systemResult] at reported
  unfold storedResult
  generalize B.transactionResultByID id b.storage = own at reported ⊢
  cases own with
  | ok stored => cases reported; rfl
  | error e =>
    cases e with
    | notFound =>
      dsimp only at reported ⊢
      generalize B.scheduledTransactionBlockIDByTxID id b.storage = index at reported ⊢
      cases index with
      | error _ => cases reported; rfl
      | ok blockID =>
        dsimp only at reported ⊢
        generalize B.systemTransactionResultByID blockID id b.storage = system at reported ⊢
        cases system with
        | ok stored => cases reported; rfl
        | error e =>
          cases e with
          | notFound => cases reported; rfl
          | _ => cases reported
    | _ => cases reported

/-- A sealed update is built from the result that is reported. -/
theorem sealed_update {update : AccessTransactionResult}
    (sent : update ∈ emitted (getTransactionStatusResponse toJson B sub height b lastStatus).1) (final : update.status = .sealed) :
    ∃ result events, getTransactionResult B sub.txID b = .ok result ∧
      convertEvents toJson sub.version result.events = .ok events ∧
      update = statusUpdate { result with events := events } .sealed := by
  unfold getTransactionStatusResponse at sent
  split at sent
  · cases sent
  split at sent
  · cases sent
  split at sent
  · split at sent
    · simp only [emitted,List.mem_singleton] at sent
      rw [sent] at final
      cases final
    · cases sent
  next result reported =>
  split at sent
  · cases sent
  next events converted =>
  refine ⟨result,events,reported,converted,?_⟩
  split at sent
  · unfold generateTransactionStatusUpdates at sent
    split at sent
    · cases sent
    · obtain ⟨status,_,rfl⟩ := List.mem_map.mp sent
      rw [statusUpdate_status] at final
      rw [final]
  · cases sent

/-- A sealed update for a transaction that is not pending is its result exactly if
    the store has a result for it, and not the one of a failure. -/
theorem agrees_iff (outside : b.pendingBlock.containsTransaction sub.txID = false) {update : AccessTransactionResult}
    (sent : update ∈ emitted (getTransactionStatusResponse toJson B sub height b lastStatus).1) (final : update.status = .sealed) :
    Agrees B toJson sub b update ↔ ∃ stored, storedResult B sub.txID b = some stored ∧ stored.errorCode ≤ 0 := by
  obtain ⟨result,events,reported,converted,rfl⟩ := sealed_update sent final
  have shape := getTransactionResult_stored outside reported
  constructor
  · rintro ⟨again,others,reads,_,same⟩
    rw [reported] at reads
    cases reads
    cases found : storedResult B sub.txID b with
    | none =>
      rw [found] at shape
      rw [shape] at same
      cases congrArg AccessTransactionResult.status same
    | some stored =>
      rw [found] at shape
      rw [shape] at same
      have code : 0 = if 0 < stored.errorCode then 1 else 0 := congrArg AccessTransactionResult.statusCode same
      refine ⟨stored,rfl,?_⟩
      by_contra positive
      simp [Int.not_le.mp positive] at code
  · rintro ⟨stored,found,succeeded⟩
    rw [found] at shape
    refine ⟨result,events,reported,converted,?_⟩
    rw [shape]
    simp [statusUpdate,sealedResult,Int.not_lt.mpr succeeded,number,statuses]

end

section
variable {E : Encoding} {M : Machine} {config : Config} {choices : Choices}

variable (E M config choices) in
/-- What holds of the sealed updates of any stream for the transactions of a block:
    an update is the result of the transaction exactly if the store has a result for
    it that is not the one of a failure. The result of a transaction of users is the
    one of its block; a system transaction that is the same in every block has none. -/
structure Finals (x : Session) (c : BlockContents) (sub : Subscription) : Prop where
  updates : ∀ toJson height lastStatus update,
    update ∈ emitted (getTransactionStatusResponse toJson (Sqlite.backend E choices) sub height x.emulator lastStatus).1 →
    update.status = .sealed → (Agrees (Sqlite.backend E choices) toJson sub x.emulator update ↔
      ∃ stored, storedResult (Sqlite.backend E choices) sub.txID x.emulator = some stored ∧ stored.errorCode ≤ 0)
  users : sub.txID ∈ c.userTransactions →
    storedResult (Sqlite.backend E choices) sub.txID x.emulator = c.transactionResults.lookup sub.txID
  repeated : (∀ d ∈ x.seen, sub.txID ∉ d.userTransactions) → static E M config sub.txID = true →
    storedResult (Sqlite.backend E choices) sub.txID x.emulator = none

/-- In every session, for every block that is stored and every transaction in it. -/
theorem sealed_update_agrees_iff {x : Session} (reached : Chronicle.Reached E M config choices (fun _ _ => True) x)
    {height : Nat} {block : Block} (committed : (Sqlite.backend E choices).blockByHeight height x.emulator.storage = .ok block) :
    ∃ c ∈ x.seen, c.block = block ∧ ∀ sub : Subscription, sub.txID ∈ c.userTransactions ∨ sub.txID ∈ c.systemTransactions →
      Finals E M config choices x c sub := by
  obtain ⟨cs,latest,accounted⟩ := reached_chained reached
  obtain ⟨c,known,rfl,place⟩ := stored_found accounted.stored committed
  have here := List.mem_of_getElem? place
  refine ⟨c,known,rfl,fun sub member => ⟨fun toJson asked lastStatus update sent final => ?_,fun user => ?_,
    fun unsent fixed => ?_⟩⟩
  · refine agrees_iff ?_ sent final
    have outside := accounted_outside accounted here member
    rw [← listed_contains accounted.underway.tracked.listed] at outside
    simpa using outside
  · have inside := ((stored_filled accounted.stored here).results sub.txID).mpr user
    obtain ⟨result,found⟩ := Option.isSome_iff_exists.mp (AList.lookup_isSome.mpr inside)
    rw [found,storedResult,stored_result choices accounted.stored here found]
  · have missing : (Sqlite.backend E choices).transactionResultByID sub.txID x.emulator.storage = .error .notFound :=
      stored_noResult choices accounted.stored fun d there => unsent d (accounted.stored.archived.known d there)
    have unindexed : (Sqlite.backend E choices).scheduledTransactionBlockIDByTxID sub.txID x.emulator.storage = .error .notFound :=
      Sqlite.archived_noScheduledBlock choices accounted.stored.archived fun d _ ⟨_,dynamic⟩ => by simp [fixed] at dynamic
    rw [storedResult,missing]
    simp only [unindexed]

end

section
open FlowEmulator.Samples

/-- A machine on which the transactions of users fail. -/
def revertingMachine : Machine :=
  { machine with
    run := fun context _ _ _ =>
      .ok (∅,⟨[],[],0,0,if context.kind = .user then some ⟨1101,"reverted"⟩ else none⟩) }

/-- What a failed transaction of users leaves. -/
def reverted : ProcedureOutput := ⟨[],[],0,0,some ⟨1101,"reverted"⟩⟩

/-- A transaction that failed, in a block that was committed. -/
theorem reverted_committed : ∃ x c, Chronicle.Reached numberEncoding revertingMachine config .earliest (fun _ _ => True) x ∧
    Accounted numberEncoding revertingMachine config x.seen x.seen 1 x.emulator ∧ c ∈ x.seen ∧ c.block.height = 1 ∧
    c.transactionResults.lookup (digest 10) = some (toStorableResult reverted (digest 1) 1 (digest 1)) := by
  have bootstrapped (registers : Registers) : revertingMachine.bootstrap config.getChainID registers = .ok (∅,[]) := rfl
  have ran (header : Block) (registers : Registers) : revertingMachine.run ⟨.user,header,zeroID⟩ (numbered 10) 0 registers =
      .ok (∅,reverted) := rfl
  obtain ⟨storage,created,added,executed,accounted⟩ := sample_ran (E := numberEncoding) bootstrapped (numbered 10)
    (fun _ _ => rfl) ran rfl
  obtain ⟨c,made,counted,block,found⟩ : ∃ c, (sealBlock numberEncoding revertingMachine config
      (Sqlite.backend numberEncoding .earliest) ⟨storage,executedPending numberEncoding revertingMachine config (numbered 10)
        reverted,zeroID,false⟩).1 = .ok c ∧ c.Counted ∧ c.block.height = 1 ∧
      c.transactionResults.lookup (digest 10) = some (toStorableResult reverted (digest 1) 1 (digest 1)) := by
    have ended : (attempted numberEncoding revertingMachine config (Sqlite.backend numberEncoding .earliest)
        ⟨storage,executedPending numberEncoding revertingMachine config (numbered 10) reverted,zeroID,false⟩).2 = .ok (_,_) := rfl
    have sealed := sealed_attempted ended
    refine ⟨_,rfl,(sealed_counted accounted.underway.tracked.listed sealed).mpr ⟨rfl,List.nodup_singleton _⟩,rfl,?_⟩
    rfl
  let start : Session := ⟨⟨storage,newPendingBlock numberEncoding tick (genesis revertingMachine .emulator),zeroID,false⟩,
    [genesisContents revertingMachine config ∅ []],[],false⟩
  let ready : Session := take numberEncoding revertingMachine config .earliest .executeNextTransaction
    (take numberEncoding revertingMachine config .earliest (.addTransaction (numbered 10)) start)
  have emulator : ready.emulator = ⟨storage,executedPending numberEncoding revertingMachine config (numbered 10) reverted,zeroID,
    false⟩ := executed
  rw [← emulator] at accounted made
  have after := accounted_take_commit (x := ready) accounted tick (by rw [emulator]; rfl) made counted
  obtain ⟨seen,_,_,longer⟩ := after
  refine ⟨take numberEncoding revertingMachine config .earliest (.commitBlock tick) ready,c,?_,?_,?_,block,found⟩
  · exact ⟨start,[.request (.addTransaction (numbered 10)),.request .executeNextTransaction,.request (.commitBlock tick)],
      ⟨.inMemory,tick,false,∅,[],created,bootstrapped _,rfl,rfl,rfl⟩,
      ⟨⟨trivial,trivial⟩,⟨trivial,trivial⟩,⟨trivial,trivial⟩,trivial⟩,rfl⟩
  · rw [seen]
    exact longer
  · rw [seen]
    exact List.mem_append_right _ List.mem_cons_self

/-- The update of the sample stream when the transaction is reported. -/
theorem sample_update {b : Blockchain Sqlite.Store} (ready : validateHeight (Sqlite.backend numberEncoding .earliest) 1 b = .ok ())
    {result : AccessTransactionResult}
    (reported : getTransactionResult (Sqlite.backend numberEncoding .earliest) (digest 10) b = .ok result) :
    statusUpdate result .sealed ∈ emitted (getTransactionStatusResponse .ok (Sqlite.backend numberEncoding .earliest)
      sampleSubscription 1 b .unknown).1 := by
  have answer : getTransactionStatusResponse .ok (Sqlite.backend numberEncoding .earliest) sampleSubscription 1 b .unknown =
    _ := response_reported ready reported
  rw [answer]
  exact List.mem_map.mpr ⟨.sealed,by decide,rfl⟩

/-- The last update for a transaction that failed has the code of a success. -/
theorem failed_update_without_code : ∃ x update result,
    Chronicle.Reached numberEncoding revertingMachine config .earliest (fun _ _ => True) x ∧
    update ∈ emitted (getTransactionStatusResponse .ok (Sqlite.backend numberEncoding .earliest) sampleSubscription 1
      x.emulator .unknown).1 ∧
    getTransactionResult (Sqlite.backend numberEncoding .earliest) (digest 10) x.emulator = .ok result ∧
    update.status = .sealed ∧ result.status = .sealed ∧ update.statusCode = 0 ∧ result.statusCode = 1 := by
  obtain ⟨x,c,reached,accounted,here,height,found⟩ := reverted_committed
  have reported := accounted_sealed .earliest accounted here found
  have ready : validateHeight (Sqlite.backend numberEncoding .earliest) 1 x.emulator = .ok () :=
    (accounted_validateHeight accounted 1).2 fun above => by simpa [height] using above c here
  exact ⟨x,_,_,reached,sample_update ready reported,reported,rfl,rfl,rfl,rfl⟩

theorem sealed_update_agrees_iff_sample : ∃ x update,
    Chronicle.Reached numberEncoding scheduler scheduledConfig .earliest (fun _ _ => True) x ∧
    update ∈ emitted (getTransactionStatusResponse .ok (Sqlite.backend numberEncoding .earliest) sampleSubscription 1
      x.emulator .unknown).1 ∧
    Agrees (Sqlite.backend numberEncoding .earliest) .ok sampleSubscription x.emulator update := by
  obtain ⟨start,c,sample⟩ := sample_committed
  have reached := sample_reached_any sample
  obtain ⟨d,there,same,finals⟩ := sealed_update_agrees_iff reached (sample_stored sample)
  have own : d = c := by
    rw [sample.seen,List.mem_cons,List.mem_singleton] at there
    refine there.resolve_left fun first => ?_
    have height := sample_height sample
    rw [← same,first] at height
    cases height
  subst own
  obtain ⟨_,_,_,_,sealed,_⟩ := sample.runs
  have found : d.transactionResults.lookup (digest 10) = some (toStorableResult ⟨[],[],0,0,none⟩ (digest 1) 1 (digest 1)) := by
    rw [sealed.transactionResults,convert_lookup]
    rfl
  have user : digest 10 ∈ d.userTransactions := by
    rw [sample_userTransactions sample]
    exact List.mem_cons_self
  have agree := finals sampleSubscription (.inl user)
  have reported := accounted_sealed .earliest sample.accounted (List.mem_cons_of_mem _ List.mem_cons_self) found
  have ready : validateHeight (Sqlite.backend numberEncoding .earliest) 1 (sampleCommitted start).emulator = .ok () :=
    (accounted_validateHeight sample.accounted 1).2 fun above => by
      simpa [sample_height sample] using above d (List.mem_cons_of_mem _ List.mem_cons_self)
  have sent := sample_update ready reported
  exact ⟨_,_,reached,sent,(agree.updates _ _ _ _ sent rfl).mpr ⟨_,(agree.users user).trans found,Int.le_refl 0⟩⟩

end
end FlowEmulator.StatusStream
