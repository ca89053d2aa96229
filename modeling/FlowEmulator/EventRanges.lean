import FlowEmulator.EventQueries
import FlowEmulator.LocalStores

/-!
The query of events for a range of heights on a chain. Above the latest block
the lookup of a height fails, which ends the loop also where the range goes on up
to the last height there is; below it every height has its block and its events.
So the query ends and its answer is exact (`getEventsForHeightRange_exact`).
-/
namespace FlowEmulator.EventQueries
open FlowEmulator.Fallible FlowEmulator.Rounds FlowEmulator.DefaultStore

/-- The entry is for the block of a height, with the events of the type among those stored at the height. -/
structure EntryAt {σ : Type} (E : Encoding) (S : Store σ) (eventType : String) (s : σ) (height : Nat) (entry : BlockEvents) :
    Prop where
  block : ∃ block, S.blockByHeight height s = .ok block ∧ entry.blockID = E.blockID block ∧
    entry.blockTimestamp = unixMilli block.timestamp
  blockHeight : entry.blockHeight = height
  events : ∃ events, S.eventsByHeight height "" s = .ok events ∧ entry.events = eventsOfType eventType events

section
variable {σ : Type} {E : Encoding} {S : Store σ} {eventType : String} {latest : Nat} {s : σ}

/-- The reads for a height of the chain give its entry. -/
theorem eventsForHeight_found (chain : HasChain S latest s) {height : Nat} (low : height ≤ latest) :
    ∃ entry, eventsForHeight E (Reader.of S) eventType height s = (.ok entry,s) ∧ EntryAt E S eventType s height entry := by
  obtain ⟨block,blockRead,same⟩ := chain.found height low
  obtain ⟨events,eventsRead⟩ := chain.events height
  have readBlock : (Reader.of S).blockByHeight height s = (.ok block,s) := congrArg (·,s) blockRead
  have readEvents : (Reader.of S).eventsByHeight height eventType s = (.ok (eventsOfType eventType events),s) :=
    congrArg (·,s) (eventsRead eventType)
  refine ⟨entryOf E block (eventsOfType eventType events),?_,⟨block,blockRead,rfl,by rw [entryOf]⟩,same,events,?_,rfl⟩
  · unfold eventsForHeight
    rw [bind_ok (noting_ok.mpr readBlock),bind_ok (noting_ok.mpr readEvents)]
    rfl
  · rw [eventsRead "",eventsOfType_all]

/-- The reads for a height above the chain fail. -/
theorem eventsForHeight_above (chain : HasChain S latest s) {height : Nat} (above : latest < height) :
    eventsForHeight E (Reader.of S) eventType height s = (.error (.blockByHeight height .notFound),s) := by
  have read : (Reader.of S).blockByHeight height s = (.error .notFound,s) := congrArg (·,s) (chain.above height above)
  unfold eventsForHeight
  rw [bind_error (noting_error read)]

/-- With more turns than there are heights the loop ends, and it has an entry for each of them. -/
theorem heightLoop_exact (chain : HasChain S latest s) (small : latest < 2^64-1) {startHeight endHeight : UInt64}
    {bound : Nat} (enough : (heightsUpTo latest startHeight endHeight).length < bound) :
    HasReturned E (Reader.of S) eventType startHeight endHeight bound s ∧
      List.Forall₂ (EntryAt E S eventType s) (heightsUpTo latest startHeight endHeight)
        (heightLoop E (Reader.of S) eventType endHeight bound (startHeight,s)).results := by
  induction bound generalizing startHeight with
  | zero => cases enough
  | succ bound ih =>
    unfold HasReturned
    by_cases go : startHeight.toNat ≤ endHeight.toNat
    · by_cases low : startHeight.toNat ≤ latest
      · have found : ∃ entry, eventsForHeight E (Reader.of S) eventType startHeight.toNat s = (.ok entry,s) ∧
            EntryAt E S eventType s startHeight.toNat entry := eventsForHeight_found chain low
        obtain ⟨entry,run,here⟩ := found
        have heights := heightsUpTo_cons (by omega) go low
        rw [heights,List.length_cons] at enough
        obtain ⟨returned,entries⟩ := ih (Nat.lt_of_succ_lt_succ enough)
        rw [heightLoop_ok go run,heights]
        exact ⟨returned,.cons here entries⟩
      · rw [heightLoop_error go (eventsForHeight_above chain (by omega)),heightsUpTo_nil (by omega)]
        exact ⟨.inl rfl,.nil⟩
    · have past : endHeight.toNat < startHeight.toNat := Nat.not_le.mp go
      rw [heightLoop_stop past,heightsUpTo_nil (by omega)]
      exact ⟨.inr (inRange_past.mpr past),.nil⟩

/-- On a chain whose latest height is not the last height there is, the query has
    returned after more turns than there are heights up to the latest, and it
    returns the entry of each of these heights in order. -/
theorem getEventsForHeightRange_chain (chain : HasChain S latest s) (small : latest < 2^64-1) (eventType : String)
    (startHeight endHeight : UInt64) {bound : Nat} (enough : (heightsUpTo latest startHeight endHeight).length < bound) :
    HasReturned E (Reader.of S) eventType startHeight endHeight bound s ∧
      (getEventsForHeightRange E (Reader.of S) eventType startHeight endHeight bound s).1.err = none ∧
      List.Forall₂ (EntryAt E S eventType s) (heightsUpTo latest startHeight endHeight)
        (getEventsForHeightRange E (Reader.of S) eventType startHeight endHeight bound s).1.result := by
  obtain ⟨returned,entries⟩ := heightLoop_exact chain small enough
  exact ⟨returned,rfl,entries⟩

end

/-- In every emulator that is reached over a local store, the query of a range
    ends and returns the entry of each height up to the latest, in order. -/
theorem getEventsForHeightRange_exact {τ : Type} {E : Encoding} {M : Machine} {config : Config} {store : Local τ}
    {b : Blockchain store.Storage} (reached : Local.Reached E M config store b) {tip : Block}
    (latest : (store.backend E).latestBlock b.storage = .ok tip) (small : tip.height < 2^64-1) (eventType : String)
    (startHeight endHeight : UInt64) (bound : Nat) (enough : (heightsUpTo tip.height startHeight endHeight).length < bound) :
    HasReturned E (Reader.of (store.backend E).toStore) eventType startHeight endHeight bound b.storage ∧
      (getEventsForHeightRange E (Reader.of (store.backend E).toStore) eventType startHeight endHeight bound b.storage).1.err =
        none ∧
      List.Forall₂ (EntryAt E (store.backend E).toStore eventType b.storage) (heightsUpTo tip.height startHeight endHeight)
        (getEventsForHeightRange E (Reader.of (store.backend E).toStore) eventType startHeight endHeight bound
          b.storage).1.result := by
  obtain ⟨height,chain⟩ := Local.reached_hasChain reached
  obtain ⟨block,read,same⟩ := chain.latestBlock
  rw [latest] at read
  cases read
  subst same
  exact getEventsForHeightRange_chain chain small eventType startHeight endHeight enough

section
open FlowEmulator.Samples

/-- An emulator over the store in memory commits a block and is asked for all heights there are. -/
theorem getEventsForHeightRange_exact_all : ∃ b : Blockchain (Memstore.Store (List WriteSet)),
    Local.Reached numberEncoding machine config (.memory Memstore.SnapshotTree.ofLists) b ∧
    List.Forall₂ (EntryAt numberEncoding (Memstore.store numberEncoding Memstore.SnapshotTree.ofLists) "" b.storage) [0,1]
      (getEventsForHeightRange numberEncoding (Reader.of (Memstore.store numberEncoding Memstore.SnapshotTree.ofLists)) "" 0
        18446744073709551615 3 b.storage).1.result := by
  obtain ⟨start,started⟩ : ∃ b, Blockchain.newBlockchain numberEncoding machine config
      (Memstore.backend numberEncoding Memstore.SnapshotTree.ofLists) tick false Memstore.new = .ok b := ⟨_,rfl⟩
  let commit (b : Blockchain (Memstore.Store (List WriteSet))) : Blockchain (Memstore.Store (List WriteSet)) :=
    (Blockchain.commitBlock numberEncoding machine config (Memstore.backend numberEncoding Memstore.SnapshotTree.ofLists) tick b).2
  have first : Local.Reached numberEncoding machine config (.memory Memstore.SnapshotTree.ofLists) start :=
    Run.reachable_initial ⟨tick,false,Memstore.new,rfl,started⟩
  have second : Local.Reached numberEncoding machine config (.memory Memstore.SnapshotTree.ofLists) (commit start) :=
    Run.reachable_step (a := .request (.commitBlock tick)) first trivial
  obtain ⟨tip,latest,height⟩ : ∃ tip : Block, (Memstore.backend numberEncoding Memstore.SnapshotTree.ofLists).latestBlock
      (commit start).storage = .ok tip ∧ tip.height = 1 := by
    cases started
    exact ⟨_,rfl,rfl⟩
  have heights : heightsUpTo tip.height 0 18446744073709551615 = [0,1] := by
    rw [height]
    decide
  have answer := getEventsForHeightRange_exact second latest (by rw [height]; decide) "" 0 18446744073709551615 3
    (by rw [heights]; decide)
  rw [heights] at answer
  exact ⟨_,second,answer.2.2⟩

end
end FlowEmulator.EventQueries
