import FlowEmulator.Finality
import FlowEmulator.StoreIndependence

/-!
A rollback is an undo. After a rollback to the block that was the latest at some
time, the tables it cuts are those of that time (`Beneath`), whatever was requested
in between; and on tables that are the same, requests go on in lockstep. So the
emulator answers as if it had the store of that time. What is not undone: the
entropy, which stays that of the last commit, and the indexes of system and of
scheduled transactions, which are not cut.
-/
namespace FlowEmulator.Chronicle
open FlowEmulator.Blockchain FlowEmulator.DefaultStore FlowEmulator.Fallible FlowEmulator.Run
open FlowEmulator.Sqlite (Choices Recorded purged)
open FlowEmulator.Keys (StoreName)
open FlowEmulator.VersionedTable

/-- The tables that a rollback cuts are the same up to a height. -/
def Beneath (height : Nat) (s t : Sqlite.Store) : Prop :=
  ∀ name ∈ purged, (t.database name).deleteAbove height = (s.database name).deleteAbove height

/-- The tables that a rollback cuts are the same, and so is the latest height. -/
structure Restored (E : Encoding) (latest : Nat) (s t : Sqlite.Store) : Prop where
  left : ∃ cs, Recorded E 0 none cs latest s.database
  right : ∃ cs, Recorded E 0 none cs latest t.database
  tables : ∀ name ∈ purged, s.database name = t.database name

section
variable {E : Encoding} {M : Machine} {config : Config} {choices : Choices} {latest height : Nat} {s t : Sqlite.Store}
  {front : List BlockContents} {x : Session}

/-! ### Up to the rollback -/

/-- Of two cuts the lower one is left. -/
theorem deleteAbove_twice {K V : Type} {table : Table K V} {low high : Nat} (lower : low ≤ high) :
    (table.deleteAbove high).deleteAbove low = table.deleteAbove low := by
  apply Table.ext_rows
  show (table.rows.filter _).filter _ = table.rows.filter _
  rw [List.filter_filter]
  refine List.filter_congr fun row _ => ?_
  have both : row.height ≤ low → row.height ≤ high := fun below => below.trans lower
  simpa using both

theorem beneath_effect {b after : Blockchain Sqlite.Store} (effect : Effect E M config (Sqlite.backend E choices) b after)
    (tip : Sqlite.Tip E b.storage (some latest)) (next : b.pendingBlock.height = latest+1) (low : height ≤ latest)
    (beneath : Beneath height s b.storage) : Beneath height s after.storage := by
  cases effect with
  | still still => rw [still.storage]; exact beneath
  | refused c e run place =>
    have same : after.storage = b.storage := Sqlite.refused_same tip run
    rw [same]
    exact beneath
  | saved c tick placed run pending =>
    intro name cut
    obtain ⟨_,wrote⟩ := Sqlite.saved_wrote tip run
    have above : height < c.block.height := by
      rw [placed.height,next]
      omega
    rw [Sqlite.wrote_deleteAbove wrote above (Sqlite.purged_proper cut)]
    exact beneath name cut
  | reset tick block storage found pending => rw [storage]; exact beneath

/-- A rollback that is not refused. -/
theorem accounted_rolled {cs seen : List BlockContents} {b : Blockchain Sqlite.Store}
    (accounted : Accounted E M config cs seen latest b) (tick : Tick) (above : height < b.storage.currentHeight) :
    ∃ storage block, rollbackToBlockHeight E M config (Sqlite.backend E choices) tick height b =
        (.ok (),{ b with storage := storage, pendingBlock := newPendingBlock E tick block }) ∧
      Sqlite.RolledBack E height b.storage storage ∧ Recorded E 0 none (cs.take (height+1)) height storage.database ∧
      block.height = height := by
  obtain ⟨storage,run,rolled⟩ := Sqlite.rollback_run E choices above
  have below : height ≤ latest := by have := accounted.stored.current; omega
  have recorded := Sqlite.recorded_rolledBack accounted.stored.recorded rolled (Nat.zero_le _) below
  obtain ⟨last,_,lastHeight,found⟩ := Sqlite.recorded_latestBlock choices recorded (Nat.zero_le height)
  exact ⟨storage,last.block,rollback_ok tick rfl run found,rolled,recorded,lastHeight⟩

theorem rolled_table {after : Sqlite.Store} (rolled : Sqlite.RolledBack E height s after) {name : StoreName}
    (cut : name ∈ purged) : after.database name = (s.database name).deleteAbove height := by
  rw [rolled.table,Sqlite.rolledBack,if_neg (Sqlite.purged_proper cut),if_pos cut]

theorem beneath_step (length : front.length = height+1) (x : Session) (step : Step)
    (both : Begins E M config front x ∧ Beneath height s x.emulator.storage) (spares : Spares height step) :
    Begins E M config front (Chronicle.step E M config choices step x) ∧
      Beneath height s (Chronicle.step E M config choices step x).emulator.storage := by
  refine ⟨begins_step length x step both.1 spares,?_⟩
  obtain ⟨⟨cs,latest,accounted,isFront⟩,beneath⟩ := both
  have low : height ≤ latest := by
    have count := accounted.stored.recorded.count
    have longer := isFront.length_le
    omega
  cases step with
  | request r =>
    rw [step_request_emulator]
    obtain ⟨last,_,lastHeight,next⟩ := accounted.underway.next
    exact beneath_effect (request_effect r x.emulator) (Sqlite.recorded_tip accounted.stored.recorded)
      (by rw [next.height,lastHeight]) low beneath
  | rollback tick target =>
    have above : height ≤ target := spares
    show Beneath height s (rollbackToBlockHeight E M config (Sqlite.backend E choices) tick target x.emulator).2.storage
    by_cases effective : target < x.emulator.storage.currentHeight
    · obtain ⟨storage,block,run,rolled,_⟩ := accounted_rolled accounted tick effective
      rw [run]
      intro name cut
      rw [rolled_table rolled cut,deleteAbove_twice above]
      exact beneath name cut
    · rw [rollback_error tick rfl (Sqlite.rollback_refused (Nat.le_of_not_lt effective))]
      exact beneath

/-- A rollback to the latest height of some time restores the tables of that time. -/
theorem restored_rolled {cs seen ds known : List BlockContents} {b d r : Blockchain Sqlite.Store} {tick : Tick}
    (accounted : Accounted E M config cs seen height b) (later : Accounted E M config ds known latest d)
    (beneath : Beneath height b.storage d.storage)
    (run : rollbackToBlockHeight E M config (Sqlite.backend E choices) tick height d = (.ok (),r)) :
    Restored E height r.storage b.storage ∧ ∃ block, r.pendingBlock = newPendingBlock E tick block ∧ block.height = height := by
  by_cases effective : height < d.storage.currentHeight
  · obtain ⟨storage,block,done,rolled,recorded,blockHeight⟩ := accounted_rolled later tick effective
    rw [done] at run
    cases run
    refine ⟨⟨⟨_,recorded⟩,⟨cs,accounted.stored.recorded⟩,fun name cut => ?_⟩,block,rfl,blockHeight⟩
    show storage.database name = b.storage.database name
    rw [rolled_table rolled cut,beneath name cut]
    refine deleteAbove_of_low fun row member => ?_
    obtain ⟨c,here,w,written,rfl⟩ := (accounted.stored.archived.cut name cut).origin row member
    rw [Sqlite.rowAt_height (Sqlite.savedTo_proper (Sqlite.purged_proper cut) c w written)]
    exact (Sqlite.recorded_range accounted.stored.recorded here).2
  · rw [rollback_error tick rfl (Sqlite.rollback_refused (Nat.le_of_not_lt effective))] at run
    cases run

/-! ### From the rollback on -/

theorem restored_bytes (restored : Restored E latest s t) {name : StoreName} (cut : name ∈ purged) :
    SameBytes (Sqlite.dataStore choices) (Sqlite.dataStore choices) s t name := by
  have same := restored.tables name cut
  constructor <;> intros <;> simp [Sqlite.dataStore,Sqlite.getBytes,Sqlite.selectAtVersion,same]

theorem restored_latestBlock (restored : Restored E latest s t) :
    (Sqlite.backend E choices).latestBlock s = (Sqlite.backend E choices).latestBlock t := by
  obtain ⟨_,left⟩ := restored.left
  obtain ⟨_,right⟩ := restored.right
  show DefaultStore.latestBlock E _ s = DefaultStore.latestBlock E _ t
  unfold DefaultStore.latestBlock
  rw [Sqlite.recorded_latestBlockHeight choices left,Sqlite.recorded_latestBlockHeight choices right]
  exact answer_congr E (.blockByHeight latest) fun name member => restored_bytes restored (by
    rw [List.mem_singleton.mp member]
    decide)

/-- The reads that look into the tables that are cut, and for the latest block. -/
def Undone (query : Query) : Prop :=
  query = .latestBlock ∨ query = .latestBlockHeight ∨ ∀ name ∈ stores query, name ∈ purged

theorem restored_answers (restored : Restored E latest s t) {query : Query} (undone : Undone query) :
    (Sqlite.backend E choices).answer query s = (Sqlite.backend E choices).answer query t := by
  obtain ⟨_,left⟩ := restored.left
  obtain ⟨_,right⟩ := restored.right
  rcases undone with rfl | rfl | cut
  · exact restored_latestBlock restored
  · exact (Sqlite.recorded_latestBlockHeight choices left).trans (Sqlite.recorded_latestBlockHeight choices right).symm
  · exact answer_congr E query fun name member => restored_bytes restored (cut name member)

theorem restored_reads (restored : Restored E latest s t) :
    SameReads (Sqlite.backend E choices) (Sqlite.backend E choices) latest s t := by
  have reads (query : Query) (cut : ∀ name ∈ stores query, name ∈ purged) :
      (Sqlite.backend E choices).answer query s = (Sqlite.backend E choices).answer query t :=
    restored_answers restored (.inr (.inr cut))
  refine ⟨restored_latestBlock restored,fun block found => ?_,fun id => ?_,fun id => ?_,fun id => ?_⟩
  · obtain ⟨_,left⟩ := restored.left
    obtain ⟨last,_,height,read⟩ := Sqlite.recorded_latestBlock choices left (Nat.zero_le latest)
    cases read.symm.trans found
    exact height
  · exact reads (.blockByID id) (by simp [stores,purged])
  · exact reads (.transactionByID id) (by simp [stores,purged])
  · exact reads (.ledgerByHeight latest id) (by simp [stores,purged])

theorem restored_saves (restored : Restored E latest s t) (static : Identifier → Bool) :
    SameSaves (Sqlite.backend E choices) (Sqlite.backend E choices) E static s t := by
  obtain ⟨_,left⟩ := restored.left
  obtain ⟨_,right⟩ := restored.right
  have commits := Sqlite.commits_saveBlock E choices static
  intro c
  by_cases counted : c.Counted
  · obtain ⟨after,run,_⟩ := commits.wrote c s _ counted (Sqlite.recorded_tip left)
    obtain ⟨beside,runThere,_⟩ := commits.wrote c t _ counted (Sqlite.recorded_tip right)
    exact .inr ⟨after,beside,run,runThere⟩
  · obtain ⟨e,_,refused⟩ := uncounted_refused E counted
    exact .inl ⟨e,bind_error (refused (Sqlite.dataStore choices) s) _,bind_error (refused (Sqlite.dataStore choices) t) _⟩

/-- A block that is saved on both. -/
theorem restored_saved (restored : Restored E latest s t) {static : Identifier → Bool} {c : BlockContents}
    (height : c.block.height = latest+1) {after beside : Sqlite.Store}
    (saved : (Sqlite.backend E choices).saveBlock E static c s = (.ok (),after))
    (savedThere : (Sqlite.backend E choices).saveBlock E static c t = (.ok (),beside)) :
    Restored E (latest+1) after beside := by
  obtain ⟨_,left⟩ := restored.left
  obtain ⟨_,right⟩ := restored.right
  obtain ⟨counted,wrote⟩ := Sqlite.saved_wrote (Sqlite.recorded_tip left) saved
  obtain ⟨_,wroteThere⟩ := Sqlite.saved_wrote (Sqlite.recorded_tip right) savedThere
  refine ⟨⟨_,Sqlite.recorded_saved left counted height wrote⟩,⟨_,Sqlite.recorded_saved right counted height wroteThere⟩,?_⟩
  intro name cut
  rw [wrote.table,wroteThere.table,restored.tables name cut]

/-- Requests on emulators that differ only in what is not undone. -/
theorem restored_converse (requests : List Request) {b d : Blockchain Sqlite.Store} (restored : Restored E latest s t)
    (alike : Alike latest s t b d) :
    (converse E M config (Sqlite.backend E choices) requests b).1 =
        (converse E M config (Sqlite.backend E choices) requests d).1 ∧
      ∃ latest, Restored E latest (converse E M config (Sqlite.backend E choices) requests b).2.storage
        (converse E M config (Sqlite.backend E choices) requests d).2.storage := by
  induction requests generalizing latest s t b d with
  | nil =>
    refine ⟨rfl,latest,?_⟩
    show Restored E latest b.storage d.storage
    rw [alike.left,alike.right]
    exact restored
  | cons r rest ih =>
    obtain ⟨answer,moved⟩ := requests_lockstep (restored_reads restored) (restored_saves restored (static E M config)) r b d
      alike
    rcases moved with alike | ⟨c,height,saved,savedThere,alike⟩
    · obtain ⟨answers,ends⟩ := ih restored alike
      refine ⟨?_,ends⟩
      rw [converse,converse,answer,answers]
    · obtain ⟨answers,ends⟩ := ih (restored_saved restored height saved savedThere) alike
      refine ⟨?_,ends⟩
      rw [converse,converse,answer,answers]

/-- After a rollback to the block that was the latest at some time, whatever was
    done since without going below it, the emulator answers as if it had the store
    of that time, now and in every conversation that follows. -/
theorem rollback_undoes {condition : Session → Call → Prop} (reached : Reached E M config choices condition x) {block : Block}
    (found : (Sqlite.backend E choices).latestBlock x.emulator.storage = .ok block) (steps : List Step)
    (spared : ∀ s ∈ steps, Spares block.height s) (tick : Tick) {r : Blockchain Sqlite.Store}
    (run : rollbackToBlockHeight E M config (Sqlite.backend E choices) tick block.height
      (play (step E M config choices) steps x).emulator = (.ok (),r)) (requests : List Request) :
    let left := converse E M config (Sqlite.backend E choices) requests r
    let right := converse E M config (Sqlite.backend E choices) requests { r with storage := x.emulator.storage }
    left.1 = right.1 ∧ ∀ query, Undone query →
      (Sqlite.backend E choices).answer query left.2.storage = (Sqlite.backend E choices).answer query right.2.storage := by
  obtain ⟨cs,latest,accounted⟩ := reached_chained reached
  obtain ⟨last,_,lastHeight,latestFound⟩ := Sqlite.recorded_latestBlock choices accounted.stored.recorded (Nat.zero_le latest)
  obtain rfl : last.block = block := Except.ok.inj (latestFound.symm.trans found)
  have length : cs.length = last.block.height+1 := by
    have count := accounted.stored.recorded.count
    omega
  rw [← lastHeight] at accounted
  obtain ⟨⟨ds,high,later,_⟩,beneath⟩ :=
    play_keeps (beneath_step length) ⟨⟨cs,_,accounted,List.prefix_rfl⟩,fun _ _ => rfl⟩ (throughout_all spared)
  obtain ⟨restored,top,pending,height⟩ := restored_rolled accounted later beneath run
  have alike : Alike last.block.height r.storage x.emulator.storage r { r with storage := x.emulator.storage } := {
    left := rfl
    right := rfl
    pendingBlock := rfl
    latestEntropy := rfl
    autoMine := rfl
    next := by rw [pending,← height]; rfl
    ledgerHeight := by rw [pending,← height]; rfl }
  obtain ⟨answers,_,ends⟩ := restored_converse requests restored alike
  exact ⟨answers,fun query undone => restored_answers ends undone⟩

end

section
open FlowEmulator.Samples

/-- A transaction whose block is rolled back can be sent once more. -/
theorem rollback_undoes_sample : ∃ start c, SampleBlock start c ∧ ∃ r,
    rollbackToBlockHeight numberEncoding scheduler scheduledConfig (Sqlite.backend numberEncoding .earliest) tick 0
      (sampleCommitted start).emulator = (.ok (),r) ∧
    (converse numberEncoding scheduler scheduledConfig (Sqlite.backend numberEncoding .earliest)
      [.addTransaction (numbered 10),.executeBlock] r).1 =
      (converse numberEncoding scheduler scheduledConfig (Sqlite.backend numberEncoding .earliest)
        [.addTransaction (numbered 10),.executeBlock] { r with storage := start.emulator.storage }).1 := by
  obtain ⟨start,c,sample⟩ := sample_committed
  obtain ⟨_,_,_,_,_,accounted⟩ := started_accounted sample.started
  obtain ⟨last,_,lastHeight,found⟩ := Sqlite.recorded_latestBlock .earliest accounted.stored.recorded (Nat.zero_le 0)
  obtain ⟨storage,block,run,_⟩ := accounted_rolled sample.accounted tick
    (show 0 < (sampleCommitted start).emulator.storage.currentHeight by rw [sample.currentHeight]; exact Nat.one_pos)
  have reached : Reached numberEncoding scheduler scheduledConfig .earliest (fun _ _ => True) start :=
    ⟨start,[],sample.started,trivial,rfl⟩
  have undone := rollback_undoes reached found
    [.request (.addTransaction (numbered 10)),.request .executeNextTransaction,.request (.commitBlock tick)]
    (by simp [Spares]) tick (by rw [lastHeight]; exact run) [.addTransaction (numbered 10),.executeBlock]
  exact ⟨start,c,sample,_,run,undone.1⟩

end
end FlowEmulator.Chronicle
