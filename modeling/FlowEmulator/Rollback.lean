import FlowEmulator.Samples
import FlowEmulator.Shape

/-!
What a rollback of the SQL store restores. The tables it deletes from are again
those right after the block rolled back to, row by row, so every read of them
answers as it did then and as it would had the removed blocks never existed. The
three tables of system and scheduled transactions are not deleted from: they are
restored exactly when the removed blocks wrote nothing to them.
-/
namespace FlowEmulator.Sqlite
open FlowEmulator.Text FlowEmulator.Keys FlowEmulator.Fallible FlowEmulator.VersionedTable FlowEmulator.DefaultStore

/-- The tables that are as they were right after the block rolled back to. -/
def Restored (name : StoreName) : Prop := name ∈ purged ∨ name = .global

instance (name : StoreName) : Decidable (Restored name) := inferInstanceAs (Decidable (_ ∨ _))

theorem rolledBack_restored {E : Encoding} {h : Nat} {content content' : Database}
    (below : ∀ name, name ≠ .global → (content' name).deleteAbove h = content name)
    (global : (content' .global).upsert (tipRow E h) = content .global) {name : StoreName} (restored : Restored name) :
    rolledBack E h content' name = content name := by
  unfold rolledBack
  split
  · next same => subst same; exact global
  · next proper => rw [if_pos (restored.resolve_right proper),below name proper]

theorem rolledBack_other {E : Encoding} {h : Nat} {content : Database} {name : StoreName} (other : ¬ Restored name) :
    rolledBack E h content name = content name := by
  unfold rolledBack
  rw [if_neg (fun same => other (.inr same)),if_neg (fun member => other (.inl member))]

section
variable {E : Encoding} {op : BlockContents → StoreM Store Unit} {writes : Nat → BlockContents → List Write}

/-- The tables after a rollback from the end of a chain. -/
theorem rollback_tables (commits : Commits E op writes) (choices : Choices) (url : Url) {cs : List BlockContents}
    {h : Nat} (chain : Chain 0 cs) (below : h+1 < cs.length) :
    ∃ after, rollbackToBlockHeight E choices h (run op cs (fresh url)) = (.ok (),after) ∧
      (∀ name, Restored name → after.database name = (run op (cs.take (h+1)) (fresh url)).database name) ∧
      ∀ name, ¬ Restored name → after.database name = (run op cs (fresh url)).database name := by
  have length : (cs.take (h+1)).length = h+1 := by rw [List.length_take]; omega
  have parts : Chain 0 (cs.take (h+1) ++ cs.drop (h+1)) := by rw [List.take_append_drop]; exact chain
  obtain ⟨keptChain,removedChain⟩ := chain_append.mp parts
  rw [length,Nat.zero_add] at removedChain
  have start := fresh_tip E url
  have grown := run_grown commits keptChain start (Nat.le_refl 0)
  obtain ⟨tip,_⟩ := run_tip commits keptChain start (Nat.le_refl 0) (by intro empty; rw [empty] at length; cases length)
  rw [length] at grown tip
  simp only [Nat.zero_add,Nat.add_sub_cancel] at grown tip
  have later := run_grown commits removedChain tip (by simp)
  obtain ⟨_,current⟩ := run_tip commits chain start (Nat.le_refl 0) (by intro empty; rw [empty] at below; cases below)
  have whole : run op cs (fresh url) = run op (cs.drop (h+1)) (run op (cs.take (h+1)) (fresh url)) := by
    rw [← run_append,List.take_append_drop]
  have above : h < (run op cs (fresh url)).currentHeight := by omega
  obtain ⟨after,done,rolled⟩ := rollback_run E choices above
  refine ⟨after,done,?_,?_⟩
  · intro name restored
    rw [rolled.table]
    refine rolledBack_restored ?_ ?_ restored
    · intro name proper
      rw [whole,later.below h (Nat.lt_succ_self h) name proper]
      refine deleteAbove_of_low (fun row member => ?_)
      rcases grown.rows name proper row member with old | new
      · rw [fresh_database] at old; cases old
      · omega
    · rw [whole,later.global,upsert_mem (tipRow_mem tip)]
  · intro name other
    rw [rolled.table,rolledBack_other other]

end

theorem restored_of_stores {query : Query} (plain : query.indexed = false) : ∀ name ∈ stores query, Restored name := by
  intro name member
  cases query with
  | systemTransactionsForBlockID _ => cases plain
  | blockIDByScheduledTransactionID _ => cases plain
  | scheduledTransactionBlockIDByTxID _ => cases plain
  | _ =>
    simp only [stores,List.mem_cons,List.not_mem_nil,or_false] at member
    rcases member with rfl | rfl <;> decide

/-- After a rollback, and after any further commits, every read except those of
    the indexes of system and scheduled transactions answers as in a store in
    which the removed blocks were never committed, whichever rows are taken. For
    blocks of the shape the emulator produces, two different ways of taking rows
    cannot be told apart either. -/
theorem rollback_restores (E : Encoding) (choices : Choices) (url : Url) (cs : List BlockContents) (h : Nat)
    (chain : Chain 0 cs) (below : h+1 < cs.length) :
    ∃ after, rollbackToBlockHeight E choices h (run (store E choices).commitBlock cs (fresh url)) = (.ok (),after) ∧
      ∀ later query, query.indexed = false →
        (store E choices).answer query (run (store E choices).commitBlock later after) =
          (store E choices).answer query (run (store E choices).commitBlock (cs.take (h+1) ++ later) (fresh url)) ∧
        ∀ static choices', Chain 0 (cs.take (h+1) ++ later) → Shaped E static (cs.take (h+1) ++ later) →
          (store E choices').answer query (run (store E choices).commitBlock later after) =
            (store E choices).answer query (run (store E choices).commitBlock (cs.take (h+1) ++ later) (fresh url)) := by
  have commits := commits_commitBlock E choices
  obtain ⟨after,done,restored,_⟩ := rollback_tables commits choices url chain below
  have parts : Chain 0 (cs.take (h+1) ++ cs.drop (h+1)) := by rw [List.take_append_drop]; exact chain
  have kept : cs.take (h+1) ≠ [] := by
    intro empty
    rcases List.take_eq_nil_iff.mp empty with zero | none
    · cases zero
    · rw [none] at below; cases below
  obtain ⟨tip,_⟩ := run_tip commits (chain_append.mp parts).1 (fresh_tip E url) (Nat.le_refl 0) kept
  refine ⟨after,done,?_⟩
  intro later query plain
  have same := run_same commits Restored (.inr rfl) later tip restored
  rw [run_append]
  refine ⟨?_,?_⟩
  · exact answer_congr E query (fun name member => sameBytes_of_table (same name (restored_of_stores plain name member)))
  · intro static choices' laterChain shaped
    refine answer_congr E query (fun name member => ?_)
    have equal := same name (restored_of_stores plain name member)
    refine sameBytes_of_coherent equal ?_
    rw [← run_append]
    by_cases global : name = .global
    · subst global
      obtain ⟨⟨cells,holds,_⟩,_⟩ := run_tip commits laterChain (fresh_tip E url) (Nat.le_refl 0) (by simp [kept])
      exact cells_coherent holds
    · exact held_coherent (run_held commits (writesTo_commitWrites_fixed E global) laterChain url)
        (shaped_agreeing_commit shaped laterChain global)

theorem rollback_restores_two_blocks :
    ∃ after, rollbackToBlockHeight Samples.encoding .earliest 0 (run (store Samples.encoding .earliest).commitBlock
        [Samples.systemContents 0,Samples.systemContents 1] (fresh .inMemory)) = (.ok (),after) ∧
      (store Samples.encoding .earliest).answer (.blockByHeight 1) after =
        (store Samples.encoding .earliest).answer (.blockByHeight 1)
          (run (store Samples.encoding .earliest).commitBlock [Samples.systemContents 0] (fresh .inMemory)) := by
  obtain ⟨after,done,reads⟩ := rollback_restores Samples.encoding .earliest .inMemory
    [Samples.systemContents 0,Samples.systemContents 1] 0 ⟨rfl,by decide,rfl,by decide,trivial⟩ (by decide)
  exact ⟨after,done,(reads [] (.blockByHeight 1) rfl).1⟩

/-! ### The indexes of system and scheduled transactions -/

/-- The block left no entry in the indexes. -/
def Unindexed (c : BlockContents) : Prop := c.systemTransactions = [] ∧ c.scheduledTransactionIDs.entries = []

theorem savedTo_unindexed {E : Encoding} {static : Identifier → Bool} {c : BlockContents} (counted : c.Counted)
    (unindexed : Unindexed c) {name : StoreName} (other : ¬ Restored name) : savedTo E static 0 c name = [] := by
  obtain ⟨noSystem,noScheduled⟩ := unindexed
  have noResults : c.systemTransactionResults.entries = [] := by
    apply List.eq_nil_of_length_eq_zero
    rw [← counted.2,noSystem]
    rfl
  cases name with
  | systemTransactions => simp [savedTo,committedTo,systemWrites,noSystem,noScheduled]
  | scheduledTransactionIndex => simp [savedTo,scheduledIndexWrites,noScheduled]
  | scheduledTransactionBlockIndex => simp [savedTo,scheduledBlockIndexWrites,noResults]
  | _ => exact absurd (by decide) other

theorem mem_systemWrites {E : Encoding} {c : BlockContents} {w : Write} : w ∈ systemWrites E c ↔
    ¬ Unindexed c ∧ w = .plain .systemTransactions (identifier (E.blockID c.block))
      (E.systemTransactions.encode ⟨E.blockID c.block,c.systemTransactions,c.scheduledTransactionIDs⟩) := by
  rw [mem_systemRecord]
  refine and_congr_left (fun _ => ?_)
  unfold Unindexed
  rw [← List.length_eq_zero_iff,← List.length_eq_zero_iff]
  omega

section
variable {E : Encoding} (choices : Choices) (static : Identifier → Bool) (url : Url) {cs : List BlockContents}

/-- Rows of system transactions are the records of the blocks that have one. -/
theorem systemTransactions_origin (chain : Chain 0 cs) {row : Row Bytes Bytes} (member : row ∈
      ((run ((store E choices).saveBlock E static) cs (fresh url)).database .systemTransactions).rows) :
    row.version = 0 ∧ ∃ c ∈ cs, row.key = hexEncode (identifier (E.blockID c.block)) := by
  have proper : StoreName.systemTransactions ≠ .global := by decide
  obtain ⟨c,here,w,written,rfl⟩ := (run_held (commits_saveBlock E choices static)
    (writesTo_saveWrites_fixed E proper static) chain url).origin row member
  obtain ⟨_,rfl⟩ := mem_systemWrites.mp written
  exact ⟨rfl,c,here,rfl⟩

theorem systemTransactions_present (chain : Chain 0 cs) {c : BlockContents} (here : c ∈ cs) (indexed : ¬ Unindexed c) :
    ∃ row ∈ ((run ((store E choices).saveBlock E static) cs (fresh url)).database .systemTransactions).rows,
      row.key = hexEncode (identifier (E.blockID c.block)) := by
  have proper : StoreName.systemTransactions ≠ .global := by decide
  obtain ⟨row,member,same⟩ := (run_held (commits_saveBlock E choices static)
    (writesTo_saveWrites_fixed E proper static) chain url).present c here _ (mem_systemWrites.mpr ⟨indexed,rfl⟩)
  exact ⟨row,member,congrArg Prod.fst same⟩

end

theorem systemTransactionsForBlockID_notFound {E : Encoding} {choices : Choices} {s : Store} {id : Identifier} :
    systemTransactionsForBlockID E (dataStore choices) id s = .error .notFound ↔
      ∀ row ∈ (s.database .systemTransactions).rows, row.key = hexEncode (identifier id) → 0 < row.version :=
  (bind_decode_notFound E.systemTransactions _).trans selectAtVersion_notFound

/-- After a rollback, and after any further blocks, the indexes answer as in a
    store in which the removed blocks were never saved. -/
def IndexesRestored (E : Encoding) (static : Identifier → Bool) (choices : Choices) (url : Url)
    (cs : List BlockContents) (h : Nat) : Prop :=
  ∃ after,
    rollbackToBlockHeight E choices h (run ((store E choices).saveBlock E static) cs (fresh url)) = (.ok (),after) ∧
    ∀ later query, query.indexed = true →
      (store E choices).answer query (run ((store E choices).saveBlock E static) later after) =
        (store E choices).answer query
          (run ((store E choices).saveBlock E static) (cs.take (h+1) ++ later) (fresh url))

section
variable {E : Encoding} (static : Identifier → Bool) (choices : Choices) (url : Url) {cs : List BlockContents} {h : Nat}

/-- Removed blocks that left no entry leave every table as it was. -/
theorem indexesRestored_of_unindexed (chain : Chain 0 cs) (below : h+1 < cs.length)
    (unindexed : ∀ c ∈ cs.drop (h+1), Unindexed c) : IndexesRestored E static choices url cs h := by
  have commits := commits_saveBlock E choices static
  obtain ⟨after,done,restored,others⟩ := rollback_tables commits choices url chain below
  have length : (cs.take (h+1)).length = h+1 := by rw [List.length_take]; omega
  have parts : Chain 0 (cs.take (h+1) ++ cs.drop (h+1)) := by rw [List.take_append_drop]; exact chain
  obtain ⟨keptChain,removedChain⟩ := chain_append.mp parts
  rw [length,Nat.zero_add] at removedChain
  obtain ⟨tip,_⟩ := run_tip commits keptChain (fresh_tip E url) (Nat.le_refl 0)
    (by intro empty; rw [empty] at length; cases length)
  rw [length] at tip
  have all : ∀ name, True → after.database name =
      (run ((store E choices).saveBlock E static) (cs.take (h+1)) (fresh url)).database name := by
    intro name _
    by_cases here : Restored name
    · exact restored name here
    · have proper : name ≠ .global := fun same => here (.inr same)
      have table := run_table commits (writesTo_saveWrites_fixed E proper static) removedChain tip (by simp)
      have nothing : (cs.drop (h+1)).flatMap (fun c => (savedTo E static 0 c name).map (rowAt c.block.height)) = [] := by
        rw [List.flatMap_eq_nil_iff]
        intro c member
        rw [savedTo_unindexed (chain_counted removedChain c member) (unindexed c member) here]
        rfl
      rw [nothing,List.foldl_nil,← run_append,List.take_append_drop] at table
      rw [others name here,table]
  refine ⟨after,done,?_⟩
  intro later query _
  rw [run_append]
  exact answer_congr E query
    (fun name _ => sameBytes_of_table (run_same commits (fun _ => True) trivial later tip all name trivial))

/-- The record of a removed block stays. -/
theorem not_indexesRestored (chain : Chain 0 cs) (below : h+1 < cs.length)
    (distinct : (cs.map fun c => E.blockID c.block).Nodup) {c : BlockContents} (removed : c ∈ cs.drop (h+1))
    (indexed : ¬ Unindexed c) : ¬ IndexesRestored E static choices url cs h := by
  rintro ⟨after,done,answers⟩
  have commits := commits_saveBlock E choices static
  obtain ⟨other,otherDone,_,others⟩ := rollback_tables commits choices url chain below
  rw [otherDone] at done
  cases done
  have parts : Chain 0 (cs.take (h+1) ++ cs.drop (h+1)) := by rw [List.take_append_drop]; exact chain
  have apart : ∀ d ∈ cs.take (h+1), E.blockID d.block ≠ E.blockID c.block := by
    rw [← List.take_append_drop (h+1) cs,List.map_append] at distinct
    intro d kept
    exact (List.nodup_append.mp distinct).2.2 _ (List.mem_map_of_mem kept) _ (List.mem_map_of_mem removed)
  have same := answers [] (.systemTransactionsForBlockID (E.blockID c.block)) rfl
  rw [List.append_nil] at same
  have missing : systemTransactionsForBlockID E (dataStore choices) (E.blockID c.block)
      (run ((store E choices).saveBlock E static) (cs.take (h+1)) (fresh url)) = .error .notFound := by
    rw [systemTransactionsForBlockID_notFound]
    intro row member key
    obtain ⟨_,d,kept,own⟩ := systemTransactions_origin choices static url (chain_append.mp parts).1 member
    exact absurd (identifier_injective (hexEncode_injective (own.symm.trans key))) (apart d kept)
  have gone : systemTransactionsForBlockID E (dataStore choices) (E.blockID c.block) after = .error .notFound :=
    Eq.trans same missing
  rw [systemTransactionsForBlockID_notFound,others .systemTransactions (by decide)] at gone
  obtain ⟨row,member,key⟩ := systemTransactions_present choices static url chain (List.mem_of_mem_drop removed) indexed
  have above := gone row member key
  rw [(systemTransactions_origin choices static url chain member).1] at above
  exact Nat.lt_irrefl 0 above

end

/-- A rollback restores the indexes of system and scheduled transactions exactly
    when no removed block had system or scheduled transactions. -/
theorem rollback_restores_indexes_iff (E : Encoding) (static : Identifier → Bool) (choices : Choices) (url : Url)
    (cs : List BlockContents) (h : Nat) (chain : Chain 0 cs) (below : h+1 < cs.length)
    (distinct : (cs.map fun c => E.blockID c.block).Nodup) :
    IndexesRestored E static choices url cs h ↔
      ∀ c ∈ cs.drop (h+1), c.systemTransactions = [] ∧ c.scheduledTransactionIDs.entries = [] := by
  constructor
  · intro restored c removed
    by_contra indexed
    exact not_indexesRestored static choices url chain below distinct removed indexed restored
  · exact indexesRestored_of_unindexed static choices url chain below

theorem rollback_restores_indexes_empty_blocks :
    IndexesRestored Samples.encoding (fun _ => true) .earliest .inMemory
      [Samples.emptyContents 0,Samples.emptyContents 1] 0 :=
  (rollback_restores_indexes_iff Samples.encoding (fun _ => true) .earliest .inMemory
    [Samples.emptyContents 0,Samples.emptyContents 1] 0 ⟨rfl,by decide,rfl,by decide,trivial⟩ (by decide)
    (by decide)).mpr (by decide)

/-- After rolling back block 1 its record of system transactions is still found. -/
theorem rollback_keeps_removed_record :
    ¬ IndexesRestored Samples.encoding (fun _ => true) .earliest .inMemory
      [Samples.systemContents 0,Samples.systemContents 1] 0 :=
  not_indexesRestored (fun _ => true) .earliest .inMemory ⟨rfl,by decide,rfl,by decide,trivial⟩ (by decide)
    (by decide) (c := Samples.systemContents 1) (List.mem_singleton_self _) (fun unindexed => by cases unindexed.1)

end FlowEmulator.Sqlite
