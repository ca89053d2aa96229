import FlowEmulator.Recorded

/-!
Databases as a run of the emulator leaves them, seen from the table of blocks
alone. Each block has one row, under its height in the key and in the column of
heights; the emulator's own blocks begin above the fork height where there is
one, and none is missing up to the latest height.
-/
namespace FlowEmulator.Sqlite
open FlowEmulator.Text FlowEmulator.Keys FlowEmulator.VersionedTable FlowEmulator.DefaultStore

/-- The row of a block. -/
def blockRow (E : Encoding) (block : Block) : Row Bytes Bytes :=
  ⟨hexEncode (blockHeight block.height),hexEncode (E.block.encode block),0,block.height⟩

/-- The lowest height of an own block: the first one above the fork height, if there is one. -/
def lowest (forked : Option Nat) : Nat := forked.elim 0 (· + 1)

structure Filed (E : Encoding) (forked : Option Nat) (latest : Nat) (content : Database) : Prop where
  reaches : lowest forked ≤ latest+1
  cells : ∃ cells, Cells (content .global) cells ∧ cells forkedBlock = forked.map E.uint64.encode ∧
    cells Keys.latestBlock = some (E.uint64.encode latest)
  rows : ∀ row ∈ (content .blocks).rows, ∃ block, lowest forked ≤ block.height ∧ row = blockRow E block
  present : ∀ height, lowest forked ≤ height → height ≤ latest →
    ∃ block, block.height = height ∧ blockRow E block ∈ (content .blocks).rows

section
variable {E : Encoding} {forked : Option Nat} {latest : Nat} {s after : Store}

theorem filed_tip (filed : Filed E forked latest s.database) : Tip E s (some latest) := by
  obtain ⟨cells,holds,_,cell⟩ := filed.cells
  exact ⟨cells,holds,cell⟩

/-- The table of blocks after a write of the next block. -/
private theorem filed_upsert {content : Database} (filed : Filed E forked latest content) {table : Table Bytes Bytes}
    {block : Block} (height : block.height = latest+1) (table_eq : table = (content .blocks).upsert (blockRow E block)) :
    (∀ row ∈ table.rows, ∃ block, lowest forked ≤ block.height ∧ row = blockRow E block) ∧
      ∀ height, lowest forked ≤ height → height ≤ latest+1 →
        ∃ block, block.height = height ∧ blockRow E block ∈ table.rows := by
  have reaches := filed.reaches
  subst table_eq
  refine ⟨fun row member => ?_,fun each low high => ?_⟩
  · rcases mem_upsert.mp member with rfl | ⟨old,_⟩
    · exact ⟨block,by omega,rfl⟩
    · exact filed.rows row old
  · by_cases last : each = latest+1
    · exact ⟨block,height.trans last.symm,mem_upsert.mpr (.inl rfl)⟩
    · obtain ⟨own,ownHeight,member⟩ := filed.present each low (by omega)
      refine ⟨own,ownHeight,mem_upsert.mpr (.inr ⟨member,fun same => ?_⟩)⟩
      have heights : own.height = block.height := congrArg (·.2.2) same
      omega

/-- Saving the next block files it. -/
theorem filed_saved {static : Identifier → Bool} {c : BlockContents} (filed : Filed E forked latest s.database)
    (height : c.block.height = latest+1) (wrote : Wrote c.block.height (saveWrites E static latest c) s after) :
    Filed E forked (latest+1) after.database := by
  have reaches := filed.reaches
  have global := wrote_global (writesTo_saveWrites E static latest c .global) wrote
  rw [if_pos (by omega),height] at global
  have blocks : after.database .blocks = (s.database .blocks).upsert (blockRow E c.block) := by
    rw [wrote.table,writesTo_saveWrites]
    rfl
  obtain ⟨rows,present⟩ := filed_upsert filed height blocks
  obtain ⟨cells,holds,fork,_⟩ := filed.cells
  exact ⟨by omega,by rw [global]; exact cells_tip ⟨cells,holds,fork⟩,rows,present⟩

/-- The first block of an empty store is filed. -/
theorem filed_first {c : BlockContents} (empty : ∀ name, s.database name = Table.empty) (height : c.block.height = 0)
    (wrote : Wrote c.block.height (commitWrites E 0 c) s after) : Filed E none 0 after.database := by
  have global := wrote_global (writesTo_commitWrites E 0 c .global) wrote
  rw [if_pos (Nat.zero_le _),height,empty] at global
  have blocks : after.database .blocks = Table.empty.upsert (blockRow E c.block) := by
    rw [wrote.table,writesTo_commitWrites,empty]
    rfl
  refine ⟨Nat.zero_le _,by rw [global]; exact cells_tip ⟨fun _ => none,cells_empty,rfl⟩,fun row member => ?_,
    fun each _ high => ⟨c.block,by omega,?_⟩⟩
  · rw [blocks] at member
    rcases mem_upsert.mp member with rfl | ⟨absent,_⟩
    · exact ⟨c.block,Nat.zero_le _,rfl⟩
    · cases absent
  · rw [blocks]
    exact mem_upsert.mpr (.inl rfl)

/-- Rolling back to an own block, or to the block before the first of them, removes the blocks above. -/
theorem filed_rolledBack {height : Nat} (filed : Filed E forked latest s.database) (rolled : RolledBack E height s after)
    (above : lowest forked ≤ height+1) (below : height ≤ latest) : Filed E forked height after.database := by
  have blocks : after.database .blocks = (s.database .blocks).deleteAbove height := rolled.table .blocks
  refine ⟨above,?_,fun row member => ?_,fun each low high => ?_⟩
  · obtain ⟨cells,holds,fork,_⟩ := filed.cells
    rw [rolled.table]
    exact cells_tip ⟨cells,holds,fork⟩
  · rw [blocks] at member
    exact filed.rows row (mem_deleteAbove.mp member).1
  · obtain ⟨block,rfl,member⟩ := filed.present each low (high.trans below)
    rw [blocks]
    exact ⟨block,rfl,mem_deleteAbove.mpr ⟨member,high⟩⟩

/-- All databases are filed when the open one and the others are. -/
theorem filed_all (filed : Filed E forked latest s.database)
    (others : ∀ name content, name ≠ s.db → s.databases name = some content → ∃ latest, Filed E forked latest content)
    (name : DatabaseName) (content : Database) (kept : s.databases name = some content) :
    ∃ latest, Filed E forked latest content := by
  by_cases opened : name = s.db
  · rw [opened,s.databases_db] at kept
    cases kept
    exact ⟨latest,filed⟩
  · exact others name content opened kept

/-! ### What is read -/

variable (choices : Choices) (filed : Filed E forked latest s.database)
include filed

theorem filed_latestBlockHeight : latestBlockHeight E (dataStore choices) s = .ok latest :=
  tip_latestBlockHeight (filed_tip filed) choices

/-- The block of a height is the one that has a row. -/
theorem filed_found {height : Nat} {block : Block} :
    DefaultStore.blockByHeight E (dataStore choices) height s = .ok block ↔
      block.height = height ∧ blockRow E block ∈ (s.database .blocks).rows := by
  have read (own : Block) (member : blockRow E own ∈ (s.database .blocks).rows) :
      DefaultStore.blockByHeight E (dataStore choices) own.height s = .ok own := by
    have bytes : selectAtVersion choices .blocks (blockHeight own.height) 0 s = .ok (E.block.encode own) := by
      refine selectAtVersion_some (select_eq member (Nat.le_refl 0) (fun other there sameKey _ => ?_))
      obtain ⟨second,_,rfl⟩ := filed.rows other there
      have heights : second.height = own.height := blockHeight_injective (hexEncode_injective sameKey)
      have same : blockRow E second = blockRow E own := by
        refine List.inj_on_of_nodup_map (s.database .blocks).unique there member ?_
        simp only [Row.slot,blockRow,heights]
      exact ⟨Nat.le_refl 0,fun _ => congrArg Row.value same⟩
    unfold DefaultStore.blockByHeight
    show (selectAtVersion choices .blocks (blockHeight own.height) 0 s).bind _ = _
    rw [bytes]
    exact decode_encode ..
  constructor
  · intro found
    by_cases some_row : ∃ own : Block, own.height = height ∧ blockRow E own ∈ (s.database .blocks).rows
    · obtain ⟨own,rfl,member⟩ := some_row
      rw [read own member] at found
      cases found
      exact ⟨rfl,member⟩
    · have missing : DefaultStore.blockByHeight E (dataStore choices) height s = .error .notFound := by
        refine (bind_decode_notFound E.block _).mpr (selectAtVersion_notFound.mpr (fun row there sameKey => ?_))
        obtain ⟨own,_,rfl⟩ := filed.rows row there
        exact absurd ⟨own,blockHeight_injective (hexEncode_injective sameKey),there⟩ some_row
      rw [missing] at found
      cases found
  · rintro ⟨rfl,member⟩
    exact read block member

/-- After a rollback the blocks up to the height are found as before. -/
theorem filed_rolledBack_found {height : Nat} (rolled : RolledBack E height s after)
    (above : lowest forked ≤ height+1) (below : height ≤ latest) (each : Nat) (block : Block) :
    DefaultStore.blockByHeight E (dataStore choices) each after = .ok block ↔
      each ≤ height ∧ DefaultStore.blockByHeight E (dataStore choices) each s = .ok block := by
  have blocks : after.database .blocks = (s.database .blocks).deleteAbove height := rolled.table .blocks
  rw [filed_found choices (filed_rolledBack filed rolled above below),filed_found choices filed,blocks,mem_deleteAbove]
  constructor
  · rintro ⟨rfl,member,low⟩
    exact ⟨low,rfl,member⟩
  · rintro ⟨low,rfl,member⟩
    exact ⟨rfl,member,low⟩

theorem filed_own {height : Nat} (above : lowest forked ≤ height) (below : height ≤ latest) :
    ∃ block, DefaultStore.blockByHeight E (dataStore choices) height s = .ok block ∧ block.height = height := by
  obtain ⟨block,same,member⟩ := filed.present height above below
  exact ⟨block,(filed_found choices filed).mpr ⟨same,member⟩,same⟩

theorem filed_lowest {height : Nat} {block : Block}
    (found : DefaultStore.blockByHeight E (dataStore choices) height s = .ok block) : lowest forked ≤ height := by
  obtain ⟨rfl,member⟩ := (filed_found choices filed).mp found
  obtain ⟨own,low,same⟩ := filed.rows _ member
  have heights : block.height = own.height := congrArg Row.height same
  omega

end
end FlowEmulator.Sqlite
