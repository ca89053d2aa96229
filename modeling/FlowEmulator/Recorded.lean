import FlowEmulator.Shape

/-!
Databases that record a chain: the blocks from a lowest height on up to the
latest, by height and by identifier, and the cells of the globals. Saving the
next block and rolling back to a block of the chain keep such a record, and the
reads of blocks answer from it.
-/
namespace FlowEmulator
open FlowEmulator.DefaultStore

/-- The blocks of a chain up to a height are its first blocks. -/
theorem chain_filter {lowest : Nat} {cs : List BlockContents} (chain : Chain lowest cs) (height : Nat) :
    cs.filter (fun c => c.block.height ≤ height) = cs.take (height+1-lowest) := by
  induction cs generalizing lowest with
  | nil => simp
  | cons c rest ih =>
    obtain ⟨first,_,restChain⟩ := chain
    rw [List.filter_cons,ih restChain]
    by_cases low : c.block.height ≤ height
    · have next : height+1-lowest = height+1-(lowest+1)+1 := by omega
      rw [if_pos (by simpa using low),next,List.take_succ_cons]
    · have none : height+1-lowest = 0 := by omega
      have noneLater : height+1-(lowest+1) = 0 := by omega
      rw [if_neg (by simpa using low),none,noneLater,List.take_zero,List.take_zero]

theorem chain_take {lowest : Nat} {cs : List BlockContents} (chain : Chain lowest cs) (n : Nat) :
    Chain lowest (cs.take n) := by
  have parts : Chain lowest (cs.take n ++ cs.drop n) := by rw [List.take_append_drop]; exact chain
  exact (chain_append.mp parts).1

namespace Sqlite
open FlowEmulator.Text FlowEmulator.Keys FlowEmulator.VersionedTable

/-- The writes of a block to the tables that find it by height and by identifier. -/
def heightWrites (E : Encoding) (c : BlockContents) : List Write :=
  [.plain .blocks (blockHeight c.block.height) (E.block.encode c.block)]
def indexWrites (E : Encoding) (c : BlockContents) : List Write :=
  [.plain .blockIndex (identifier (E.blockID c.block)) (E.uint64.encode c.block.height)]

/-- The database records the chain: its blocks by height and by identifier, the
    latest height, and the fork height where the chain continues another one. -/
structure Recorded (E : Encoding) (lowest : Nat) (forked : Option Nat) (cs : List BlockContents) (latest : Nat)
    (content : Database) : Prop where
  chain : Chain lowest cs
  count : lowest+cs.length = latest+1
  cells : ∃ cells, Cells (content .global) cells ∧ cells forkedBlock = forked.map E.uint64.encode ∧
    cells Keys.latestBlock = some (E.uint64.encode latest)
  blocks : Held (heightWrites E) cs (content .blocks)
  index : Held (indexWrites E) cs (content .blockIndex)

section
variable {E : Encoding} {lowest latest : Nat} {forked : Option Nat} {cs : List BlockContents} {s after : Store}

theorem recorded_tip (recorded : Recorded E lowest forked cs latest s.database) : Tip E s (some latest) := by
  obtain ⟨cells,holds,_,cell⟩ := recorded.cells
  exact ⟨cells,holds,cell⟩

theorem cells_tip {table : Table Bytes Bytes} {height : Nat}
    (before : ∃ cells, Cells table cells ∧ cells forkedBlock = forked.map E.uint64.encode) :
    ∃ cells, Cells (table.upsert (tipRow E height)) cells ∧ cells forkedBlock = forked.map E.uint64.encode ∧
      cells Keys.latestBlock = some (E.uint64.encode height) := by
  obtain ⟨cells,holds,fork⟩ := before
  refine ⟨_,cells_upsert holds Keys.latestBlock (E.uint64.encode height),?_,Function.update_self ..⟩
  rw [Function.update_of_ne (by decide),fork]

/-- Saving the next block records it. -/
theorem recorded_saved {static : Identifier → Bool} {c : BlockContents}
    (recorded : Recorded E lowest forked cs latest s.database) (counted : c.Counted) (height : c.block.height = latest+1)
    (wrote : Wrote c.block.height (saveWrites E static latest c) s after) :
    Recorded E lowest forked (cs ++ [c]) (latest+1) after.database := by
  have count := recorded.count
  have global := wrote_global (writesTo_saveWrites E static latest c .global) wrote
  rw [if_pos (by omega),height] at global
  refine ⟨chain_append.mpr ⟨recorded.chain,by omega,counted,trivial⟩,by simp; omega,?_,?_,?_⟩
  · obtain ⟨cells,holds,fork,_⟩ := recorded.cells
    rw [global]
    exact cells_tip ⟨cells,holds,fork⟩
  · have fixed (latest : Nat) (c : BlockContents) : writesTo .blocks (saveWrites E static latest c) = heightWrites E c :=
      writesTo_saveWrites E static latest c .blocks
    exact held_wrote fixed recorded.blocks wrote
  · have fixed (latest : Nat) (c : BlockContents) : writesTo .blockIndex (saveWrites E static latest c) = indexWrites E c :=
      writesTo_saveWrites E static latest c .blockIndex
    exact held_wrote fixed recorded.index wrote

/-- The first block of an empty store is recorded. -/
theorem recorded_first {c : BlockContents} (empty : ∀ name, s.database name = Table.empty) (counted : c.Counted)
    (height : c.block.height = 0) (wrote : Wrote c.block.height (commitWrites E 0 c) s after) :
    Recorded E 0 none [c] 0 after.database := by
  have global := wrote_global (writesTo_commitWrites E 0 c .global) wrote
  rw [if_pos (Nat.zero_le _),height,empty] at global
  have held {name : StoreName} {target : BlockContents → List Write}
      (fixed : ∀ latest c, writesTo name (commitWrites E latest c) = target c) : Held target [c] (after.database name) :=
    held_wrote fixed (by rw [empty]; exact held_empty _) wrote
  have blocks : Held (heightWrites E) [c] (after.database .blocks) :=
    held fun latest c => writesTo_commitWrites E latest c .blocks
  have index : Held (indexWrites E) [c] (after.database .blockIndex) :=
    held fun latest c => writesTo_commitWrites E latest c .blockIndex
  refine ⟨⟨height,counted,trivial⟩,rfl,?_,blocks,index⟩
  rw [global]
  exact cells_tip ⟨fun _ => none,cells_empty,rfl⟩

/-- Rolling back to a block of the chain, or to the block before it, cuts the record. -/
theorem recorded_rolledBack {height : Nat} (recorded : Recorded E lowest forked cs latest s.database)
    (rolled : RolledBack E height s after) (above : lowest ≤ height+1) (below : height ≤ latest) :
    Recorded E lowest forked (cs.take (height+1-lowest)) height after.database := by
  have count := recorded.count
  refine ⟨chain_take recorded.chain _,by simp; omega,?_,?_,?_⟩
  · obtain ⟨cells,holds,fork,_⟩ := recorded.cells
    rw [rolled.table]
    exact cells_tip ⟨cells,holds,fork⟩
  · rw [rolled.table,← chain_filter recorded.chain]
    refine held_deleteAbove recorded.blocks (fun c _ w written => ?_) height
    rw [List.mem_singleton.mp written]
    exact fun same => by cases same
  · rw [rolled.table,← chain_filter recorded.chain]
    refine held_deleteAbove recorded.index (fun c _ w written => ?_) height
    rw [List.mem_singleton.mp written]
    exact fun same => by cases same

/-! ### What the reads of blocks answer -/

variable (choices : Choices) (recorded : Recorded E lowest forked cs latest s.database)
include recorded

theorem recorded_latestBlockHeight : latestBlockHeight E (dataStore choices) s = .ok latest :=
  tip_latestBlockHeight (recorded_tip recorded) choices

theorem recorded_blockByHeight {c : BlockContents} (here : c ∈ cs) :
    DefaultStore.blockByHeight E (dataStore choices) c.block.height s = .ok c.block := by
  have agreeing : Agreeing (heightWrites E) cs := by
    intro c here w left d there v right sameKey _
    rw [List.mem_singleton.mp left,List.mem_singleton.mp right] at sameKey ⊢
    rw [chain_height_inj recorded.chain here there (blockHeight_injective sameKey)]
  have read : selectAtVersion choices .blocks (blockHeight c.block.height) 0 s = .ok (E.block.encode c.block) := by
    refine held_written recorded.blocks agreeing here (List.mem_singleton.mpr rfl) (Nat.le_refl 0) ?_
    intro d _ v written _ _
    rw [List.mem_singleton.mp written]
    exact Nat.le_refl 0
  unfold DefaultStore.blockByHeight
  show (selectAtVersion choices .blocks (blockHeight c.block.height) 0 s).bind _ = _
  rw [read]
  exact decode_encode ..

theorem recorded_at {height : Nat} (above : lowest ≤ height) (below : height ≤ latest) :
    ∃ c ∈ cs, c.block.height = height := by
  have count := recorded.count
  have inside : height-lowest < cs.length := by omega
  have here : cs[height-lowest]? = some cs[height-lowest] := List.getElem?_eq_getElem inside
  exact ⟨_,List.mem_of_getElem? here,by rw [(chain_getElem recorded.chain here).1]; omega⟩

theorem recorded_range {c : BlockContents} (here : c ∈ cs) : lowest ≤ c.block.height ∧ c.block.height ≤ latest := by
  have count := recorded.count
  obtain ⟨i,atI⟩ := List.mem_iff_getElem?.mp here
  obtain ⟨inside,_⟩ := List.getElem?_eq_some_iff.mp atI
  have height := (chain_getElem recorded.chain atI).1
  omega

theorem recorded_last {last : BlockContents} (here : last ∈ cs.getLast?) : last.block.height = latest := by
  have count := recorded.count
  rw [List.getLast?_eq_getElem?] at here
  obtain ⟨inside,_⟩ := List.getElem?_eq_some_iff.mp here
  rw [(chain_getElem recorded.chain here).1]
  omega

theorem recorded_noBlock {height : Nat} (outside : height < lowest ∨ latest < height) :
    DefaultStore.blockByHeight E (dataStore choices) height s = .error .notFound := by
  refine (bind_decode_notFound E.block _).mpr (held_unwritten recorded.blocks (fun c here w written same => ?_))
  rw [List.mem_singleton.mp written] at same
  have height := blockHeight_injective same
  have range := recorded_range recorded here
  omega

/-- A block that is found at a height is a block of the chain. -/
theorem recorded_found {height : Nat} {block : Block}
    (found : DefaultStore.blockByHeight E (dataStore choices) height s = .ok block) :
    ∃ c ∈ cs, c.block = block ∧ block.height = height := by
  by_cases outside : height < lowest ∨ latest < height
  · rw [recorded_noBlock choices recorded outside] at found
    cases found
  · have inside : lowest ≤ height ∧ height ≤ latest := by omega
    obtain ⟨c,here,rfl⟩ := recorded_at recorded inside.1 inside.2
    rw [recorded_blockByHeight choices recorded here] at found
    cases found
    exact ⟨c,here,rfl,rfl⟩

theorem recorded_latestBlock (some_block : lowest ≤ latest) :
    ∃ c ∈ cs, c.block.height = latest ∧ DefaultStore.latestBlock E (dataStore choices) s = .ok c.block := by
  obtain ⟨c,here,height⟩ := recorded_at recorded some_block (Nat.le_refl latest)
  refine ⟨c,here,height,?_⟩
  unfold DefaultStore.latestBlock
  rw [recorded_latestBlockHeight choices recorded]
  have read := recorded_blockByHeight choices recorded here
  rw [height] at read
  exact read

theorem recorded_blockByID
    (distinct : ∀ c ∈ cs, ∀ d ∈ cs, E.blockID c.block = E.blockID d.block → c.block = d.block) {c : BlockContents}
    (here : c ∈ cs) : DefaultStore.blockByID E (dataStore choices) (E.blockID c.block) s = .ok c.block := by
  have agreeing : Agreeing (indexWrites E) cs := by
    intro c here w left d there v right sameKey _
    rw [List.mem_singleton.mp left,List.mem_singleton.mp right] at sameKey ⊢
    have same := distinct c here d there (identifier_injective sameKey)
    show E.uint64.encode c.block.height = E.uint64.encode d.block.height
    rw [same]
  have read : selectAtVersion choices .blockIndex (identifier (E.blockID c.block)) 0 s =
      .ok (E.uint64.encode c.block.height) := by
    refine held_written recorded.index agreeing here (List.mem_singleton.mpr rfl) (Nat.le_refl 0) ?_
    intro d _ v written _ _
    rw [List.mem_singleton.mp written]
    exact Nat.le_refl 0
  unfold DefaultStore.blockByID
  show ((selectAtVersion choices .blockIndex (identifier (E.blockID c.block)) 0 s).bind _).bind _ = _
  rw [read]
  show (decode E.uint64 (E.uint64.encode c.block.height)).bind _ = _
  rw [decode_encode]
  exact recorded_blockByHeight choices recorded here

theorem recorded_noID {id : Identifier} (unknown : ∀ c ∈ cs, E.blockID c.block ≠ id) :
    DefaultStore.blockByID E (dataStore choices) id s = .error .notFound := by
  have missing : selectAtVersion choices .blockIndex (identifier id) 0 s = .error .notFound := by
    refine held_unwritten recorded.index (fun c here w written same => ?_)
    rw [List.mem_singleton.mp written] at same
    exact absurd (identifier_injective same) (unknown c here)
  unfold DefaultStore.blockByID
  show ((selectAtVersion choices .blockIndex (identifier id) 0 s).bind _).bind _ = _
  rw [missing]
  rfl

end
end Sqlite
end FlowEmulator
