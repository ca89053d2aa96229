import FlowEmulator.Commits

/-!
Tables that hold the writes of a list of blocks: every row is the row of a write,
and every write has a row in its slot. A commit adds the writes of its block, a
rollback leaves those of the blocks up to its height, and a read finds the
newest write to its key when the writes agree.
-/
namespace FlowEmulator
open FlowEmulator.DefaultStore

/-- Writes of the blocks to one key and version have one value. -/
def Agreeing (target : BlockContents → List Write) (cs : List BlockContents) : Prop :=
  ∀ c ∈ cs, ∀ w ∈ target c, ∀ d ∈ cs, ∀ v ∈ target d, w.key = v.key → w.version = v.version → w.value = v.value

namespace Sqlite
open FlowEmulator.Text FlowEmulator.Keys FlowEmulator.VersionedTable

/-- The rows of a table are the rows of writes of the blocks, and each write has a row. -/
structure Held (target : BlockContents → List Write) (cs : List BlockContents) (table : Table Bytes Bytes) : Prop where
  origin : ∀ row ∈ table.rows, ∃ c ∈ cs, ∃ w ∈ target c, rowAt c.block.height w = row
  present : ∀ c ∈ cs, ∀ w ∈ target c, ∃ row ∈ table.rows, row.slot = (rowAt c.block.height w).slot

section
variable {target : BlockContents → List Write} {cs : List BlockContents} {table : Table Bytes Bytes}

theorem held_empty (target : BlockContents → List Write) : Held target [] Table.empty :=
  ⟨fun _ member => absurd member List.not_mem_nil,fun _ member => absurd member List.not_mem_nil⟩

/-- The rows of a block more. -/
theorem held_append (held : Held target cs table) (c : BlockContents) :
    Held target (cs ++ [c]) (((target c).map (rowAt c.block.height)).foldl Table.upsert table) := by
  refine ⟨fun row member => ?_,fun d there w written => ?_⟩
  · rcases mem_foldl_upsert member with new | old
    · obtain ⟨w,written,same⟩ := List.mem_map.mp new
      exact ⟨c,List.mem_append_right _ List.mem_cons_self,w,written,same⟩
    · obtain ⟨d,there,w,written,same⟩ := held.origin row old
      exact ⟨d,List.mem_append_left _ there,w,written,same⟩
  · refine List.mem_map.mp (slot_foldl_upsert.mpr ?_)
    rcases List.mem_append.mp there with before | last
    · exact .inr (List.mem_map.mpr (held.present d before w written))
    · rw [List.mem_singleton.mp last] at written ⊢
      exact .inl (List.mem_map_of_mem (List.mem_map_of_mem written))

/-- The blocks up to a height are left by the cut. -/
theorem held_deleteAbove (held : Held target cs table) (proper : ∀ c ∈ cs, ∀ w ∈ target c, w.store ≠ .global)
    (limit : Nat) : Held target (cs.filter fun c => c.block.height ≤ limit) (table.deleteAbove limit) := by
  have height {c : BlockContents} (here : c ∈ cs) {w : Write} (written : w ∈ target c) :
      (rowAt c.block.height w).height = c.block.height := if_neg (proper c here w written)
  refine ⟨fun row member => ?_,fun c here w written => ?_⟩
  · obtain ⟨old,low⟩ := mem_deleteAbove.mp member
    obtain ⟨c,here,w,written,rfl⟩ := held.origin row old
    rw [height here written] at low
    exact ⟨c,List.mem_filter.mpr ⟨here,by simpa using low⟩,w,written,rfl⟩
  · obtain ⟨before,low⟩ := List.mem_filter.mp here
    obtain ⟨row,member,slot⟩ := held.present c before w written
    have rowHeight : row.height = c.block.height := (congrArg (·.2.2) slot).trans (height before written)
    exact ⟨row,mem_deleteAbove.mpr ⟨member,by rw [rowHeight]; simpa using low⟩,slot⟩

/-- A table is coherent when the writes to it agree. -/
theorem held_coherent (held : Held target cs table) (agreeing : Agreeing target cs) : Coherent table := by
  intro row left other right sameKey sameVersion
  obtain ⟨c,here,w,leftWritten,rfl⟩ := held.origin row left
  obtain ⟨d,there,v,rightWritten,rfl⟩ := held.origin other right
  exact congrArg hexEncode (agreeing c here w leftWritten d there v rightWritten (hexEncode_injective sameKey) sameVersion)

variable {choices : Choices} {name : StoreName} {s : Store}

/-- A write is read back at a version when no write to its key up to that version is newer. -/
theorem held_written (held : Held target cs (s.database name)) (agreeing : Agreeing target cs) {c : BlockContents}
    (here : c ∈ cs) {w : Write} (written : w ∈ target c) {version : Nat} (low : w.version ≤ version)
    (top : ∀ d ∈ cs, ∀ v ∈ target d, v.key = w.key → v.version ≤ version → v.version ≤ w.version) :
    selectAtVersion choices name w.key version s = .ok w.value := by
  obtain ⟨row,member,slot⟩ := held.present c here w written
  have key : row.key = hexEncode w.key := congrArg Prod.fst slot
  have rowVersion : row.version = w.version := congrArg (·.2.1) slot
  have value : row.value = hexEncode w.value := by
    obtain ⟨d,there,v,vWritten,rfl⟩ := held.origin row member
    exact congrArg hexEncode (agreeing d there v vWritten c here w written (hexEncode_injective key) rowVersion)
  refine selectAtVersion_some ?_
  rw [← key,← value]
  refine select_eq member (by omega) (fun other otherMember sameKey otherLow => ?_)
  refine ⟨?_,held_coherent held agreeing other otherMember row member sameKey⟩
  obtain ⟨d,there,v,vWritten,rfl⟩ := held.origin other otherMember
  rw [rowVersion]
  exact top d there v vWritten (hexEncode_injective (sameKey.trans key)) otherLow

theorem held_unwritten (held : Held target cs (s.database name)) {key : Bytes} {version : Nat}
    (unwritten : ∀ c ∈ cs, ∀ w ∈ target c, w.key = key → version < w.version) :
    selectAtVersion choices name key version s = .error .notFound := by
  refine selectAtVersion_notFound.mpr (fun row member same => ?_)
  obtain ⟨c,here,w,written,rfl⟩ := held.origin row member
  exact unwritten c here w written (hexEncode_injective same)

end

section
variable {E : Encoding} {op : BlockContents → StoreM Store Unit} {writes : Nat → BlockContents → List Write}

theorem held_wrote {target : BlockContents → List Write} {name : StoreName}
    (fixed : ∀ latest c, writesTo name (writes latest c) = target c) {cs : List BlockContents} {s after : Store}
    (held : Held target cs (s.database name)) {latest : Nat} {c : BlockContents}
    (wrote : Wrote c.block.height (writes latest c) s after) : Held target (cs ++ [c]) (after.database name) := by
  rw [wrote.table,fixed]
  exact held_append held c

/-- After a chain of blocks a table holds the writes to it. -/
theorem run_held (commits : Commits E op writes) {target : BlockContents → List Write} {name : StoreName}
    (fixed : ∀ latest c, writesTo name (writes latest c) = target c) {cs : List BlockContents} (chain : Chain 0 cs)
    (url : Url) : Held target cs ((run op cs (fresh url)).database name) := by
  rw [run_table commits fixed chain (fresh_tip E url) (Nat.le_refl 0),fresh_database]
  clear chain
  induction cs using List.reverseRecOn with
  | nil => exact held_empty target
  | append_singleton front c ih =>
    rw [List.flatMap_append,List.foldl_append,List.flatMap_singleton]
    exact held_append ih c

end
end Sqlite
end FlowEmulator
