import FlowEmulator.Recorded

/-!
The tables of the SQL store in runs with rollbacks. `Kept` says of a table that
each block of the chain has its rows in it, and that every row is that of a block
that was committed at some time. The tables a rollback cuts hold blocks of the
chain only; in the others, rows of removed blocks stay. What a read finds follows
from which blocks write to its key.
-/
namespace FlowEmulator.Sqlite
open FlowEmulator.Text FlowEmulator.Keys FlowEmulator.VersionedTable FlowEmulator.DefaultStore

/-- Every row is one of the blocks that were seen, and the blocks of the chain have theirs. -/
structure Kept (target : BlockContents → List Write) (cs seen : List BlockContents) (table : Table Bytes Bytes) : Prop where
  origin : ∀ row ∈ table.rows, ∃ c ∈ seen, ∃ w ∈ target c, rowAt c.block.height w = row
  present : ∀ c ∈ cs, ∀ w ∈ target c, ∃ v ∈ target c,
    v.key = w.key ∧ v.version = w.version ∧ rowAt c.block.height v ∈ table.rows

section
variable {target : BlockContents → List Write} {cs seen : List BlockContents} {table : Table Bytes Bytes}

theorem kept_empty (target : BlockContents → List Write) : Kept target [] [] Table.empty :=
  ⟨fun _ member => absurd member List.not_mem_nil,fun _ member => absurd member List.not_mem_nil⟩

theorem rowAt_height {w : Write} (proper : w.store ≠ .global) (height : Nat) : (rowAt height w).height = height :=
  if_neg proper

/-- The rows of a block more, at a height no block of the chain has. -/
theorem kept_append (kept : Kept target cs seen table) {c : BlockContents} (proper : ∀ d, ∀ w ∈ target d, w.store ≠ .global)
    (new : ∀ d ∈ cs, d.block.height ≠ c.block.height) :
    Kept target (cs ++ [c]) (seen ++ [c]) (((target c).map (rowAt c.block.height)).foldl Table.upsert table) := by
  refine ⟨fun row member => ?_,fun d there w written => ?_⟩
  · rcases mem_foldl_upsert member with new | old
    · obtain ⟨w,written,same⟩ := List.mem_map.mp new
      exact ⟨c,List.mem_append_right _ List.mem_cons_self,w,written,same⟩
    · obtain ⟨d,there,w,written,same⟩ := kept.origin row old
      exact ⟨d,List.mem_append_left _ there,w,written,same⟩
  · rcases List.mem_append.mp there with before | last
    · obtain ⟨v,vWritten,key,version,row⟩ := kept.present d before w written
      refine ⟨v,vWritten,key,version,foldl_upsert_old row (fun taken => ?_)⟩
      obtain ⟨other,member,slot⟩ := List.mem_map.mp taken
      obtain ⟨u,uWritten,rfl⟩ := List.mem_map.mp member
      have heights := congrArg (fun slot : Bytes × Nat × Nat => slot.2.2) slot
      simp only [Row.slot,rowAt_height (proper c u uWritten),rowAt_height (proper d v vWritten)] at heights
      exact new d before heights.symm
    · rw [List.mem_singleton.mp last] at written ⊢
      have taken : (rowAt c.block.height w).slot ∈ ((target c).map (rowAt c.block.height)).map Row.slot :=
        List.mem_map_of_mem (List.mem_map_of_mem written)
      have filled : (rowAt c.block.height w).slot ∈
          (((target c).map (rowAt c.block.height)).foldl Table.upsert table).rows.map Row.slot :=
        slot_foldl_upsert.mpr (.inl taken)
      obtain ⟨row,member,slot⟩ := List.mem_map.mp filled
      obtain ⟨v,vWritten,rfl⟩ := List.mem_map.mp (foldl_upsert_new member (slot ▸ taken))
      have key : hexEncode v.key = hexEncode w.key := congrArg Prod.fst slot
      have version : v.version = w.version := congrArg (·.2.1) slot
      exact ⟨v,vWritten,hexEncode_injective key,version,member⟩

/-- A cut leaves the blocks up to its height. -/
theorem kept_deleteAbove (kept : Kept target cs cs table) (proper : ∀ d, ∀ w ∈ target d, w.store ≠ .global) (limit : Nat) :
    Kept target (cs.filter fun c => c.block.height ≤ limit) (cs.filter fun c => c.block.height ≤ limit)
      (table.deleteAbove limit) := by
  refine ⟨fun row member => ?_,fun c here w written => ?_⟩
  · obtain ⟨old,low⟩ := mem_deleteAbove.mp member
    obtain ⟨c,here,w,written,rfl⟩ := kept.origin row old
    rw [rowAt_height (proper c w written)] at low
    exact ⟨c,List.mem_filter.mpr ⟨here,by simpa using low⟩,w,written,rfl⟩
  · obtain ⟨before,low⟩ := List.mem_filter.mp here
    obtain ⟨v,vWritten,key,version,row⟩ := kept.present c before w written
    refine ⟨v,vWritten,key,version,mem_deleteAbove.mpr ⟨row,?_⟩⟩
    rw [rowAt_height (proper c v vWritten)]
    simpa using low

theorem kept_filter (kept : Kept target cs seen table) (keep : BlockContents → Bool) : Kept target (cs.filter keep) seen table :=
  ⟨kept.origin,fun c here => kept.present c (List.mem_of_mem_filter here)⟩

/-! ### What is read -/

variable (choices : Choices) {name : StoreName} {s : Store}

/-- A key that a block of the chain writes is read as some block wrote it. -/
theorem kept_found (kept : Kept target cs seen (s.database name)) {c : BlockContents} (here : c ∈ cs) {w : Write}
    (written : w ∈ target c) {version : Nat} (low : w.version ≤ version) :
    ∃ d ∈ seen, ∃ v ∈ target d, v.key = w.key ∧ w.version ≤ v.version ∧ v.version ≤ version ∧
      rowAt d.block.height v ∈ (s.database name).rows ∧ selectAtVersion choices name w.key version s = .ok v.value := by
  obtain ⟨own,_,ownKey,ownVersion,row⟩ := kept.present c here w written
  have rowKey : (rowAt c.block.height own).key = hexEncode w.key := congrArg hexEncode ownKey
  have rowVersion : (rowAt c.block.height own).version = w.version := ownVersion
  rcases read : select (choices name w.key version) (s.database name) (hexEncode w.key) version with _ | value
  · have high := select_none.mp read _ row rowKey
    omega
  · obtain ⟨found,member,key,foundLow,rfl,top⟩ := select_some read
    have above := top _ row rowKey (by omega)
    obtain ⟨d,there,v,vWritten,rfl⟩ := kept.origin found member
    rw [rowVersion] at above
    exact ⟨d,there,v,vWritten,hexEncode_injective key,above,foundLow,member,selectAtVersion_some read⟩

/-- A key that only blocks of one height write is read as the block of the chain wrote it. -/
theorem kept_own (kept : Kept target cs seen (s.database name)) (proper : ∀ d, ∀ w ∈ target d, w.store ≠ .global)
    {c : BlockContents} (here : c ∈ cs) {w : Write} (written : w ∈ target c) {version : Nat} (low : w.version ≤ version)
    (only : ∀ d ∈ seen, ∀ v ∈ target d, v.key = w.key → w.version ≤ v.version → v.version ≤ version →
      v.version = w.version ∧ d.block.height = c.block.height) :
    ∃ v ∈ target c, v.key = w.key ∧ v.version = w.version ∧ selectAtVersion choices name w.key version s = .ok v.value := by
  obtain ⟨d,there,v,vWritten,key,above,below,row,read⟩ := kept_found choices kept here written low
  obtain ⟨own,ownWritten,ownKey,ownVersion,ownRow⟩ := kept.present c here w written
  obtain ⟨version,height⟩ := only d there v vWritten key above below
  have slots : (rowAt d.block.height v).slot = (rowAt c.block.height own).slot := by
    simp only [Row.slot,rowAt_height (proper d v vWritten),rowAt_height (proper c own ownWritten),height]
    simp only [rowAt,key,ownKey,version,ownVersion]
  have same := List.inj_on_of_nodup_map (s.database name).unique row ownRow slots
  have values : v.value = own.value := hexEncode_injective (congrArg Row.value same)
  exact ⟨own,ownWritten,ownKey,ownVersion,by rw [← values]; exact read⟩

theorem kept_unwritten (kept : Kept target cs seen (s.database name)) {key : Bytes} {version : Nat}
    (unwritten : ∀ c ∈ seen, ∀ w ∈ target c, w.key = key → version < w.version) :
    selectAtVersion choices name key version s = .error .notFound := by
  refine selectAtVersion_notFound.mpr (fun row member same => ?_)
  obtain ⟨c,here,w,written,rfl⟩ := kept.origin row member
  exact unwritten c here w written (hexEncode_injective same)

end

/-- The tables of a store whose chain is `cs`, after the blocks `seen` were committed. -/
structure Archived (E : Encoding) (static : Identifier → Bool) (cs seen : List BlockContents) (content : Database) : Prop where
  known : ∀ c ∈ cs, c ∈ seen
  cut : ∀ name ∈ purged, Kept (fun c => savedTo E static 0 c name) cs cs (content name)
  uncut : ∀ name, name ≠ .global → name ∉ purged → Kept (fun c => savedTo E static 0 c name) cs seen (content name)

theorem savedTo_proper {E : Encoding} {static : Identifier → Bool} {name : StoreName} (proper : name ≠ .global) :
    ∀ d, ∀ w ∈ savedTo E static 0 d name, w.store ≠ .global :=
  fun _ _ written => savedTo_store written ▸ proper

theorem purged_proper {name : StoreName} (cut : name ∈ purged) : name ≠ .global := by
  rintro rfl
  revert cut
  decide

section
variable {E : Encoding} {static : Identifier → Bool} {cs seen : List BlockContents} {s after : Store}

/-- Saving a block at a new height archives it. -/
theorem archived_saved {latest : Nat} {c : BlockContents} (archived : Archived E static cs seen s.database)
    (wrote : Wrote c.block.height (saveWrites E static latest c) s after) (new : ∀ d ∈ cs, d.block.height ≠ c.block.height) :
    Archived E static (cs ++ [c]) (seen ++ [c]) after.database := by
  have step {name : StoreName} (proper : name ≠ .global) {known : List BlockContents}
      (kept : Kept (fun c => savedTo E static 0 c name) cs known (s.database name)) :
      Kept (fun c => savedTo E static 0 c name) (cs ++ [c]) (known ++ [c]) (after.database name) := by
    rw [wrote.table,writesTo_saveWrites_fixed E proper]
    exact kept_append kept (savedTo_proper proper) new
  refine ⟨fun d there => ?_,fun name cut => ?_,fun name proper uncut => ?_⟩
  · exact List.mem_append.mpr ((List.mem_append.mp there).imp (archived.known d) id)
  · exact step (purged_proper cut) (archived.cut name cut)
  · exact step proper (archived.uncut name proper uncut)

theorem archived_empty {content : Database} (empty : ∀ name, name ≠ .global → content name = Table.empty) :
    Archived E static [] [] content := by
  have kept {name : StoreName} (proper : name ≠ .global) : Kept (fun c => savedTo E static 0 c name) [] [] (content name) := by
    rw [empty name proper]
    exact kept_empty _
  exact ⟨fun _ none => absurd none List.not_mem_nil,fun name cut => kept (purged_proper cut),fun name proper _ => kept proper⟩

/-- The first block of an empty store, which has no system transactions, is archived. -/
theorem archived_first {c : BlockContents} (empty : ∀ name, s.database name = Table.empty)
    (plain : ∀ name, savedTo E static 0 c name = committedTo E 0 c name)
    (wrote : Wrote c.block.height (commitWrites E 0 c) s after) : Archived E static [c] [c] after.database := by
  have step {name : StoreName} (proper : name ≠ .global) :
      Kept (fun c => savedTo E static 0 c name) [c] [c] (after.database name) := by
    rw [wrote.table,writesTo_commitWrites,← plain,empty]
    exact kept_append (kept_empty _) (savedTo_proper proper) (fun _ absent => absurd absent List.not_mem_nil)
  exact ⟨fun _ here => here,fun name cut => step (purged_proper cut),fun name proper _ => step proper⟩

/-- A rollback leaves the blocks up to its height, and forgets none that were seen. -/
theorem archived_rolledBack {height : Nat} (archived : Archived E static cs seen s.database)
    (rolled : RolledBack E height s after) :
    Archived E static (cs.filter fun c => c.block.height ≤ height) seen after.database := by
  refine ⟨fun c here => archived.known c (List.mem_of_mem_filter here),fun name cut => ?_,fun name proper uncut => ?_⟩
  · have table : after.database name = (s.database name).deleteAbove height := by
      rw [rolled.table,rolledBack,if_neg (purged_proper cut),if_pos cut]
    rw [table]
    exact kept_deleteAbove (archived.cut name cut) (savedTo_proper (purged_proper cut)) height
  · have table : after.database name = s.database name := by
      rw [rolled.table,rolledBack,if_neg proper,if_neg uncut]
    rw [table]
    exact kept_filter (archived.uncut name proper uncut) _

theorem kept_held {target : BlockContents → List Write} {table : Table Bytes Bytes} (kept : Kept target cs cs table)
    (proper : ∀ d, ∀ w ∈ target d, w.store ≠ .global) : Held target cs table := by
  refine ⟨kept.origin,fun c here w written => ?_⟩
  obtain ⟨v,vWritten,key,version,row⟩ := kept.present c here w written
  refine ⟨_,row,?_⟩
  simp only [Row.slot,rowAt_height (proper c v vWritten),rowAt_height (proper c w written)]
  simp only [rowAt,key,version]

/-! ### The records of the chain -/

section
variable (choices : Choices) {α : Type} {known : List BlockContents} {name : StoreName} {key value : Bytes}
  {decode : Bytes → Except StoreError α} {a : α} {c : BlockContents}
  (kept : Kept (fun c => savedTo E static 0 c name) cs known (s.database name))
include kept

/-- A record is read as some block wrote it. -/
theorem kept_read (here : c ∈ cs) (written : .plain name key value ∈ savedTo E static 0 c name) :
    ∃ d ∈ known, ∃ v ∈ savedTo E static 0 d name, v.key = key ∧ selectAtVersion choices name key 0 s = .ok v.value := by
  obtain ⟨d,there,v,vWritten,same,_,_,_,read⟩ := kept_found choices kept here written (Nat.le_refl 0)
  exact ⟨d,there,v,vWritten,same,read⟩

/-- A record is read as its block wrote it when only blocks of one height write to its key. -/
theorem kept_read_own (proper : name ≠ .global) (other : name ≠ .ledger) (here : c ∈ cs)
    (written : .plain name key value ∈ savedTo E static 0 c name)
    (only : ∀ d ∈ known, ∀ v ∈ savedTo E static 0 d name, v.key = key → d.block.height = c.block.height)
    (agree : ∀ v ∈ savedTo E static 0 c name, v.key = key → decode v.value = .ok a) :
    (selectAtVersion choices name key 0 s).bind decode = .ok a := by
  obtain ⟨v,vWritten,same,_,read⟩ := kept_own choices kept (savedTo_proper proper) here written (Nat.le_refl 0)
    (fun d there v vWritten key _ _ => ⟨savedTo_version other vWritten,only d there v vWritten key⟩)
  have bytes : selectAtVersion choices name key 0 s = .ok v.value := read
  rw [bytes]
  exact agree v vWritten same

/-- A record that no block wrote is not found. -/
theorem kept_missing (none : ∀ d ∈ known, ∀ v ∈ savedTo E static 0 d name, v.key ≠ key) :
    selectAtVersion choices name key 0 s = .error .notFound :=
  kept_unwritten choices kept (fun d there v written same => absurd same (none d there v written))

end

/-- The transactions of users and of the system in a block. -/
theorem mem_transactionWrites {c : BlockContents} {w : Write} : w ∈ savedTo E static 0 c .transactions ↔
    ∃ id tx, (c.transactions.lookup id = some tx ∨ c.systemTransactionBodies.lookup id = some tx) ∧
      w = .plain .transactions (identifier id) (E.transaction.encode tx) := by
  show w ∈ transactionWrites E c.transactions ++ transactionWrites E c.systemTransactionBodies ↔ _
  unfold transactionWrites
  rw [← List.map_append,List.mem_map]
  constructor
  · rintro ⟨entry,member,rfl⟩
    exact ⟨entry.1,entry.2,(List.mem_append.mp member).imp AList.mem_lookup_iff.mpr AList.mem_lookup_iff.mpr,rfl⟩
  · rintro ⟨id,tx,found,rfl⟩
    exact ⟨⟨id,tx⟩,List.mem_append.mpr (found.imp AList.mem_lookup_iff.mp AList.mem_lookup_iff.mp),rfl⟩

/-- The results of the transactions of users and of the system in a block. -/
theorem mem_resultWrites {c : BlockContents} {w : Write} : w ∈ savedTo E static 0 c .transactionResults ↔
    ∃ id result, (c.transactionResults.lookup id = some result ∧
        w = .plain .transactionResults (identifier id) (E.transactionResult.encode result)) ∨
      c.systemTransactionResults.lookup id = some result ∧ w = .plain .transactionResults
        (systemTransactionResult (E.blockID c.block) id) (E.transactionResult.encode result) := by
  show w ∈ resultWrites E c ++ systemResultWrites E c ↔ _
  rw [List.mem_append]
  constructor
  · rintro (user | system)
    · obtain ⟨entry,member,rfl⟩ := List.mem_map.mp user
      exact ⟨entry.1,entry.2,.inl ⟨AList.mem_lookup_iff.mpr member,rfl⟩⟩
    · obtain ⟨entry,member,rfl⟩ := List.mem_map.mp system
      exact ⟨entry.1,entry.2,.inr ⟨AList.mem_lookup_iff.mpr member,rfl⟩⟩
  · rintro ⟨id,result,⟨found,rfl⟩ | ⟨found,rfl⟩⟩
    · exact .inl (List.mem_map.mpr ⟨⟨id,result⟩,AList.mem_lookup_iff.mp found,rfl⟩)
    · exact .inr (List.mem_map.mpr ⟨⟨id,result⟩,AList.mem_lookup_iff.mp found,rfl⟩)

/-- The blocks of the system transactions that are not static. -/
theorem mem_scheduledBlockWrites {c : BlockContents} {w : Write} :
    w ∈ savedTo E static 0 c .scheduledTransactionBlockIndex ↔ ∃ id ∈ c.systemTransactionResults, static id = false ∧
      w = .plain .scheduledTransactionBlockIndex (identifier id) (E.blockID c.block).bytes := by
  show w ∈ scheduledBlockIndexWrites E static c ↔ _
  unfold scheduledBlockIndexWrites
  rw [List.mem_map]
  constructor
  · rintro ⟨entry,member,rfl⟩
    obtain ⟨inside,dynamic⟩ := List.mem_filter.mp member
    exact ⟨entry.1,AList.mem_keys.mpr (List.mem_keys_of_mem inside),Bool.not_eq_true' _ ▸ dynamic,rfl⟩
  · rintro ⟨id,member,dynamic,rfl⟩
    obtain ⟨result,found⟩ := Option.isSome_iff_exists.mp (AList.lookup_isSome.mpr member)
    exact ⟨⟨id,result⟩,List.mem_filter.mpr ⟨AList.mem_lookup_iff.mp found,by rw [dynamic]; rfl⟩,rfl⟩

section
variable (choices : Choices) (archived : Archived E static cs seen s.database) {c : BlockContents}
include archived

/-- Under the identifier of a collection of the chain one with this identifier is found. -/
theorem archived_someCollection (here : c ∈ cs) {collection : LightCollection} (member : collection ∈ c.collections) :
    ∃ d ∈ cs, ∃ other ∈ d.collections, E.collectionID other = E.collectionID collection ∧
      collectionByID E (dataStore choices) (E.collectionID collection) s = .ok other := by
  obtain ⟨d,there,v,written,same,read⟩ := kept_read choices (archived.cut .collections (by decide)) here
    (List.mem_map.mpr ⟨collection,member,rfl⟩)
  obtain ⟨other,otherMember,rfl⟩ := List.mem_map.mp written
  have bytes : (dataStore choices).getBytes .collections (identifier (E.collectionID collection)) s = _ := read
  refine ⟨d,there,other,otherMember,identifier_injective same,?_⟩
  unfold collectionByID
  rw [bytes]
  exact decode_encode ..

theorem archived_collection (here : c ∈ cs) {collection : LightCollection} (member : collection ∈ c.collections)
    (distinct : ∀ d ∈ cs, ∀ other ∈ d.collections, E.collectionID other = E.collectionID collection → other = collection) :
    collectionByID E (dataStore choices) (E.collectionID collection) s = .ok collection := by
  obtain ⟨d,there,other,otherMember,same,found⟩ := archived_someCollection choices archived here member
  rw [distinct d there other otherMember same] at found
  exact found

/-- A transaction of the chain is found, with a body that some block of the chain has for it. -/
theorem archived_transaction (here : c ∈ cs) {id : Identifier}
    (member : id ∈ c.transactions ∨ id ∈ c.systemTransactionBodies) : ∃ d ∈ cs, ∃ tx,
      (d.transactions.lookup id = some tx ∨ d.systemTransactionBodies.lookup id = some tx) ∧
      transactionByID E (dataStore choices) id s = .ok tx := by
  obtain ⟨body,found⟩ : ∃ tx, c.transactions.lookup id = some tx ∨ c.systemTransactionBodies.lookup id = some tx := by
    rcases member with user | system
    · obtain ⟨tx,found⟩ := Option.isSome_iff_exists.mp (AList.lookup_isSome.mpr user)
      exact ⟨tx,.inl found⟩
    · obtain ⟨tx,found⟩ := Option.isSome_iff_exists.mp (AList.lookup_isSome.mpr system)
      exact ⟨tx,.inr found⟩
  obtain ⟨d,there,v,written,same,read⟩ := kept_read choices (archived.cut .transactions (by decide)) here
    (mem_transactionWrites.mpr ⟨id,body,found,rfl⟩)
  obtain ⟨other,tx,otherFound,rfl⟩ := mem_transactionWrites.mp written
  obtain rfl : other = id := identifier_injective same
  have bytes : (dataStore choices).getBytes .transactions (identifier other) s = _ := read
  refine ⟨d,there,tx,otherFound,?_⟩
  unfold transactionByID
  rw [bytes]
  exact decode_encode ..

theorem archived_noTransaction {id : Identifier} (none : ∀ d ∈ cs, id ∉ d.transactions ∧ id ∉ d.systemTransactionBodies) :
    transactionByID E (dataStore choices) id s = .error .notFound := by
  refine (bind_decode_notFound E.transaction _).mpr
    (kept_missing choices (archived.cut .transactions (by decide)) (fun d there v written same => ?_))
  obtain ⟨other,tx,found,rfl⟩ := mem_transactionWrites.mp written
  obtain rfl : other = id := identifier_injective same
  rcases found with user | system
  · exact (none d there).1 (AList.lookup_isSome.mp (Option.isSome_iff_exists.mpr ⟨tx,user⟩))
  · exact (none d there).2 (AList.lookup_isSome.mp (Option.isSome_iff_exists.mpr ⟨tx,system⟩))

/-- The result of a transaction that one block of the chain has is found. -/
theorem archived_result (here : c ∈ cs) {id : Identifier} {result : StorableTransactionResult}
    (found : c.transactionResults.lookup id = some result)
    (only : ∀ d ∈ cs, id ∈ d.transactionResults → d.block.height = c.block.height) :
    transactionResultByID E (dataStore choices) id s = .ok result := by
  refine kept_read_own choices (archived.cut .transactionResults (by decide)) (by decide) (by decide) here
    (mem_resultWrites.mpr ⟨id,result,.inl ⟨found,rfl⟩⟩) (fun d there v written same => ?_) (fun v written same => ?_)
  · obtain ⟨other,value,⟨otherFound,rfl⟩ | ⟨_,rfl⟩⟩ := mem_resultWrites.mp written
    · obtain rfl : other = id := identifier_injective same
      exact only d there (AList.lookup_isSome.mp (Option.isSome_iff_exists.mpr ⟨value,otherFound⟩))
    · exact absurd same.symm (identifier_ne_systemTransactionResult _ _ _)
  · obtain ⟨other,value,⟨otherFound,rfl⟩ | ⟨_,rfl⟩⟩ := mem_resultWrites.mp written
    · obtain rfl : other = id := identifier_injective same
      obtain rfl : value = result := Option.some.inj (otherFound.symm.trans found)
      exact decode_encode ..
    · exact absurd same.symm (identifier_ne_systemTransactionResult _ _ _)

theorem archived_noResult {id : Identifier} (none : ∀ d ∈ cs, id ∉ d.transactionResults) :
    transactionResultByID E (dataStore choices) id s = .error .notFound := by
  refine (bind_decode_notFound E.transactionResult _).mpr
    (kept_missing choices (archived.cut .transactionResults (by decide)) (fun d there v written same => ?_))
  obtain ⟨other,value,⟨found,rfl⟩ | ⟨_,rfl⟩⟩ := mem_resultWrites.mp written
  · obtain rfl : other = id := identifier_injective same
    exact none d there (AList.lookup_isSome.mp (Option.isSome_iff_exists.mpr ⟨value,found⟩))
  · exact identifier_ne_systemTransactionResult _ _ _ same.symm

/-- The result of a system transaction is found by its block and its identifier. -/
theorem archived_systemResult (here : c ∈ cs) {id : Identifier} {result : StorableTransactionResult}
    (found : c.systemTransactionResults.lookup id = some result)
    (only : ∀ d ∈ cs, E.blockID d.block = E.blockID c.block → d.block.height = c.block.height) :
    systemTransactionResultByID E (dataStore choices) (E.blockID c.block) id s = .ok result := by
  refine kept_read_own choices (archived.cut .transactionResults (by decide)) (by decide) (by decide) here
    (mem_resultWrites.mpr ⟨id,result,.inr ⟨found,rfl⟩⟩) (fun d there v written same => ?_) (fun v written same => ?_)
  · obtain ⟨other,value,⟨_,rfl⟩ | ⟨_,rfl⟩⟩ := mem_resultWrites.mp written
    · exact absurd same (identifier_ne_systemTransactionResult _ _ _)
    · exact only d there (systemTransactionResult_injective same).1
  · obtain ⟨other,value,⟨_,rfl⟩ | ⟨otherFound,rfl⟩⟩ := mem_resultWrites.mp written
    · exact absurd same (identifier_ne_systemTransactionResult _ _ _)
    · obtain rfl : other = id := (systemTransactionResult_injective same).2
      obtain rfl : value = result := Option.some.inj (otherFound.symm.trans found)
      exact decode_encode ..

/-- A result is found for every system transaction of a block. -/
theorem archived_someSystemResult (here : c ∈ cs) {id : Identifier} (member : id ∈ c.systemTransactionResults) :
    ∃ result, systemTransactionResultByID E (dataStore choices) (E.blockID c.block) id s = .ok result := by
  obtain ⟨own,found⟩ := Option.isSome_iff_exists.mp (AList.lookup_isSome.mpr member)
  obtain ⟨d,_,v,written,same,read⟩ := kept_read choices (archived.cut .transactionResults (by decide)) here
    (mem_resultWrites.mpr ⟨id,own,.inr ⟨found,rfl⟩⟩)
  have value : ∃ result, v.value = E.transactionResult.encode result := by
    obtain ⟨_,result,⟨_,rfl⟩ | ⟨_,rfl⟩⟩ := mem_resultWrites.mp written <;> exact ⟨result,rfl⟩
  obtain ⟨result,value⟩ := value
  refine ⟨result,?_⟩
  have bytes : (dataStore choices).getBytes .transactionResults (systemTransactionResult (E.blockID c.block) id) s =
    .ok v.value := read
  unfold systemTransactionResultByID
  rw [bytes,value]
  exact decode_encode ..

/-- The system transactions of a block are found by its identifier. Blocks that
    were removed may have written to the same key at the same height. -/
theorem archived_systemTransactions (here : c ∈ cs) (some : c.systemTransactions ≠ [])
    (only : ∀ d ∈ seen, E.blockID d.block = E.blockID c.block → d.block.height = c.block.height) :
    systemTransactionsForBlockID E (dataStore choices) (E.blockID c.block) s =
      .ok ⟨E.blockID c.block,c.systemTransactions,c.scheduledTransactionIDs⟩ := by
  refine kept_read_own choices (archived.uncut .systemTransactions (by decide) (by decide)) (by decide) (by decide) here
    (mem_systemRecord.mpr ⟨.inl (List.length_pos_iff.mpr some),rfl⟩) (fun d there v written same => ?_)
    (fun v written same => ?_)
  · rw [(mem_systemRecord.mp written).2] at same
    exact only d there (identifier_injective same)
  · rw [(mem_systemRecord.mp written).2]
    exact decode_encode ..

/-- Nothing is found for a block when no block with its identifier had system transactions. -/
theorem archived_noSystemTransactions {id : Identifier} (none : ∀ d ∈ seen, E.blockID d.block = id →
    d.systemTransactions = [] ∧ d.scheduledTransactionIDs.entries = []) :
    systemTransactionsForBlockID E (dataStore choices) id s = .error .notFound := by
  refine (bind_decode_notFound E.systemTransactions _).mpr
    (kept_missing choices (archived.uncut .systemTransactions (by decide) (by decide)) (fun d there v written same => ?_))
  obtain ⟨present,rfl⟩ := mem_systemRecord.mp written
  obtain ⟨noTransactions,noNumbers⟩ := none d there (identifier_injective same)
  simp [noTransactions,noNumbers] at present

/-- A scheduled transaction that was processed in blocks of one height is found by its number. -/
theorem archived_scheduled (here : c ∈ cs) {id : Nat} (member : id ∈ c.scheduledTransactionIDs)
    (only : ∀ d ∈ seen, id ∈ d.scheduledTransactionIDs → d.block.height = c.block.height) :
    blockIDByScheduledTransactionID (dataStore choices) id s = .ok (E.blockID c.block) := by
  obtain ⟨tx,found⟩ := Option.isSome_iff_exists.mp (AList.lookup_isSome.mpr member)
  refine kept_read_own choices (archived.uncut .scheduledTransactionIndex (by decide) (by decide)) (by decide) (by decide)
    here (List.mem_map.mpr ⟨⟨id,tx⟩,AList.mem_lookup_iff.mp found,rfl⟩) (fun d there v written same => ?_)
    (fun v written _ => ?_)
  · obtain ⟨entry,inside,rfl⟩ := List.mem_map.mp written
    obtain rfl : entry.1 = id := scheduledTransactionID_injective same
    exact only d there (AList.mem_keys.mpr (List.mem_keys_of_mem inside))
  · obtain ⟨entry,inside,rfl⟩ := List.mem_map.mp written
    exact blockIDOfBytes_bytes _

/-- A system transaction that is not static and was run in blocks of one height is found by its identifier. -/
theorem archived_scheduledBlock (here : c ∈ cs) {id : Identifier} (member : id ∈ c.systemTransactionResults)
    (dynamic : static id = false) (only : ∀ d ∈ seen, id ∈ d.systemTransactionResults → d.block.height = c.block.height) :
    scheduledTransactionBlockIDByTxID (dataStore choices) id s = .ok (E.blockID c.block) := by
  refine kept_read_own choices (archived.uncut .scheduledTransactionBlockIndex (by decide) (by decide)) (by decide)
    (by decide) here (mem_scheduledBlockWrites.mpr ⟨id,member,dynamic,rfl⟩) (fun d there v written same => ?_)
    (fun v written _ => ?_)
  · obtain ⟨other,inside,_,rfl⟩ := mem_scheduledBlockWrites.mp written
    obtain rfl : other = id := identifier_injective same
    exact only d there inside
  · obtain ⟨_,_,_,rfl⟩ := mem_scheduledBlockWrites.mp written
    exact blockIDOfBytes_bytes _

/-- For a system transaction that is not static some block it was run in is found. -/
theorem archived_someScheduledBlock (here : c ∈ cs) {id : Identifier} (member : id ∈ c.systemTransactionResults)
    (dynamic : static id = false) :
    ∃ d ∈ seen, id ∈ d.systemTransactionResults ∧
      scheduledTransactionBlockIDByTxID (dataStore choices) id s = .ok (E.blockID d.block) := by
  obtain ⟨d,there,v,written,same,read⟩ := kept_read choices
    (archived.uncut .scheduledTransactionBlockIndex (by decide) (by decide)) here
    (mem_scheduledBlockWrites.mpr ⟨id,member,dynamic,rfl⟩)
  obtain ⟨other,inside,_,rfl⟩ := mem_scheduledBlockWrites.mp written
  obtain rfl : other = id := identifier_injective same
  refine ⟨d,there,inside,?_⟩
  have bytes : (dataStore choices).getBytes .scheduledTransactionBlockIndex (identifier other) s =
    .ok (E.blockID d.block).bytes := read
  unfold scheduledTransactionBlockIDByTxID
  rw [bytes]
  exact blockIDOfBytes_bytes _

theorem archived_noScheduledBlock {id : Identifier} (none : ∀ d ∈ seen, ¬ (id ∈ d.systemTransactionResults ∧ static id = false)) :
    scheduledTransactionBlockIDByTxID (dataStore choices) id s = .error .notFound := by
  have missing := kept_missing choices (archived.uncut .scheduledTransactionBlockIndex (by decide) (by decide))
    (fun d there v written same => by
      obtain ⟨other,inside,dynamic,rfl⟩ := mem_scheduledBlockWrites.mp written
      obtain rfl : other = id := identifier_injective same
      exact none d there ⟨inside,dynamic⟩ : ∀ d ∈ seen, ∀ v ∈ savedTo E static 0 d .scheduledTransactionBlockIndex,
        v.key ≠ identifier id)
  have bytes : (dataStore choices).getBytes .scheduledTransactionBlockIndex (identifier id) s = .error .notFound := missing
  unfold scheduledTransactionBlockIDByTxID
  rw [bytes]
  rfl

/-- The ledger reads the last write of the chain up to a height. -/
theorem archived_ledger (chain : Chain 0 cs) (height : Nat) (r : RegisterID) :
    ledgerByHeight E (dataStore choices) height r s = .ok ((lastWrite (writesAt cs r) height).getD []) := by
  have held : Held (fun c => savedTo E static 0 c .ledger) cs (s.database .ledger) :=
    kept_held (archived.cut .ledger (by decide)) (savedTo_proper (by decide))
  exact held_ledger held chain height r

/-- A block is found by its height when there is no other one at the height. -/
theorem archived_block (here : c ∈ cs) (only : ∀ d ∈ cs, d.block.height = c.block.height → d.block = c.block) :
    blockByHeight E (dataStore choices) c.block.height s = .ok c.block := by
  obtain ⟨d,there,v,written,same,read⟩ := kept_read choices (archived.cut .blocks (by decide)) here
    (List.mem_singleton.mpr rfl)
  rw [List.mem_singleton.mp written] at same read
  have bytes : (dataStore choices).getBytes .blocks (blockHeight c.block.height) s = .ok (E.block.encode d.block) := read
  unfold blockByHeight
  rw [bytes,only d there (blockHeight_injective same)]
  exact decode_encode ..

/-- By an identifier of the chain a block with the identifier is found. -/
theorem archived_blockByID (here : c ∈ cs) (only : ∀ d ∈ cs, ∀ e ∈ cs, d.block.height = e.block.height → d = e) :
    ∃ d ∈ cs, E.blockID d.block = E.blockID c.block ∧
      blockByID E (dataStore choices) (E.blockID c.block) s = .ok d.block := by
  obtain ⟨d,there,v,written,same,read⟩ := kept_read choices (archived.cut .blockIndex (by decide)) here
    (List.mem_singleton.mpr rfl)
  rw [List.mem_singleton.mp written] at same read
  have bytes : (dataStore choices).getBytes .blockIndex (identifier (E.blockID c.block)) s =
    .ok (E.uint64.encode d.block.height) := read
  refine ⟨d,there,identifier_injective same,?_⟩
  unfold blockByID
  rw [bytes]
  show (decode E.uint64 (E.uint64.encode d.block.height)).bind _ = _
  rw [decode_encode]
  exact archived_block choices archived there (fun e other height => congrArg BlockContents.block (only e other d there height))

theorem archived_noID {id : Identifier} (none : ∀ d ∈ cs, E.blockID d.block ≠ id) :
    blockByID E (dataStore choices) id s = .error .notFound := by
  have missing := kept_missing choices (archived.cut .blockIndex (by decide))
    (fun d there v written same => none d there (by
      rw [List.mem_singleton.mp written] at same
      exact identifier_injective same) : ∀ d ∈ cs, ∀ v ∈ savedTo E static 0 d .blockIndex, v.key ≠ identifier id)
  have bytes : (dataStore choices).getBytes .blockIndex (identifier id) s = .error .notFound := missing
  unfold blockByID
  rw [bytes]
  rfl

theorem archived_noBlock {height : Nat} (none : ∀ d ∈ cs, d.block.height ≠ height) :
    blockByHeight E (dataStore choices) height s = .error .notFound := by
  refine (bind_decode_notFound E.block _).mpr (kept_missing choices (archived.cut .blocks (by decide))
    (fun d there v written same => ?_))
  rw [List.mem_singleton.mp written] at same
  exact none d there (blockHeight_injective same)

theorem archived_events (chain : Chain 0 cs) (here : c ∈ cs) (eventType : String) :
    eventsByHeight E (dataStore choices) c.block.height eventType s = .ok (eventsOfType eventType c.events) := by
  obtain ⟨d,there,v,written,same,read⟩ := kept_read choices (archived.cut .events (by decide)) here
    (List.mem_singleton.mpr rfl)
  rw [List.mem_singleton.mp written] at same read
  obtain rfl := chain_height_inj chain there here (blockHeight_injective same)
  have bytes : (dataStore choices).getBytes .events (blockHeight d.block.height) s = .ok (E.events.encode d.events) := read
  unfold eventsByHeight
  rw [bytes]
  simp only [decode_encode]
  rfl

end
end
end FlowEmulator.Sqlite
