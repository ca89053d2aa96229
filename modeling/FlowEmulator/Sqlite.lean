import FlowEmulator.DefaultStore
import FlowEmulator.VersionedTable

/-!
The backend over SQL databases. A row carries the height that was current when it
was written; rolling back deletes rows by that column from a fixed list of
tables. A snapshot is a database of its own, and loading it opens that database.
`Wrote` says what a list of writes does to a store.
-/
namespace FlowEmulator.Sqlite
open FlowEmulator.Text FlowEmulator.Keys FlowEmulator.Fallible FlowEmulator.VersionedTable FlowEmulator.DefaultStore

/-- The tables of a database. Keys and values are kept as hexadecimal text. -/
abbrev Database := StoreName → Table Bytes Bytes

/-- The tables as they are created. -/
def initDb : Database := fun _ => Table.empty

inductive DatabaseName where
  | main
  | snapshot (name : String)
deriving DecidableEq

/-- Where the databases live. -/
inductive Url where
  | inMemory
  | directory
  | file
deriving DecidableEq

/-- The databases that exist and the one that is open. -/
structure Store where
  url : Url
  databases : DatabaseName → Option Database
  db : DatabaseName
  opened : (databases db).isSome
  currentHeight : Nat
  snapshotNames : List String

namespace Store

/-- The content of the open database. -/
def database (s : Store) : Database := (s.databases s.db).get s.opened

def setDatabase (s : Store) (content : Database) : Store :=
  { s with databases := Function.update s.databases s.db (some content), opened := by simp }

def setCurrentHeight (height : Nat) (s : Store) : Store := { s with currentHeight := height }

@[simp] theorem setDatabase_database (s : Store) (content : Database) : (s.setDatabase content).database = content := by
  simp [database,setDatabase]

@[simp] theorem setCurrentHeight_database (height : Nat) (s : Store) :
    (s.setCurrentHeight height).database = s.database := rfl

theorem database_eq {s : Store} {content : Database} (found : s.databases s.db = some content) :
    s.database = content := by
  unfold database
  simp only [found,Option.get_some]

theorem databases_db (s : Store) : s.databases s.db = some s.database := (Option.some_get s.opened).symm

end Store

/-- Open the store at a place where some databases may exist already. -/
def new (url : Url) (disk : DatabaseName → Option Database) : Store where
  url := url
  databases := Function.update disk .main (some ((disk .main).getD initDb))
  db := .main
  opened := by simp
  currentHeight := 0
  snapshotNames := []

/-- Stop the process and open the store again. What was in memory is gone. -/
def reopen (s : Store) : Store := new s.url (if s.url = .inMemory then fun _ => none else s.databases)

theorem new_database (url : Url) (disk : DatabaseName → Option Database) :
    (new url disk).database = (disk .main).getD initDb := Store.database_eq (by simp [new])

theorem reopen_database {s : Store} (main : s.db = .main) (lasting : s.url ≠ .inMemory) :
    (reopen s).database = s.database := by
  unfold reopen
  rw [new_database,if_neg lasting,← main,s.databases_db,Option.getD_some]

/-- For each query, the row taken among the rows of greatest version. -/
abbrev Choices := StoreName → Bytes → Nat → RowChoice Bytes Bytes

/-- Take the row that was written first. -/
def Choices.earliest : Choices := fun _ _ _ => TopChoice.earliest Row.version

/-- The query for a version that the driver takes. The heights of a chain that is built here are such versions. -/
def selectAtVersion (choices : Choices) (name : StoreName) (key : Bytes) (version : Nat) (s : Store) :
    Except StoreError Bytes :=
  match select (choices name key version) (s.database name) (hexEncode key) version with
  | none => .error .notFound
  | some text => match hexDecode text with
    | some value => .ok value
    | none => .error .undecodable

/-- The query for any version. The driver refuses numbers with the highest bit set. -/
def getBytesAtVersion (choices : Choices) (name : StoreName) (key : Bytes) (version : Nat) (s : Store) :
    Except StoreError Bytes :=
  if version < 2^63 then selectAtVersion choices name key version s else .error .highBitSet

def getBytes (choices : Choices) (name : StoreName) (key : Bytes) (s : Store) : Except StoreError Bytes :=
  selectAtVersion choices name key 0 s

def setBytesWithVersion (name : StoreName) (key value : Bytes) (version : Nat) : StoreM Store Unit :=
  update fun s =>
    let height := if name = .global then 0 else s.currentHeight
    s.setDatabase (Function.update s.database name
      ((s.database name).upsert ⟨hexEncode key,hexEncode value,version,height⟩))

def setBytes (name : StoreName) (key value : Bytes) : StoreM Store Unit := setBytesWithVersion name key value 0

def dataStore (choices : Choices) : DataStore Store where
  getBytes := getBytes choices
  getBytesAtVersion := selectAtVersion choices
  setBytes := setBytes
  setBytesWithVersion := setBytesWithVersion
  setCurrentHeight := Store.setCurrentHeight

/-- The chain store over the databases. -/
def store (E : Encoding) (choices : Choices) : FlowEmulator.Store Store := DefaultStore.store E (dataStore choices)

/-- The tables a rollback deletes from, in order. -/
def purged : List StoreName :=
  [.ledger,.blocks,.blockIndex,.events,.transactions,.collections,.transactionResults]

/-- Delete the rows above a height, table by table. -/
def purge (height : Nat) (content : Database) : Database :=
  purged.foldl (fun tables name => Function.update tables name ((tables name).deleteAbove height)) content

def rollbackToBlockHeight (E : Encoding) (choices : Choices) (height : Nat) : StoreM Store Unit := do
  let currentHeight ← view Store.currentHeight
  if currentHeight ≤ height then fail .rollbackHeight
  else do
    update fun s => s.setDatabase (purge height s.database)
    setBlockHeight E (dataStore choices) height

def supportSnapshotsWithCurrentConfig (s : Store) : Bool := s.url != .file

/-- Open the database of a snapshot in place of the one that is open. -/
def loadSnapshot (name : String) : StoreM Store Unit := fun s =>
  if supportSnapshotsWithCurrentConfig s then
    match found : s.databases (.snapshot name) with
    | none => (.error (.snapshotMissing name),s)
    | some _ => (.ok (),{ s with db := .snapshot name, opened := by rw [found]; rfl })
  else (.error .snapshotUnsupported,s)

/-- Copy the open database into a database that does not exist yet. -/
def createSnapshot (name : String) : StoreM Store Unit := fun s =>
  if supportSnapshotsWithCurrentConfig s then
    match s.databases (.snapshot name) with
    | some _ => (.error .backend,s)
    | none => (.ok (),{ s with
        databases := Function.update s.databases (.snapshot name) (some s.database)
        opened := by
          by_cases same : s.db = .snapshot name
          · rw [same]; simp
          · rw [Function.update_of_ne same]; exact s.opened
        snapshotNames := s.snapshotNames ++ [name] })
  else (.error .snapshotUnsupported,s)

/-! ### What reads depend on -/

/-- Reads look at the tables of the open database. -/
theorem sameBytes_of_table {choices : Choices} {s t : Store} {name : StoreName}
    (same : s.database name = t.database name) : SameBytes (dataStore choices) (dataStore choices) s t name := by
  have versions (key : Bytes) (version : Nat) :
      selectAtVersion choices name key version s = selectAtVersion choices name key version t := by
    unfold selectAtVersion
    rw [same]
  exact ⟨fun key => versions key 0,versions⟩

/-- Two choices of rows read the same from a table whose tied rows agree. -/
theorem sameBytes_of_coherent {choices choices' : Choices} {s t : Store} {name : StoreName}
    (same : s.database name = t.database name) (coherent : Coherent (t.database name)) :
    SameBytes (dataStore choices) (dataStore choices') s t name := by
  have versions (key : Bytes) (version : Nat) :
      selectAtVersion choices name key version s = selectAtVersion choices' name key version t := by
    unfold selectAtVersion
    rw [same,select_coherent coherent (choices name key version) (choices' name key version)]
  exact ⟨fun key => versions key 0,versions⟩

theorem selectAtVersion_some {choices : Choices} {name : StoreName} {key value : Bytes} {version : Nat} {s : Store}
    (read : select (choices name key version) (s.database name) (hexEncode key) version = some (hexEncode value)) :
    selectAtVersion choices name key version s = .ok value := by
  unfold selectAtVersion
  simp only [read,hexDecode_hexEncode]

theorem selectAtVersion_none {choices : Choices} {name : StoreName} {key : Bytes} {version : Nat} {s : Store}
    (read : select (choices name key version) (s.database name) (hexEncode key) version = none) :
    selectAtVersion choices name key version s = .error .notFound := by
  unfold selectAtVersion
  simp only [read]

/-- Bytes are missing exactly when no row qualifies. -/
theorem selectAtVersion_notFound {choices : Choices} {name : StoreName} {key : Bytes} {version : Nat} {s : Store} :
    selectAtVersion choices name key version s = .error .notFound ↔
      ∀ row ∈ (s.database name).rows, row.key = hexEncode key → version < row.version := by
  rw [← @select_none _ _ _ (choices name key version)]
  refine ⟨fun missing => ?_,selectAtVersion_none⟩
  unfold selectAtVersion at missing
  split at missing
  · next none => exact none
  · next text read =>
    split at missing <;> cases missing

/-! ### The table of globals -/

/-- The table has one row for each cell that is set, with no version and no height. -/
structure Cells (table : Table Bytes Bytes) (cells : Bytes → Option Bytes) : Prop where
  flat : ∀ row ∈ table.rows, row.version = 0 ∧ row.height = 0
  held : ∀ key text, (⟨hexEncode key,text,0,0⟩ : Row Bytes Bytes) ∈ table.rows ↔ (cells key).map hexEncode = some text

theorem cells_empty : Cells Table.empty (fun _ => none) :=
  ⟨fun _ member => absurd member List.not_mem_nil,fun _ _ => by simp [Table.empty]⟩

theorem cells_upsert {table : Table Bytes Bytes} {cells : Bytes → Option Bytes} (holds : Cells table cells)
    (key value : Bytes) :
    Cells (table.upsert ⟨hexEncode key,hexEncode value,0,0⟩) (Function.update cells key (some value)) := by
  refine ⟨?_,?_⟩
  · intro row member
    rcases mem_upsert.mp member with rfl | ⟨old,_⟩
    · exact ⟨rfl,rfl⟩
    · exact holds.flat row old
  · intro other text
    rw [mem_upsert,holds.held]
    by_cases same : other = key
    · subst same
      simp [Row.slot,eq_comm]
    · have apart : hexEncode other ≠ hexEncode key := fun texts => same (hexEncode_injective texts)
      simp [Row.slot,Function.update_of_ne same,apart]

theorem select_cells {table : Table Bytes Bytes} {cells : Bytes → Option Bytes} (holds : Cells table cells)
    (choice : RowChoice Bytes Bytes) (key : Bytes) (version : Nat) :
    select choice table (hexEncode key) version = (cells key).map hexEncode := by
  have text (row : Row Bytes Bytes) (member : row ∈ table.rows) (same : row.key = hexEncode key) :
      (cells key).map hexEncode = some row.value := by
    obtain ⟨version,height⟩ := holds.flat row member
    have whole : (⟨hexEncode key,row.value,0,0⟩ : Row Bytes Bytes) = row := by
      rw [← same,← version]
      exact congrArg (Row.mk row.key row.value row.version) (version.trans height.symm)
    rw [← holds.held,whole]
    exact member
  cases found : (cells key).map hexEncode with
  | none =>
    rw [select_none]
    intro row member same
    rw [text row member same] at found
    cases found
  | some value =>
    refine select_eq ((holds.held key value).mpr found) (Nat.zero_le _) ?_
    intro other member same _
    refine ⟨(holds.flat other member).1.le,fun _ => ?_⟩
    rw [text other member same] at found
    exact Option.some.inj found

/-- The store with a cell set. -/
def setCell (key value : Bytes) (s : Store) : Store :=
  s.setDatabase (Function.update s.database .global
    ((s.database .global).upsert ⟨hexEncode key,hexEncode value,0,0⟩))

theorem setCell_global (key value : Bytes) (s : Store) :
    (setCell key value s).database .global = (s.database .global).upsert ⟨hexEncode key,hexEncode value,0,0⟩ := by
  unfold setCell
  rw [Store.setDatabase_database,Function.update_self]

theorem setCell_other (key value : Bytes) (s : Store) {name : StoreName} (proper : name ≠ .global) :
    (setCell key value s).database name = s.database name := by
  unfold setCell
  rw [Store.setDatabase_database,Function.update_of_ne proper]

/-- A cell that holds a number reads as the number. -/
theorem cells_read {α : Type} {codec : Codec α} {s : Store} {cells : Bytes → Option Bytes}
    (holds : Cells (s.database .global) cells) {key : Bytes} {value : Option α}
    (cell : cells key = value.map codec.encode) (choices : Choices) :
    ((dataStore choices).getBytes .global key s).bind (decode codec) = found value := by
  have read := select_cells holds (choices .global key 0) key 0
  rw [cell] at read
  cases value with
  | none =>
    have missing : (dataStore choices).getBytes .global key s = .error .notFound := selectAtVersion_none read
    rw [missing]; rfl
  | some a =>
    have found : (dataStore choices).getBytes .global key s = .ok (codec.encode a) := selectAtVersion_some read
    rw [found]
    exact decode_encode ..

/-- The cell of the latest height holds the height, or is not set. -/
def Tip (E : Encoding) (s : Store) (latest : Option Nat) : Prop :=
  ∃ cells, Cells (s.database .global) cells ∧ cells Keys.latestBlock = latest.map E.uint64.encode

theorem tip_latestBlockHeight {E : Encoding} {s : Store} {latest : Option Nat} (tip : Tip E s latest)
    (choices : Choices) : latestBlockHeight E (dataStore choices) s = found latest := by
  obtain ⟨cells,holds,cell⟩ := tip
  exact cells_read holds cell choices

theorem tip_read {E : Encoding} {s : Store} {latest : Option Nat} (tip : Tip E s latest) (choices : Choices) :
    latestBlockHeightOrZero E (dataStore choices) s = .ok (latest.getD 0) := by
  unfold latestBlockHeightOrZero
  rw [tip_latestBlockHeight tip]
  cases latest <;> rfl

/-! ### What writes do -/

/-- The row of a write while a height is current. -/
def rowAt (height : Nat) (w : Write) : Row Bytes Bytes :=
  ⟨hexEncode w.key,hexEncode w.value,w.version,if w.store = .global then 0 else height⟩

/-- The writes were performed at a height, and nothing else was done. -/
structure Wrote (height : Nat) (writes : List Write) (s after : Store) : Prop where
  url : after.url = s.url
  db : after.db = s.db
  others : ∀ name, name ≠ s.db → after.databases name = s.databases name
  snapshotNames : after.snapshotNames = s.snapshotNames
  currentHeight : after.currentHeight = height
  table : ∀ name, after.database name = ((writesTo name writes).map (rowAt height)).foldl Table.upsert (s.database name)

theorem wrote_nil (height : Nat) (s : Store) : Wrote height [] s (s.setCurrentHeight height) :=
  ⟨rfl,rfl,fun _ _ => rfl,rfl,rfl,fun _ => rfl⟩

/-- One more write of the backend is one more write performed. -/
theorem wrote_snoc {height : Nat} {writes : List Write} {s after : Store} (wrote : Wrote height writes s after)
    (choices : Choices) (w : Write) :
    ∃ next, w.perform (dataStore choices) after = (.ok (),next) ∧ Wrote height (writes ++ [w]) s next := by
  have row : (⟨hexEncode w.key,hexEncode w.value,w.version,if w.store = .global then 0 else after.currentHeight⟩ :
      Row Bytes Bytes) = rowAt height w := by
    rw [rowAt,wrote.currentHeight]
  refine ⟨after.setDatabase (Function.update after.database w.store ((after.database w.store).upsert (rowAt height w))),
    ?_,wrote.url,wrote.db,?_,wrote.snapshotNames,wrote.currentHeight,?_⟩
  · rw [← row]
    cases w <;> rfl
  · intro name other
    rw [← wrote.others name other]
    exact Function.update_of_ne (wrote.db ▸ other) ..
  · intro name
    rw [Store.setDatabase_database,writesTo_append]
    by_cases same : w.store = name
    · subst same
      have here : writesTo w.store [w] = [w] := by simp [writesTo]
      rw [Function.update_self,here,List.map_append,List.foldl_append,← wrote.table]
      rfl
    · have elsewhere : writesTo name [w] = [] := by simp [writesTo,same]
      rw [Function.update_of_ne (Ne.symm same),elsewhere,List.append_nil]
      exact wrote.table name

theorem wrote_forM {height : Nat} {done : List Write} {s after : Store} (wrote : Wrote height done s after)
    (choices : Choices) (writes : List Write) :
    ∃ final, writes.forM (Write.perform (dataStore choices)) after = (.ok (),final) ∧
      Wrote height (done ++ writes) s final := by
  induction writes generalizing done after with
  | nil => exact ⟨after,rfl,by rw [List.append_nil]; exact wrote⟩
  | cons w rest ih =>
    obtain ⟨next,performed,nextWrote⟩ := wrote_snoc wrote choices w
    obtain ⟨final,run,finalWrote⟩ := ih nextWrote
    rw [List.append_assoc] at finalWrote
    exact ⟨final,by rw [forM_cons,bind_ok performed,run],finalWrote⟩

theorem height_of_rowAt {height : Nat} {writes : List Write} {name : StoreName} (proper : name ≠ .global) :
    ∀ row ∈ (writesTo name writes).map (rowAt height), row.height = height := by
  intro row member
  obtain ⟨w,inside,rfl⟩ := List.mem_map.mp member
  have here : w.store = name := by simpa using (List.mem_filter.mp inside).2
  exact if_neg (here ▸ proper)

theorem wrote_deleteAbove {height limit : Nat} {writes : List Write} {s after : Store}
    (wrote : Wrote height writes s after) (above : limit < height) {name : StoreName} (proper : name ≠ .global) :
    (after.database name).deleteAbove limit = (s.database name).deleteAbove limit := by
  rw [wrote.table]
  exact deleteAbove_foldl_above (fun row member => by rw [height_of_rowAt proper row member]; exact above) _

theorem wrote_height {height : Nat} {writes : List Write} {s after : Store} (wrote : Wrote height writes s after)
    {name : StoreName} (proper : name ≠ .global) {row : Row Bytes Bytes} (member : row ∈ (after.database name).rows) :
    row.height = height ∨ row ∈ (s.database name).rows := by
  rw [wrote.table] at member
  rcases mem_foldl_upsert member with new | old
  · exact .inl (height_of_rowAt proper row new)
  · exact .inr old

/-- The row of the cell of the latest height. -/
def tipRow (E : Encoding) (height : Nat) : Row Bytes Bytes :=
  ⟨hexEncode Keys.latestBlock,hexEncode (E.uint64.encode height),0,0⟩

theorem tip_upsert {E : Encoding} {s after : Store} {latest : Option Nat} (tip : Tip E s latest) {height : Nat}
    (table : after.database .global = (s.database .global).upsert (tipRow E height)) : Tip E after (some height) := by
  obtain ⟨cells,holds,_⟩ := tip
  refine ⟨_,?_,Function.update_self Keys.latestBlock (some (E.uint64.encode height)) cells⟩
  rw [table]
  exact cells_upsert holds Keys.latestBlock (E.uint64.encode height)

/-- The cell of the latest height has its row. -/
theorem tipRow_mem {E : Encoding} {s : Store} {height : Nat} (tip : Tip E s (some height)) :
    tipRow E height ∈ (s.database .global).rows := by
  obtain ⟨cells,holds,cell⟩ := tip
  refine (holds.held Keys.latestBlock (hexEncode (E.uint64.encode height))).mpr ?_
  rw [cell]
  rfl

theorem tip_of_table {E : Encoding} {s t : Store} {latest : Option Nat} (tip : Tip E s latest)
    (same : t.database .global = s.database .global) : Tip E t latest := by
  unfold Tip
  rw [same]
  exact tip

/-! ### What a rollback does -/

private theorem foldl_update_apply {α : Type} (f : α → α) (names : List StoreName) (distinct : names.Nodup)
    (tables : StoreName → α) (name : StoreName) :
    names.foldl (fun current each => Function.update current each (f (current each))) tables name =
      if name ∈ names then f (tables name) else tables name := by
  induction names generalizing tables with
  | nil => simp
  | cons first rest ih =>
    obtain ⟨fresh,restDistinct⟩ := List.nodup_cons.mp distinct
    rw [List.foldl_cons,ih restDistinct]
    by_cases same : name = first
    · subst same
      rw [if_neg fresh,Function.update_self,if_pos List.mem_cons_self]
    · rw [Function.update_of_ne same]
      simp only [List.mem_cons,same,false_or]

theorem purge_apply (height : Nat) (content : Database) (name : StoreName) :
    purge height content name = if name ∈ purged then (content name).deleteAbove height else content name :=
  foldl_update_apply (Table.deleteAbove height) purged (by decide) content name

/-- The tables after a rollback. -/
def rolledBack (E : Encoding) (height : Nat) (content : Database) (name : StoreName) : Table Bytes Bytes :=
  if name = .global then (content name).upsert (tipRow E height)
  else if name ∈ purged then (content name).deleteAbove height
  else content name

/-- A rollback that is refused changes nothing. -/
theorem rollback_refused {E : Encoding} {choices : Choices} {height : Nat} {s : Store} (low : s.currentHeight ≤ height) :
    rollbackToBlockHeight E choices height s = (.error .rollbackHeight,s) := by
  unfold rollbackToBlockHeight
  rw [bind_ok (view_run Store.currentHeight s),if_pos low,fail_run]

/-- What a rollback that is not refused leaves. -/
structure RolledBack (E : Encoding) (height : Nat) (s after : Store) : Prop where
  url : after.url = s.url
  db : after.db = s.db
  others : ∀ name, name ≠ s.db → after.databases name = s.databases name
  snapshotNames : after.snapshotNames = s.snapshotNames
  currentHeight : after.currentHeight = height
  table : ∀ name, after.database name = rolledBack E height s.database name

theorem rollback_run (E : Encoding) (choices : Choices) {height : Nat} {s : Store} (above : height < s.currentHeight) :
    ∃ after, rollbackToBlockHeight E choices height s = (.ok (),after) ∧ RolledBack E height s after := by
  have refused : ¬ s.currentHeight ≤ height := by omega
  unfold rollbackToBlockHeight
  rw [bind_ok (view_run Store.currentHeight s),if_neg refused]
  refine ⟨_,rfl,rfl,rfl,?_,rfl,rfl,?_⟩
  · intro name other
    exact (Function.update_of_ne other ..).trans (Function.update_of_ne other ..)
  · intro name
    have content : ((dataStore choices).setCurrentHeight height (s.setDatabase (purge height s.database))).database
        = purge height s.database :=
      (Store.setCurrentHeight_database height _).trans (Store.setDatabase_database s _)
    show ((Store.setDatabase _ _).database) name = _
    rw [Store.setDatabase_database,content,if_pos rfl]
    unfold rolledBack
    split
    · next same =>
      subst same
      rw [Function.update_self,purge_apply,if_neg (by decide)]
      rfl
    · next proper => rw [Function.update_of_ne proper,purge_apply]

/-! ### What the operations on snapshots do -/

/-- Loading a snapshot succeeds exactly on an existing one, and then that database is open. -/
theorem loadSnapshot_ok {name : String} {s after : Store} :
    loadSnapshot name s = (.ok (),after) ↔ supportSnapshotsWithCurrentConfig s = true ∧
      (s.databases (.snapshot name)).isSome ∧ after.url = s.url ∧ after.databases = s.databases ∧
      after.db = .snapshot name ∧ after.currentHeight = s.currentHeight ∧ after.snapshotNames = s.snapshotNames := by
  unfold loadSnapshot
  split
  · next supported =>
    split
    · next missing => simp [missing]
    · next content found =>
      constructor
      · intro run
        cases run
        simp [found,supported]
      · rintro ⟨_,_,url,databases,db,currentHeight,snapshotNames⟩
        cases after
        simp_all
  · next unsupported => simp [unsupported]

theorem loadSnapshot_error {name : String} {s after : Store} {e : StoreError}
    (run : loadSnapshot name s = (.error e,after)) : after = s := by
  unfold loadSnapshot at run
  split at run
  · split at run
    · cases run; rfl
    · cases run
  · cases run; rfl

/-- Creating a snapshot succeeds exactly under a free name, and then a copy of the open database exists under it. -/
theorem createSnapshot_ok {name : String} {s after : Store} :
    createSnapshot name s = (.ok (),after) ↔ supportSnapshotsWithCurrentConfig s = true ∧
      s.databases (.snapshot name) = none ∧ after.url = s.url ∧
      after.databases = Function.update s.databases (.snapshot name) (some s.database) ∧
      after.db = s.db ∧ after.currentHeight = s.currentHeight ∧ after.snapshotNames = s.snapshotNames ++ [name] := by
  unfold createSnapshot
  split
  · next supported =>
    split
    · next content taken => simp [taken]
    · next free =>
      constructor
      · intro run
        cases run
        simp [free,supported]
      · rintro ⟨_,_,url,databases,db,currentHeight,snapshotNames⟩
        cases after
        simp_all
  · next unsupported => simp [unsupported]

/-- Creating a snapshot leaves the open database. -/
theorem createSnapshot_database {name : String} {s after : Store} (created : createSnapshot name s = (.ok (),after)) :
    after.database = s.database := by
  obtain ⟨_,free,_,databases,db,_⟩ := createSnapshot_ok.mp created
  have apart : s.db ≠ .snapshot name := by
    intro same
    have opened := s.opened
    rw [same,free] at opened
    cases opened
  refine Store.database_eq ?_
  rw [db,databases,Function.update_of_ne apart,Store.databases_db]

theorem createSnapshot_error {name : String} {s after : Store} {e : StoreError}
    (run : createSnapshot name s = (.error e,after)) : after = s := by
  unfold createSnapshot at run
  split at run
  · split at run
    · cases run; rfl
    · cases run
  · cases run; rfl

end FlowEmulator.Sqlite
