import FlowEmulator.Commits
import FlowEmulator.Samples

/-!
Whether a plain read of the SQL store returns what was set last. A log records
every write with the height that was current (`watched`), and the tables that no
rollback purges hold the last write to each slot (`Logged`). A slot has a height
in it, except for the globals, so a key that was set at several heights has
several rows without a version, and any of them may be read (`getBytes_last_iff`).
-/
namespace FlowEmulator.Sqlite
open FlowEmulator.Text FlowEmulator.Keys FlowEmulator.Fallible FlowEmulator.VersionedTable FlowEmulator.DefaultStore
open FlowEmulator.Samples (encoding)

/-! ### The log of the writes -/

/-- A write and the height that was current. -/
structure Entry where
  height : Nat
  write : Write

/-- The row of a logged write. -/
def Entry.row (entry : Entry) : Row Bytes Bytes := rowAt entry.height entry.write

/-- A store and the writes so far. -/
abbrev Watched := Store × List Entry

/-- Perform a write and log it. -/
def logging (choices : Choices) (w : Write) : StoreM Watched Unit := fun x =>
  match w.perform (dataStore choices) x.1 with
  | (result,after) => (result,after,x.2 ++ [⟨x.1.currentHeight,w⟩])

/-- The backend with a log of its writes. -/
def watched (choices : Choices) : DataStore Watched where
  getBytes name key x := getBytes choices name key x.1
  getBytesAtVersion name key version x := selectAtVersion choices name key version x.1
  setBytes name key value := logging choices (.plain name key value)
  setBytesWithVersion name key value version := logging choices (.versioned name key value version)
  setCurrentHeight height x := (x.1.setCurrentHeight height,x.2)

/-- What may be done to the store. -/
inductive Change where
  | setBytes (name : StoreName) (key value : Bytes)
  | storeBlock (block : Block)
  | setBlockHeight (height : Nat)
  | rollbackToBlockHeight (height : Nat)

/-- Do it to the store. -/
def change (E : Encoding) (choices : Choices) : Change → Store → Store
  | .setBytes name key value, s => (setBytes name key value s).2
  | .storeBlock block, s => (storeBlock E (dataStore choices) block s).2
  | .setBlockHeight height, s => (setBlockHeight E (dataStore choices) height s).2
  | .rollbackToBlockHeight height, s => (rollbackToBlockHeight E choices height s).2

/-- The rollback with a log. -/
def watchedRollback (E : Encoding) (choices : Choices) (height : Nat) : StoreM Watched Unit := do
  let currentHeight ← view fun x => x.1.currentHeight
  if currentHeight ≤ height then fail .rollbackHeight
  else do
    update fun x => (x.1.setDatabase (purge height x.1.database),x.2)
    setBlockHeight E (watched choices) height

/-- Do it and log the writes. -/
def watchedChange (E : Encoding) (choices : Choices) : Change → Watched → Watched
  | .setBytes name key value, x => ((watched choices).setBytes name key value x).2
  | .storeBlock block, x => (storeBlock E (watched choices) block x).2
  | .setBlockHeight height, x => (setBlockHeight E (watched choices) height x).2
  | .rollbackToBlockHeight height, x => (watchedRollback E choices height x).2

section
variable {E : Encoding} {choices : Choices}

theorem logging_projects (w : Write) : Projects Prod.fst (logging choices w) (w.perform (dataStore choices)) :=
  fun _ => rfl

theorem setBlockHeight_projects (height : Nat) :
    Projects Prod.fst (setBlockHeight E (watched choices) height) (setBlockHeight E (dataStore choices) height) :=
  projects_bind (projects_update fun _ => rfl) (fun _ => logging_projects (.plain .global Keys.latestBlock _))

theorem storeBlock_projects (block : Block) :
    Projects Prod.fst (storeBlock E (watched choices) block) (storeBlock E (dataStore choices) block) := by
  refine projects_bind (projects_update fun _ => rfl) (fun _ => ?_)
  refine projects_bind (projects_attempt fun _ => rfl) (fun latest => ?_)
  refine projects_bind (logging_projects (.plain .blocks _ _)) (fun _ => ?_)
  refine projects_bind (logging_projects (.plain .blockIndex _ _)) (fun _ => ?_)
  split
  · exact logging_projects (.plain .global Keys.latestBlock _)
  · exact projects_pure ()

theorem rollback_projects (height : Nat) :
    Projects Prod.fst (watchedRollback E choices height) (rollbackToBlockHeight E choices height) := by
  refine projects_bind (projects_view Store.currentHeight) (fun currentHeight => ?_)
  split
  · exact projects_fail _
  · exact projects_bind (projects_update fun _ => rfl) (fun _ => setBlockHeight_projects height)

/-- The log does not change what is done to the store. -/
theorem watchedChange_store (a : Change) (x : Watched) : (watchedChange E choices a x).1 = change E choices a x.1 := by
  cases a with
  | setBytes name key value => rfl
  | storeBlock block => exact congrArg Prod.snd (storeBlock_projects block x)
  | setBlockHeight height => exact congrArg Prod.snd (setBlockHeight_projects height x)
  | rollbackToBlockHeight height => exact congrArg Prod.snd (rollback_projects height x)

theorem play_watchedChange (changes : List Change) (x : Watched) :
    (Run.play (watchedChange E choices) changes x).1 = Run.play (change E choices) changes x.1 :=
  Run.play_project watchedChange_store changes x

/-! ### The tables hold the last writes -/

/-- The logged writes to a table. -/
def entriesOf (name : StoreName) (log : List Entry) : List Entry := log.filter fun entry => entry.write.store = name

/-- The tables that are not purged are as the logged writes made them. -/
def Logged (x : Watched) : Prop :=
  ∀ name ∉ purged, x.1.database name = ((entriesOf name x.2).map Entry.row).foldl Table.upsert Table.empty

theorem logged_logging (choices : Choices) (w : Write) : Keeps Logged (logging choices w) := by
  intro x logged name kept
  have performed : ((w.perform (dataStore choices)) x.1).2 = x.1.setDatabase (Function.update x.1.database w.store
      ((x.1.database w.store).upsert (rowAt x.1.currentHeight w))) := by
    cases w <;> rfl
  show ((w.perform (dataStore choices)) x.1).2.database name = _
  have log : (logging choices w x).2.2 = x.2 ++ [⟨x.1.currentHeight,w⟩] := rfl
  rw [performed,Store.setDatabase_database,log,entriesOf,List.filter_append]
  by_cases here : w.store = name
  · subst here
    have new : [(⟨x.1.currentHeight,w⟩ : Entry)].filter (fun entry => entry.write.store = w.store) = [⟨x.1.currentHeight,w⟩] := by
      simp
    rw [Function.update_self,new,List.map_append,List.foldl_append,logged w.store kept]
    rfl
  · have old : [(⟨x.1.currentHeight,w⟩ : Entry)].filter (fun entry => entry.write.store = name) = [] := by
      simp [here]
    rw [Function.update_of_ne (Ne.symm here),old,List.append_nil]
    exact logged name kept

theorem logged_setters : SettersKeep (watched choices) Logged :=
  ⟨fun name key value => logged_logging choices (.plain name key value),
    fun name key value version => logged_logging choices (.versioned name key value version),fun _ _ logged => logged⟩

theorem logged_setBlockHeight (height : Nat) : Keeps Logged (setBlockHeight E (watched choices) height) :=
  keeps_bind (keeps_update (logged_setters.setCurrentHeight height)) (fun _ => logged_setters.setBytes _ _ _)

theorem logged_rollback (height : Nat) : Keeps Logged (watchedRollback E choices height) := by
  refine keeps_bind (keeps_view Logged _) (fun currentHeight => ?_)
  split
  · exact keeps_fail Logged _
  · refine keeps_bind (keeps_update ?_) (fun _ => logged_setBlockHeight height)
    intro x logged name kept
    show (x.1.setDatabase (purge height x.1.database)).database name = _
    rw [Store.setDatabase_database,purge_apply,if_neg kept]
    exact logged name kept

theorem logged_change (a : Change) (x : Watched) (logged : Logged x) : Logged (watchedChange E choices a x) := by
  cases a with
  | setBytes name key value => exact logged_setters.setBytes name key value x logged
  | storeBlock block => exact keeps_storeBlock logged_setters block x logged
  | setBlockHeight height => exact logged_setBlockHeight height x logged
  | rollbackToBlockHeight height => exact logged_rollback height x logged

theorem logged_play (url : Url) (changes : List Change) :
    Logged (Run.play (watchedChange E choices) changes (fresh url,[])) := by
  have first : Logged (fresh url,[]) := fun name _ => fresh_database url name
  have step (x : Watched) (a : Change) (logged : Logged x) (_ : True) : Logged (watchedChange E choices a x) :=
    logged_change a x logged
  exact Run.play_keeps step first (Run.throughout_all fun _ _ => trivial)

/-! ### The values set last -/

/-- The write sets a key of a table, without a version. -/
def Entry.sets (name : StoreName) (key : Bytes) (entry : Entry) : Bool :=
  decide (entry.write.store = name ∧ entry.write.key = key ∧ entry.write.version = 0)

theorem sets_iff {name : StoreName} {key : Bytes} {entry : Entry} :
    entry.sets name key = true ↔ entry.write.store = name ∧ entry.write.key = key ∧ entry.write.version = 0 :=
  decide_eq_true_iff

/-- The value that was set last for a key. -/
def lastSet (name : StoreName) (key : Bytes) (log : List Entry) : Option Bytes :=
  (log.filter (Entry.sets name key)).getLast?.map fun entry => entry.write.value

/-- The writes while a height was current. -/
def during (height : Nat) (log : List Entry) : List Entry := log.filter fun entry => decide (entry.height = height)

/-- The writes to rows of a height. -/
def rowsOf (height : Nat) (log : List Entry) : List Entry := log.filter fun entry => decide (entry.row.height = height)

theorem lastSet_filter {name : StoreName} {key : Bytes} {keep keep' : Entry → Bool}
    (same : ∀ entry, entry.sets name key = true → keep entry = keep' entry) (log : List Entry) :
    lastSet name key (log.filter keep) = lastSet name key (log.filter keep') := by
  unfold lastSet
  rw [List.filter_filter,List.filter_filter]
  congr 2
  apply List.filter_congr
  intro entry _
  cases sets : entry.sets name key with
  | false => rfl
  | true => rw [Bool.true_and,Bool.true_and,same entry sets]

/-- Outside the globals the rows of a height are those that were written while it was current. -/
theorem lastSet_rowsOf {name : StoreName} (proper : name ≠ .global) (key : Bytes) (height : Nat) (log : List Entry) :
    lastSet name key (rowsOf height log) = lastSet name key (during height log) := by
  apply lastSet_filter
  intro entry sets
  have here : entry.write.store ≠ .global := (sets_iff.mp sets).1 ▸ proper
  have same : entry.row.height = entry.height := if_neg here
  rw [same]

/-- All rows of the globals are of height zero. -/
theorem lastSet_global {key value : Bytes} {height : Nat} {log : List Entry}
    (found : lastSet .global key (rowsOf height log) = some value) : lastSet .global key log = some value := by
  have zero (entry : Entry) (sets : entry.sets .global key = true) : entry.row.height = 0 := if_pos (sets_iff.mp sets).1
  have same : height = 0 := by
    obtain ⟨entry,last,_⟩ := Option.map_eq_some_iff.mp found
    obtain ⟨inside,sets⟩ := List.mem_filter.mp (List.mem_of_getLast? last)
    rw [← of_decide_eq_true (List.mem_filter.mp inside).2,zero entry sets]
  have all : lastSet .global key (rowsOf height log) = lastSet .global key (log.filter fun _ => true) :=
    lastSet_filter (fun entry sets => by rw [zero entry sets,same]; rfl) log
  rw [List.filter_true] at all
  exact all.symm.trans found

/-- The value that was set last was set last while its height was current. -/
theorem lastSet_rowsOf_some {name : StoreName} {key value : Bytes} {log : List Entry}
    (found : lastSet name key log = some value) : ∃ height, lastSet name key (rowsOf height log) = some value := by
  obtain ⟨entry,last,rfl⟩ := Option.map_eq_some_iff.mp found
  refine ⟨entry.row.height,Option.map_eq_some_iff.mpr ⟨entry,?_,rfl⟩⟩
  obtain ⟨before,split⟩ := List.getLast?_eq_some_iff.mp last
  rw [rowsOf,List.filter_filter]
  have swap : log.filter (fun each => each.sets name key && decide (each.row.height = entry.row.height))
      = (log.filter (Entry.sets name key)).filter (fun each => decide (each.row.height = entry.row.height)) := by
    rw [List.filter_filter]
    exact List.filter_congr fun each _ => Bool.and_comm _ _
  rw [swap,split,List.filter_append]
  simp

/-- The rows of a key without a version hold the values set last at their heights. -/
theorem mem_logged {x : Watched} (logged : Logged x) {name : StoreName} (kept : name ∉ purged) {key text : Bytes}
    {height : Nat} : (⟨hexEncode key,text,0,height⟩ : Row Bytes Bytes) ∈ (x.1.database name).rows ↔
      (lastSet name key (rowsOf height x.2)).map hexEncode = some text := by
  have rows : ((entriesOf name x.2).map Entry.row).filter
        (fun new => decide (new.slot = (⟨hexEncode key,text,0,height⟩ : Row Bytes Bytes).slot))
      = ((rowsOf height x.2).filter (Entry.sets name key)).map Entry.row := by
    rw [List.filter_map,entriesOf,rowsOf,List.filter_filter,List.filter_filter]
    congr 1
    apply List.filter_congr
    intro entry _
    rw [Bool.eq_iff_iff]
    simp only [Function.comp_apply,Bool.and_eq_true,decide_eq_true_eq,sets_iff,Row.slot,Prod.mk.injEq]
    constructor
    · rintro ⟨⟨texts,version,rowHeight⟩,store⟩
      exact ⟨⟨store,hexEncode_injective texts,version⟩,rowHeight⟩
    · rintro ⟨⟨store,same,version⟩,rowHeight⟩
      exact ⟨⟨congrArg hexEncode same,version,rowHeight⟩,store⟩
  rw [logged name kept,mem_written,rows,List.getLast?_map,lastSet,Option.map_map,Option.map_eq_some_iff,
    Option.map_eq_some_iff]
  refine exists_congr fun entry => and_congr_right fun last => ?_
  obtain ⟨inside,sets⟩ := List.mem_filter.mp (List.mem_of_getLast? last)
  obtain ⟨_,same,version⟩ := sets_iff.mp sets
  have rowHeight : entry.row.height = height := of_decide_eq_true (List.mem_filter.mp inside).2
  constructor
  · intro row
    exact congrArg Row.value row
  · intro value
    have whole : entry.row = ⟨hexEncode entry.write.key,hexEncode entry.write.value,entry.write.version,entry.row.height⟩ := rfl
    have texts : hexEncode entry.write.value = text := value
    rw [whole,same,version,rowHeight,texts]

/-- A read returns a value for every choice of the row exactly when every row read so has it. -/
theorem getBytes_every {x : Watched} (logged : Logged x) {name : StoreName} (kept : name ∉ purged) {key value : Bytes} :
    (∀ answers : Choices, getBytes answers name key x.1 = .ok value) ↔
      ∀ choice, select choice (x.1.database name) (hexEncode key) 0 = some (hexEncode value) := by
  constructor
  · intro every choice
    have read := every fun _ _ _ => choice
    unfold getBytes selectAtVersion at read
    split at read
    · cases read
    · next text found =>
      obtain ⟨row,member,same,low,rfl,_⟩ := select_some found
      have whole : row = ⟨hexEncode key,row.value,0,row.height⟩ := by
        rw [← same,← Nat.le_zero.mp low]
      rw [whole] at member
      obtain ⟨last,_,text⟩ := Option.map_eq_some_iff.mp ((mem_logged logged kept).mp member)
      rw [← text,hexDecode_hexEncode] at read
      cases read
      rw [found,text]
  · intro every answers
    exact selectAtVersion_some (every _)

/-- The values set for a key at different heights agree: at each height the value
    set last is the value set last of all. -/
def SetAlike (name : StoreName) (key value : Bytes) (log : List Entry) : Prop :=
  ∀ height last, lastSet name key (during height log) = some last → last = value

theorem getBytes_logged {x : Watched} (logged : Logged x) {name : StoreName} (kept : name ∉ purged) {key value : Bytes}
    (written : lastSet name key x.2 = some value) :
    (∀ answers : Choices, getBytes answers name key x.1 = .ok value) ↔ name = .global ∨ SetAlike name key value x.2 := by
  rw [getBytes_every logged kept,select_every]
  constructor
  · rintro ⟨_,agree⟩
    by_cases proper : name = .global
    · exact .inl proper
    · refine .inr fun height last found => ?_
      rw [← lastSet_rowsOf proper] at found
      have member := (mem_logged logged kept).mpr (congrArg (Option.map hexEncode) found)
      exact hexEncode_injective (agree _ member rfl rfl)
  · intro alike
    refine ⟨?_,?_⟩
    · obtain ⟨height,found⟩ := lastSet_rowsOf_some written
      exact ⟨_,(mem_logged logged kept).mpr (congrArg (Option.map hexEncode) found),rfl,rfl⟩
    · rintro ⟨_,text,_,height⟩ member rfl rfl
      obtain ⟨last,found,rfl⟩ := Option.map_eq_some_iff.mp ((mem_logged logged kept).mp member)
      refine congrArg hexEncode ?_
      by_cases proper : name = .global
      · subst proper
        exact Option.some.inj ((lastSet_global found).symm.trans written)
      · rw [lastSet_rowsOf proper] at found
        exact alike.resolve_left proper height last found

/-- Set a key at one height and then at a lower one. -/
def setTwice (first second : Bytes) : List Change :=
  [.setBlockHeight 2,.setBytes .scheduledTransactionIndex [7] first,.setBlockHeight 1,
    .setBytes .scheduledTransactionIndex [7] second]

theorem setTwice_log (E : Encoding) (choices : Choices) (first second : Bytes) :
    (Run.play (watchedChange E choices) (setTwice first second) (fresh .inMemory,[])).2 =
      [⟨2,.plain .global Keys.latestBlock (E.uint64.encode 2)⟩,⟨2,.plain .scheduledTransactionIndex [7] first⟩,
        ⟨1,.plain .global Keys.latestBlock (E.uint64.encode 1)⟩,⟨1,.plain .scheduledTransactionIndex [7] second⟩] := rfl

end
end FlowEmulator.Sqlite
