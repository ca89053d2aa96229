import FlowEmulator.Filed
import FlowEmulator.Growth
import FlowEmulator.LinkedChain
import FlowEmulator.Memstore
import FlowEmulator.Redis

/-!
The local stores of the emulator, over SQL, over Redis and in memory. Each of
them grows its chain (`Growing`), the one over SQL as long as no rollback is made
to a height above the latest. So in whole runs each has one block at each height
up to the latest and none above.
-/
namespace FlowEmulator
open FlowEmulator.Fallible FlowEmulator.DefaultStore

/-! ### The store over SQL -/

namespace Sqlite
open FlowEmulator.Text FlowEmulator.Keys FlowEmulator.VersionedTable

/-- The row of the events of a height. -/
def eventRow (E : Encoding) (height : Nat) (events : List Event) : Row Bytes Bytes :=
  ⟨hexEncode (blockHeight height),hexEncode (E.events.encode events),0,height⟩

/-- The database holds the blocks up to the latest height and none above, and rows of events by their heights. -/
structure Chained (E : Encoding) (latest : Nat) (content : Database) : Prop where
  filed : Filed E none latest content
  capped : ∀ row ∈ (content .blocks).rows, row.height ≤ latest
  events : ∀ row ∈ (content .events).rows, ∃ height events, row = eventRow E height events

/-- All databases hold chains, the open one up to a latest height. -/
structure AllChained (E : Encoding) (latest : Nat) (s : Store) : Prop where
  chained : Chained E latest s.database
  all : ∀ name content, s.databases name = some content → ∃ latest, Chained E latest content
  main : (s.databases .main).isSome

section
variable {E : Encoding} {choices : Choices} {latest : Nat} {s after : Store}

/-- Writing the next block and its events. -/
private theorem chained_wrote {c : BlockContents} {next : Nat} (filed : Filed E none next after.database)
    (capped : ∀ row ∈ (s.database .blocks).rows, row.height ≤ next)
    (events : ∀ row ∈ (s.database .events).rows, ∃ height events, row = eventRow E height events)
    (height : c.block.height = next) (blocks : after.database .blocks = (s.database .blocks).upsert (blockRow E c.block))
    (written : after.database .events = (s.database .events).upsert (eventRow E c.block.height c.events)) :
    Chained E next after.database := by
  refine ⟨filed,fun row member => ?_,fun row member => ?_⟩
  · rw [blocks] at member
    rcases mem_upsert.mp member with rfl | ⟨old,_⟩
    · exact height.le
    · exact capped row old
  · rw [written] at member
    rcases mem_upsert.mp member with rfl | ⟨old,_⟩
    · exact ⟨_,_,rfl⟩
    · exact events row old

theorem chained_saved {static : Identifier → Bool} {c : BlockContents} (chained : Chained E latest s.database)
    (height : c.block.height = latest+1) (wrote : Wrote c.block.height (saveWrites E static latest c) s after) :
    Chained E (latest+1) after.database := by
  refine chained_wrote (filed_saved chained.filed height wrote)
    (fun row member => (chained.capped row member).trans (Nat.le_succ latest)) chained.events height ?_ ?_
  · rw [wrote.table,writesTo_saveWrites]
    rfl
  · rw [wrote.table,writesTo_saveWrites]
    rfl

theorem chained_first {c : BlockContents} (empty : ∀ name, s.database name = Table.empty) (height : c.block.height = 0)
    (wrote : Wrote c.block.height (commitWrites E 0 c) s after) : Chained E 0 after.database := by
  have none (name : StoreName) (row : Row Bytes Bytes) : row ∉ (s.database name).rows := by
    rw [empty]
    exact List.not_mem_nil
  refine chained_wrote (filed_first empty height wrote) (fun row member => absurd member (none .blocks row))
    (fun row member => absurd member (none .events row)) height ?_ ?_
  · rw [wrote.table,writesTo_commitWrites]
    rfl
  · rw [wrote.table,writesTo_commitWrites]
    rfl

theorem chained_rolledBack {height : Nat} (chained : Chained E latest s.database) (rolled : RolledBack E height s after)
    (below : height ≤ latest) : Chained E height after.database := by
  have blocks : after.database .blocks = (s.database .blocks).deleteAbove height := rolled.table .blocks
  have events : after.database .events = (s.database .events).deleteAbove height := rolled.table .events
  refine ⟨filed_rolledBack chained.filed rolled (Nat.zero_le _) below,fun row member => ?_,fun row member => ?_⟩
  · rw [blocks] at member
    exact (mem_deleteAbove.mp member).2
  · rw [events] at member
    exact chained.events row (mem_deleteAbove.mp member).1

variable (choices) in
/-- The events of a height are those of its row. -/
theorem chained_events (chained : Chained E latest s.database) (height : Nat) : ∃ events, ∀ eventType,
    DefaultStore.eventsByHeight E (dataStore choices) height eventType s = .ok (eventsOfType eventType events) := by
  by_cases some_row : ∃ events, eventRow E height events ∈ (s.database .events).rows
  · obtain ⟨events,member⟩ := some_row
    have bytes : selectAtVersion choices .events (blockHeight height) 0 s = .ok (E.events.encode events) := by
      refine selectAtVersion_some (select_eq member (Nat.le_refl 0) (fun other there sameKey _ => ?_))
      obtain ⟨otherHeight,otherEvents,rfl⟩ := chained.events other there
      obtain rfl : otherHeight = height := blockHeight_injective (hexEncode_injective sameKey)
      have same : eventRow E otherHeight otherEvents = eventRow E otherHeight events :=
        List.inj_on_of_nodup_map (s.database .events).unique there member rfl
      exact ⟨Nat.le_refl 0,fun _ => congrArg Row.value same⟩
    refine ⟨events,fun eventType => ?_⟩
    unfold DefaultStore.eventsByHeight
    have read : (dataStore choices).getBytes .events (blockHeight height) s = .ok (E.events.encode events) := bytes
    rw [read]
    show (decode E.events (E.events.encode events)).map _ = _
    rw [decode_encode]
    rfl
  · have missing : selectAtVersion choices .events (blockHeight height) 0 s = .error .notFound := by
      refine selectAtVersion_notFound.mpr (fun row there sameKey => ?_)
      obtain ⟨otherHeight,events,rfl⟩ := chained.events row there
      obtain rfl : otherHeight = height := blockHeight_injective (hexEncode_injective sameKey)
      exact absurd ⟨events,there⟩ some_row
    refine ⟨[],fun eventType => ?_⟩
    unfold DefaultStore.eventsByHeight
    have read : (dataStore choices).getBytes .events (blockHeight height) s = .error .notFound := missing
    rw [read]
    rfl

theorem chained_hasChain (chained : Chained E latest s.database) : HasChain (store E choices) latest s := by
  have found (height : Nat) (low : height ≤ latest) :
      ∃ block, (store E choices).blockByHeight height s = .ok block ∧ block.height = height :=
    filed_own choices chained.filed (Nat.zero_le _) low
  refine ⟨?_,found,fun height above => ?_,chained_events choices chained⟩
  · obtain ⟨block,read,height⟩ := found latest (Nat.le_refl latest)
    refine ⟨block,?_,height⟩
    show DefaultStore.latestBlock E (dataStore choices) s = _
    unfold DefaultStore.latestBlock
    rw [filed_latestBlockHeight choices chained.filed]
    exact read
  · refine (bind_decode_notFound E.block _).mpr (selectAtVersion_notFound.mpr (fun row there sameKey => ?_))
    obtain ⟨own,_,rfl⟩ := chained.filed.rows row there
    have same : own.height = height := blockHeight_injective (hexEncode_injective sameKey)
    have low : own.height ≤ latest := chained.capped _ there
    omega

/-- A change of the open database that leaves a chain in it. -/
theorem allChained_put {next : Nat} (holds : AllChained E latest s) (db : after.db = s.db)
    (others : ∀ name, name ≠ s.db → after.databases name = s.databases name) (chained : Chained E next after.database) :
    AllChained E next after := by
  refine ⟨chained,fun name content kept => ?_,?_⟩
  · by_cases opened : name = s.db
    · rw [opened,← db,after.databases_db] at kept
      cases kept
      exact ⟨next,chained⟩
    · rw [others name opened] at kept
      exact holds.all name content kept
  · by_cases opened : DatabaseName.main = s.db
    · rw [opened,← db]
      exact after.opened
    · rw [others _ opened]
      exact holds.main

/-- The first block of a new store. -/
theorem allChained_first {url : Url} {c : BlockContents} (height : c.block.height = 0)
    (run : (store E choices).commitBlock c (fresh url) = (.ok (),after)) : AllChained E 0 after := by
  have commits := commits_commitBlock E choices
  by_cases counted : c.Counted
  · obtain ⟨written,done,wrote⟩ := commits.wrote c _ none counted (fresh_tip E url)
    rw [done] at run
    cases run
    have chained := chained_first (fresh_database url) height wrote
    refine ⟨chained,fun name content kept => ?_,?_⟩
    · by_cases main : name = .main
      · have opened : name = after.db := main.trans wrote.db.symm
        rw [opened,after.databases_db] at kept
        cases kept
        exact ⟨0,chained⟩
      · have absent := (wrote.others name main).trans (fresh_others url main)
        cases kept.symm.trans absent
    · have opened : DatabaseName.main = after.db := wrote.db.symm
      rw [opened]
      exact after.opened
  · obtain ⟨e,refused⟩ := commits.refused c (fresh url) counted
    cases run.symm.trans refused

theorem allChained_createSnapshot (holds : AllChained E latest s) (name : String) :
    Leads (AllChained E) latest (createSnapshot name s) := by
  rcases run : createSnapshot name s with ⟨e | _,after⟩
  · rw [createSnapshot_error run]
    exact holds
  · obtain ⟨_,_,_,databases,_⟩ := createSnapshot_ok.mp run
    refine ⟨latest,?_,fun other content kept => ?_,?_⟩
    · rw [createSnapshot_database run]
      exact holds.chained
    · rw [databases] at kept
      by_cases new : other = .snapshot name
      · rw [new,Function.update_self] at kept
        cases kept
        exact ⟨latest,holds.chained⟩
      · rw [Function.update_of_ne new] at kept
        exact holds.all other content kept
    · rw [databases,Function.update_of_ne (by intro same; cases same)]
      exact holds.main

theorem allChained_loadSnapshot (holds : AllChained E latest s) (name : String) :
    Leads (AllChained E) latest (loadSnapshot name s) := by
  rcases run : loadSnapshot name s with ⟨e | _,after⟩
  · rw [loadSnapshot_error run]
    exact holds
  · obtain ⟨_,_,_,databases,_⟩ := loadSnapshot_ok.mp run
    have all (other : DatabaseName) (content : Database) (kept : after.databases other = some content) :
        ∃ latest, Chained E latest content := holds.all other content (databases ▸ kept)
    obtain ⟨next,chained⟩ := all after.db after.database after.databases_db
    exact ⟨next,chained,all,by rw [databases]; exact holds.main⟩

variable (E choices) in
/-- The height is not above the latest one. -/
def NotAboveLatest (height : Nat) (s : Store) : Prop :=
  ∀ latest, (store E choices).latestBlockHeight s = .ok latest → height ≤ latest

theorem allChained_rollback (holds : AllChained E latest s) {height : Nat} (below : NotAboveLatest E choices height s) :
    Leads (AllChained E) latest (rollbackToBlockHeight E choices height s) := by
  by_cases low : s.currentHeight ≤ height
  · rw [rollback_refused low]
    exact holds
  · obtain ⟨after,run,rolled⟩ := rollback_run E choices (Nat.not_le.mp low)
    rw [run]
    have below := below latest (filed_latestBlockHeight choices holds.chained.filed)
    exact ⟨height,allChained_put holds rolled.db rolled.others (chained_rolledBack holds.chained rolled below)⟩

/-- Databases that are not in memory are found again. -/
theorem allChained_reopen_lasting (holds : AllChained E latest s) (lasting : s.url ≠ .inMemory) :
    ∃ latest, AllChained E latest (reopen s) := by
  have databases := reopen_databases lasting holds.main
  have all (name : DatabaseName) (content : Database) (kept : (reopen s).databases name = some content) :
      ∃ latest, Chained E latest content := holds.all name content (databases ▸ kept)
  obtain ⟨next,chained⟩ := all _ _ (reopen s).databases_db
  exact ⟨next,chained,all,by rw [databases]; exact holds.main⟩

theorem allChained_reopen (holds : AllChained E latest s) :
    (∃ url, reopen s = fresh url) ∨ ∃ latest, AllChained E latest (reopen s) := by
  by_cases memory : s.url = .inMemory
  · exact .inl ⟨s.url,reopen_memory memory⟩
  · exact .inr (allChained_reopen_lasting holds memory)

variable (E choices) in
/-- The store over SQL grows its chain, as long as no rollback is made to a height above the latest. -/
theorem growing_backend : Growing E (backend E choices) (fun s => .ok (reopen s)) (fun s => ∃ url, s = fresh url)
    (AllChained E) (NotAboveLatest E choices) where
  empty := by
    rintro _ ⟨url,rfl⟩
    exact LinkedChain.empty_latestBlock choices (fresh_tip E url)
  first := by
    rintro _ c after ⟨url,rfl⟩ height run
    exact allChained_first height run
  chain holds := chained_hasChain holds.chained
  saved {latest s static c after} holds height run := by
    obtain ⟨_,wrote⟩ := saved_wrote (filed_tip holds.chained.filed) run
    exact allChained_put holds wrote.db wrote.others (chained_saved holds.chained height wrote)
  refused {latest s static c e after} holds run := by
    rw [refused_same (filed_tip holds.chained.filed) run]
    exact holds
  rollback provider below holds := by
    cases provider
    exact allChained_rollback holds below
  createSnapshot name holds _ := allChained_createSnapshot holds name
  loadSnapshot name holds _ := allChained_loadSnapshot holds name
  reopened holds opened := by
    cases opened
    exact allChained_reopen holds

end
end Sqlite

/-! ### The store in memory -/

namespace Memstore

/-- The emulator's view of the store in memory, which has no rollbacks and no snapshots. -/
def backend {τ : Type} (E : Encoding) (T : SnapshotTree τ) : Backend (Store τ) :=
  { store E T with
    rollbackProvider := none
    supportSnapshots := fun _ => false
    createSnapshot := fun _ => fail .snapshotUnsupported
    loadSnapshot := fun _ => fail .snapshotUnsupported }

/-- The maps hold one block for each height up to the latest. -/
structure Chained {τ : Type} (latest : Nat) (s : Store τ) : Prop where
  tip : s.blockHeight = latest
  found : ∀ height, height ≤ latest → ∃ block, s.blocks height = some block ∧ block.height = height
  above : ∀ height, latest < height → s.blocks height = none

section
variable {τ : Type} {E : Encoding} {T : SnapshotTree τ} {static : Identifier → Bool} {latest : Nat} {c : BlockContents}
  {s after : Store τ}

/-- The blocks after another one was stored. -/
def WithBlock (block : Block) (s after : Store τ) : Prop :=
  after.blocks = Function.update s.blocks block.height (some block) ∧
    after.blockHeight = if s.blockHeight < block.height then block.height else s.blockHeight

/-- A commit stores its block, and all its other steps are about other maps. -/
theorem commitBlock_withBlock (run : commitBlock E T c s = (.ok (),after)) : WithBlock c.block s after := by
  unfold commitBlock at run
  split at run
  · cases run
  split at run
  · cases run
  have later : Keeps (WithBlock c.block s) (do
      c.collections.forM (insertCollection E)
      insertSystemMetadata E c
      c.transactions.entries.forM fun entry => insertTransaction entry.1 entry.2
      c.transactionResults.entries.forM fun entry => insertTransactionResult entry.1 entry.2
      c.systemTransactionBodies.entries.forM fun entry => insertTransaction entry.1 entry.2
      c.systemTransactionResults.entries.forM fun entry =>
        insertSystemTransactionResult (E.blockID c.block) entry.1 entry.2
      insertExecutionSnapshot T c.block.height c.executionSnapshot
      insertEvents c.block.height c.events) := by
    refine keeps_bind (keeps_forM (fun _ _ holds => holds) _) (fun _ => keeps_bind ?_ (fun _ => ?_))
    · unfold insertSystemMetadata
      split
      · exact fun _ holds => holds
      · exact keeps_pure _ ()
    refine keeps_bind (keeps_forM (fun _ _ holds => holds) _) (fun _ => ?_)
    refine keeps_bind (keeps_forM (fun _ _ holds => holds) _) (fun _ => ?_)
    refine keeps_bind (keeps_forM (fun _ _ holds => holds) _) (fun _ => ?_)
    refine keeps_bind (keeps_forM (fun _ _ holds => holds) _) (fun _ => ?_)
    exact keeps_bind (fun _ holds => holds) (fun _ _ holds => holds)
  have stored : storeBlock E c.block s = (.ok (),(storeBlock E c.block s).2) := rfl
  rw [bind_ok stored] at run
  have kept := later (storeBlock E c.block s).2 ⟨rfl,rfl⟩
  rw [run] at kept
  exact kept

theorem saveBlock_withBlock (run : (store E T).saveBlock E static c s = (.ok (),after)) : WithBlock c.block s after := by
  obtain ⟨_,middle,committed,rest⟩ := bind_eq_ok.mp run
  have later : Keeps (WithBlock c.block s) (do
      c.scheduledTransactionIDs.entries.forM fun entry =>
        (store E T).indexScheduledTransactionID entry.1 (E.blockID c.block)
      c.systemTransactionResults.entries.forM fun entry => if static entry.1 then pure () else
        (store E T).indexScheduledTransactionBlockID entry.1 (E.blockID c.block)) := by
    refine keeps_bind (keeps_forM (fun _ _ holds => holds) _) (fun _ => keeps_forM (fun entry => ?_) _)
    split
    · exact keeps_pure _ ()
    · exact fun _ holds => holds
  have kept := later middle (commitBlock_withBlock committed)
  rw [rest] at kept
  exact kept

/-- A block that is not saved changes nothing. -/
theorem saveBlock_refused {e : StoreError} (run : (store E T).saveBlock E static c s = (.error e,after)) : after = s := by
  by_cases counted : c.Counted
  · rw [saveBlock_run E T static c counted] at run
    cases run
  · have refused : ∃ e, commitBlock E T c s = (.error e,s) := by
      unfold commitBlock
      split
      · exact ⟨_,rfl⟩
      split
      · exact ⟨_,rfl⟩
      next first second => exact absurd ⟨not_not.mp first,not_not.mp second⟩ counted
    obtain ⟨_,refused⟩ := refused
    have saving : (store E T).saveBlock E static c s = _ := bind_error refused _
    rw [saving] at run
    cases run
    rfl

theorem chained_withBlock (chained : Chained latest s) (height : c.block.height = latest+1)
    (stored : WithBlock c.block s after) : Chained (latest+1) after := by
  obtain ⟨blocks,tip⟩ := stored
  refine ⟨?_,fun each low => ?_,fun each above => ?_⟩
  · rw [tip,chained.tip,height,if_pos (Nat.lt_succ_self latest)]
  · rw [blocks]
    by_cases last : each = c.block.height
    · rw [last,Function.update_self]
      exact ⟨c.block,rfl,rfl⟩
    · rw [Function.update_of_ne last]
      exact chained.found each (by omega)
  · rw [blocks,Function.update_of_ne (by omega)]
    exact chained.above each (by omega)

theorem chained_hasChain (chained : Chained latest s) : HasChain (store E T) latest s := by
  have found (height : Nat) (low : height ≤ latest) :
      ∃ block, blockByHeight height s = .ok block ∧ block.height = height := by
    obtain ⟨block,here,same⟩ := chained.found height low
    exact ⟨block,by rw [blockByHeight,here]; rfl,same⟩
  refine ⟨?_,found,fun height above => ?_,fun height => ⟨_,fun eventType => rfl⟩⟩
  · obtain ⟨block,read,height⟩ := found latest (Nat.le_refl latest)
    refine ⟨block,?_,height⟩
    show FlowEmulator.found (s.blocks s.blockHeight) = _
    rw [chained.tip]
    exact read
  · show FlowEmulator.found (s.blocks height) = _
    rw [chained.above height above]
    rfl

variable (E T) in
/-- The store in memory grows its chain. It is empty after a restart. -/
theorem growing_backend : Growing E (backend E T) (fun _ => .ok new) (fun s => s = new) Chained (fun _ _ => True) where
  empty := by
    rintro _ rfl
    rfl
  first := by
    rintro _ c after rfl height run
    obtain ⟨blocks,tip⟩ := commitBlock_withBlock run
    refine ⟨?_,fun each low => ?_,fun each above => ?_⟩
    · rw [tip,height]
      rfl
    · have first : each = c.block.height := by omega
      rw [blocks,first,Function.update_self]
      exact ⟨c.block,rfl,rfl⟩
    · rw [blocks,Function.update_of_ne (by omega)]
      rfl
  chain holds := chained_hasChain holds
  saved holds height run := chained_withBlock holds height (saveBlock_withBlock run)
  refused {latest s static c e after} holds run := by
    rw [saveBlock_refused run]
    exact holds
  rollback provider := nomatch provider
  createSnapshot _ _ supported := nomatch supported
  loadSnapshot _ _ supported := nomatch supported
  reopened _ opened := by
    cases opened
    exact .inl rfl

end
end Memstore

/-! ### The store over Redis -/

namespace Redis
open FlowEmulator.Text FlowEmulator.Keys FlowEmulator.SortedSet

/-- The emulator's view of the store over Redis, which has no rollbacks and no snapshots. -/
def backend (E : Encoding) (choice : TopChoice (score (M := Bytes))) : Backend Database :=
  { DefaultStore.store E (dataStore choice) with
    rollbackProvider := none
    supportSnapshots := fun _ => false
    createSnapshot := fun _ => fail .snapshotUnsupported
    loadSnapshot := fun _ => fail .snapshotUnsupported }

/-- The keys of the ledger hold no texts. -/
def Sorted (db : Database) : Prop := ∀ key text, db (storeKey .ledger key) ≠ some (.text text)

/-- The texts that some writes to a store leave, given what was there. -/
def texts (name : StoreName) (writes : List Write) (db : Database) : Bytes → Option Value :=
  assign (fun key => db (storeKey name key)) ((writesTo name writes).map fun w => (w.key,.text (hexEncode w.value)))

section
variable {E : Encoding} {choice : TopChoice (score (M := Bytes))} {static : Identifier → Bool} {latest : Nat}
  {c : BlockContents} {db after : Database}

theorem getBytes_text {name : StoreName} {key value : Bytes}
    (here : db (storeKey name key) = some (.text (hexEncode value))) :
    (dataStore choice).getBytes name key db = .ok value := by
  show getBytes name key db = _
  unfold getBytes
  rw [here]
  show decodeText (hexEncode value) = _
  unfold decodeText
  rw [hexDecode_hexEncode]

theorem getBytes_none {name : StoreName} {key : Bytes} (here : db (storeKey name key) = none) :
    (dataStore choice).getBytes name key db = .error .notFound := by
  show getBytes name key db = _
  unfold getBytes
  rw [here]

/-- A write to the ledger changes no other store and leaves no text in it. -/
theorem zAdd_ledger (sorted : Sorted db) (key : Bytes) (score : Nat) (member : Bytes) :
    ∃ after, zAdd (storeKey .ledger key) score member db = (.ok (),after) ∧ Sorted after ∧
      ∀ name ≠ .ledger, ∀ other, after (storeKey name other) = db (storeKey name other) := by
  have updated (set : Scores Bytes) : Sorted (Function.update db (storeKey .ledger key) (some (.sorted set))) ∧
      ∀ name ≠ .ledger, ∀ other,
        Function.update db (storeKey .ledger key) (some (.sorted set)) (storeKey name other) = db (storeKey name other) := by
    refine ⟨fun each text => ?_,fun name proper other => ?_⟩
    · by_cases same : storeKey .ledger each = storeKey .ledger key
      · rw [same,Function.update_self]
        exact fun wrong => nomatch wrong
      · rw [Function.update_of_ne same]
        exact sorted each text
    · exact Function.update_of_ne (fun same => proper (storeKey_injective same).1) ..
  unfold zAdd
  cases here : db (storeKey .ledger key) with
  | none => exact ⟨_,rfl,updated _⟩
  | some value =>
    cases value with
    | text text => exact absurd here (sorted key text)
    | sorted set => exact ⟨_,rfl,updated _⟩

theorem texts_one {name : StoreName} {key value : Bytes} {writes : List Write}
    (only : writesTo name writes = [.plain name key value]) : texts name writes db =
      Function.update (fun key => db (storeKey name key)) key (some (.text (hexEncode value))) := by
  rw [texts,only]
  rfl

/-- A write succeeds if it has a version exactly where it goes to the ledger, and leaves its text elsewhere. -/
theorem perform_texts (choice : TopChoice (score (M := Bytes))) {w : Write}
    (proper : w.isVersioned = decide (w.store = .ledger)) (sorted : Sorted db) :
    ∃ after, w.perform (dataStore choice) db = (.ok (),after) ∧ Sorted after ∧
      ∀ name ≠ .ledger, (fun key => after (storeKey name key)) = texts name [w] db := by
  cases w with
  | plain store key value =>
    have other : store ≠ .ledger := of_decide_eq_false proper.symm
    refine ⟨Function.update db (storeKey store key) (some (.text (hexEncode value))),rfl,fun each text => ?_,fun name _ => ?_⟩
    · rw [Function.update_of_ne (fun same => other (storeKey_injective same).1.symm)]
      exact sorted each text
    · by_cases here : store = name
      · subst here
        have own : writesTo store [.plain store key value] = [.plain store key value] := by simp [writesTo,Write.store]
        rw [texts_one own]
        funext each
        by_cases same : each = key
        · rw [same,Function.update_self,Function.update_self]
        · rw [Function.update_of_ne same,Function.update_of_ne (fun keys => same (storeKey_injective keys).2)]
      · have none : writesTo name [.plain store key value] = [] := by simp [writesTo,Write.store,here]
        rw [texts,none]
        funext each
        exact Function.update_of_ne (fun keys => here (storeKey_injective keys).1.symm) ..
  | versioned store key value version =>
    obtain rfl : store = .ledger := of_decide_eq_true proper.symm
    obtain ⟨after,run,afterSorted,same⟩ := zAdd_ledger sorted key (Float64.float64 version) (hexEncode value)
    refine ⟨after,run,afterSorted,fun name other => ?_⟩
    have none : writesTo name [.versioned .ledger key value version] = [] := by simp [writesTo,Write.store,Ne.symm other]
    rw [texts,none]
    funext each
    exact same name other each

/-- Writes that have a version exactly where they go to the ledger all succeed, and leave their texts elsewhere. -/
theorem forM_texts (choice : TopChoice (score (M := Bytes))) {writes : List Write}
    (proper : ∀ w ∈ writes, w.isVersioned = decide (w.store = .ledger)) (sorted : Sorted db) :
    ∃ after, writes.forM (Write.perform (dataStore choice)) db = (.ok (),after) ∧ Sorted after ∧
      ∀ name ≠ .ledger, ∀ key, after (storeKey name key) = texts name writes db key := by
  induction writes generalizing db with
  | nil => exact ⟨db,rfl,sorted,fun _ _ _ => rfl⟩
  | cons w rest ih =>
    obtain ⟨middle,first,middleSorted,own⟩ := perform_texts choice (proper w List.mem_cons_self) sorted
    obtain ⟨after,run,afterSorted,reads⟩ := ih (fun v later => proper v (List.mem_cons_of_mem w later)) middleSorted
    refine ⟨after,(bind_ok first _).trans run,afterSorted,fun name other key => ?_⟩
    rw [reads name other key,texts,own name other,texts,← assign_append,← List.map_append,← writesTo_append]
    rfl

/-! ### What a saved block leaves -/

/-- The server holds one block for each height up to the latest, and that height. -/
structure Chained (E : Encoding) (latest : Nat) (db : Database) : Prop where
  tip : db (storeKey .global Keys.latestBlock) = some (.text (hexEncode (E.uint64.encode latest)))
  found : ∀ height, height ≤ latest → ∃ block : Block, block.height = height ∧
    db (storeKey .blocks (blockHeight height)) = some (.text (hexEncode (E.block.encode block)))
  above : ∀ height, latest < height → db (storeKey .blocks (blockHeight height)) = none
  events : ∀ height, db (storeKey .events (blockHeight height)) = none ∨
    ∃ events, db (storeKey .events (blockHeight height)) = some (.text (hexEncode (E.events.encode events)))
  sorted : Sorted db

/-- What the writes of a block leave in the stores that are read here. -/
structure WithBlock (E : Encoding) (c : BlockContents) (db after : Database) : Prop where
  tip : after (storeKey .global Keys.latestBlock) = some (.text (hexEncode (E.uint64.encode c.block.height)))
  block : after (storeKey .blocks (blockHeight c.block.height)) = some (.text (hexEncode (E.block.encode c.block)))
  blocks : ∀ height ≠ c.block.height, after (storeKey .blocks (blockHeight height)) = db (storeKey .blocks (blockHeight height))
  own : after (storeKey .events (blockHeight c.block.height)) = some (.text (hexEncode (E.events.encode c.events)))
  others : ∀ height ≠ c.block.height, after (storeKey .events (blockHeight height)) = db (storeKey .events (blockHeight height))
  sorted : Sorted after

/-- The writes of a block that is not below the latest, seen by the tables they go to. -/
theorem withBlock_writes {writes : List Write} (proper : ∀ w ∈ writes, w.isVersioned = decide (w.store = .ledger))
    (next : latest ≤ c.block.height) (globals : writesTo .global writes = committedTo E latest c .global)
    (blocks : writesTo .blocks writes = committedTo E latest c .blocks)
    (events : writesTo .events writes = committedTo E latest c .events) (sorted : Sorted db) :
    ∃ after, writes.forM (Write.perform (dataStore choice)) db = (.ok (),after) ∧ WithBlock E c db after := by
  obtain ⟨after,run,afterSorted,reads⟩ := forM_texts choice proper sorted
  have tip : writesTo .global writes = [.plain .global Keys.latestBlock (E.uint64.encode c.block.height)] := by
    rw [globals]
    exact if_pos next
  have apart {height : Nat} (other : height ≠ c.block.height) : blockHeight height ≠ blockHeight c.block.height :=
    fun same => other (blockHeight_injective same)
  refine ⟨after,run,?_,?_,fun height other => ?_,?_,fun height other => ?_,afterSorted⟩
  · rw [reads .global (by decide),texts_one tip,Function.update_self]
  · rw [reads .blocks (by decide),texts_one blocks,Function.update_self]
  · rw [reads .blocks (by decide),texts_one blocks,Function.update_of_ne (apart other)]
  · rw [reads .events (by decide),texts_one events,Function.update_self]
  · rw [reads .events (by decide),texts_one events,Function.update_of_ne (apart other)]

theorem chained_latestBlockHeight (chained : Chained E latest db) : latestBlockHeight E (dataStore choice) db = .ok latest := by
  unfold latestBlockHeight
  rw [getBytes_text chained.tip]
  exact decode_encode ..

theorem saveBlock_writes (chained : Chained E latest db) (counted : c.Counted) :
    (DefaultStore.store E (dataStore choice)).saveBlock E static c db =
      (saveWrites E static latest c).forM (Write.perform (dataStore choice)) db := by
  refine saveBlock_run E (dataStore choice) static c counted db ?_
  show latestBlockHeightOrZero E (dataStore choice) db = _
  unfold latestBlockHeightOrZero
  rw [chained_latestBlockHeight chained]

/-- A block that is not saved changes nothing. -/
theorem saveBlock_refused (chained : Chained E latest db) {e : StoreError}
    (run : (DefaultStore.store E (dataStore choice)).saveBlock E static c db = (.error e,after)) : after = db := by
  by_cases counted : c.Counted
  · rw [saveBlock_writes chained counted] at run
    obtain ⟨written,done,_⟩ := forM_texts choice (fun w member => saveWrites_isVersioned member) chained.sorted
    cases run.symm.trans done
  · obtain ⟨_,refused⟩ := saveBlock_uncounted E (dataStore choice) static c counted db
    cases run.symm.trans refused
    rfl

theorem saveBlock_withBlock (chained : Chained E latest db) (next : latest ≤ c.block.height)
    (run : (DefaultStore.store E (dataStore choice)).saveBlock E static c db = (.ok (),after)) : WithBlock E c db after := by
  by_cases counted : c.Counted
  · rw [saveBlock_writes chained counted] at run
    have written : ∃ after, (saveWrites E static latest c).forM (Write.perform (dataStore choice)) db = (.ok (),after) ∧
        WithBlock E c db after :=
      withBlock_writes (fun w member => saveWrites_isVersioned member) next (writesTo_saveWrites E static latest c .global)
        (writesTo_saveWrites E static latest c .blocks) (writesTo_saveWrites E static latest c .events) chained.sorted
    obtain ⟨written,done,stored⟩ := written
    cases run.symm.trans done
    exact stored
  · obtain ⟨_,refused⟩ := saveBlock_uncounted E (dataStore choice) static c counted db
    cases run.symm.trans refused

/-- The first block of an empty server. -/
theorem commitBlock_first (run : DefaultStore.commitBlock E (dataStore choice) c (fun _ => none) = (.ok (),after)) :
    WithBlock E c (fun _ => none) after := by
  by_cases counted : c.Counted
  · have written : ∃ after, (commitWrites E 0 c).forM (Write.perform (dataStore choice)) (fun _ => none) = (.ok (),after) ∧
        WithBlock E c (fun _ => none) after := by
      refine withBlock_writes (fun w member => ?_) (Nat.zero_le _) (writesTo_commitWrites E 0 c .global)
        (writesTo_commitWrites E 0 c .blocks) (writesTo_commitWrites E 0 c .events) (fun _ _ wrong => nomatch wrong)
      have saved : w ∈ saveWrites E (fun _ => true) 0 c := List.mem_append_left _ member
      exact saveWrites_isVersioned saved
    obtain ⟨written,done,stored⟩ := written
    rw [commitBlock_run E (dataStore choice) c counted (fun _ => none) rfl] at run
    cases run.symm.trans done
    exact stored
  · obtain ⟨e,refused⟩ := commitBlock_uncounted E (dataStore choice) c counted (fun _ => none)
    cases run.symm.trans refused

/-- The first block of an empty server is a chain. -/
theorem chained_first (stored : WithBlock E c (fun _ => none) after) (height : c.block.height = 0) : Chained E 0 after := by
  refine ⟨height ▸ stored.tip,fun each low => ?_,fun each above => ?_,fun each => ?_,stored.sorted⟩
  · have first : c.block.height = each := by omega
    exact ⟨c.block,first,first ▸ stored.block⟩
  · rw [stored.blocks each (by omega)]
  · by_cases first : each = c.block.height
    · exact .inr ⟨c.events,first ▸ stored.own⟩
    · exact .inl (stored.others each first)

/-- The next block extends the chain. -/
theorem chained_withBlock (chained : Chained E latest db) (height : c.block.height = latest+1)
    (stored : WithBlock E c db after) : Chained E (latest+1) after := by
  refine ⟨height ▸ stored.tip,fun each low => ?_,fun each above => ?_,fun each => ?_,stored.sorted⟩
  · by_cases last : each = c.block.height
    · exact ⟨c.block,last.symm,last ▸ stored.block⟩
    · rw [stored.blocks each last]
      exact chained.found each (by omega)
  · rw [stored.blocks each (by omega)]
    exact chained.above each (by omega)
  · by_cases last : each = c.block.height
    · exact .inr ⟨c.events,last ▸ stored.own⟩
    · rw [stored.others each last]
      exact chained.events each

theorem chained_hasChain (chained : Chained E latest db) : HasChain (DefaultStore.store E (dataStore choice)) latest db := by
  have found (height : Nat) (low : height ≤ latest) :
      ∃ block, blockByHeight E (dataStore choice) height db = .ok block ∧ block.height = height := by
    obtain ⟨block,same,here⟩ := chained.found height low
    refine ⟨block,?_,same⟩
    unfold blockByHeight
    rw [getBytes_text here]
    exact decode_encode ..
  refine ⟨?_,found,fun height above => ?_,fun height => ?_⟩
  · obtain ⟨block,read,height⟩ := found latest (Nat.le_refl latest)
    refine ⟨block,?_,height⟩
    show DefaultStore.latestBlock E (dataStore choice) db = _
    unfold DefaultStore.latestBlock
    rw [chained_latestBlockHeight chained]
    exact read
  · show blockByHeight E (dataStore choice) height db = _
    unfold blockByHeight
    rw [getBytes_none (chained.above height above)]
    rfl
  · show ∃ events, ∀ eventType, eventsByHeight E (dataStore choice) height eventType db = _
    rcases chained.events height with none | ⟨events,here⟩
    · refine ⟨[],fun eventType => ?_⟩
      unfold eventsByHeight
      rw [getBytes_none none]
      rfl
    · refine ⟨events,fun eventType => ?_⟩
      unfold eventsByHeight
      rw [getBytes_text here]
      show (decode E.events (E.events.encode events)).map _ = _
      rw [decode_encode]
      rfl

variable (E choice) in
/-- The store over Redis grows its chain. The server keeps it over a restart. -/
theorem growing_backend : Growing E (backend E choice) .ok (fun db => db = fun _ => none) (Chained E) (fun _ _ => True) where
  empty := by
    rintro _ rfl
    rfl
  first := by
    rintro _ c after rfl height run
    exact chained_first (commitBlock_first run) height
  chain holds := chained_hasChain holds
  saved holds height run := chained_withBlock holds height (saveBlock_withBlock holds (by omega) run)
  refused {latest s static c e after} holds run := by
    rw [saveBlock_refused holds run]
    exact holds
  rollback provider := nomatch provider
  createSnapshot _ _ supported := nomatch supported
  loadSnapshot _ _ supported := nomatch supported
  reopened holds opened := by
    cases opened
    exact .inr ⟨_,holds⟩

end
end Redis

/-! ### All of them -/

/-- A kind of local store. -/
inductive Local (τ : Type) where
  | sqlite (choices : Sqlite.Choices)
  | redis (choice : TopChoice (SortedSet.score (M := Text.Bytes)))
  | memory (tree : Memstore.SnapshotTree τ)

namespace Local
variable {τ : Type}

def Storage : Local τ → Type
  | .sqlite _ => Sqlite.Store
  | .redis _ => Redis.Database
  | .memory _ => Memstore.Store τ

def backend (E : Encoding) : (store : Local τ) → Backend store.Storage
  | .sqlite choices => Sqlite.backend E choices
  | .redis choice => Redis.backend E choice
  | .memory tree => Memstore.backend E tree

/-- What is found when the emulator is stopped and started again. -/
def reopen : (store : Local τ) → store.Storage → Except StoreError store.Storage
  | .sqlite _ => fun s => .ok (Sqlite.reopen s)
  | .redis _ => .ok
  | .memory _ => fun _ => .ok Memstore.new

/-- The store before anything was committed. -/
def Empty : (store : Local τ) → store.Storage → Prop
  | .sqlite _ => fun s => ∃ url, s = Sqlite.fresh url
  | .redis _ => fun db => db = fun _ => none
  | .memory _ => fun s => s = Memstore.new

/-- Where there are rollbacks, they go to heights that are not above the latest. -/
def Allowed (E : Encoding) : (store : Local τ) → Nat → store.Storage → Prop
  | .sqlite choices => Sqlite.NotAboveLatest E choices
  | .redis _ => fun _ _ => True
  | .memory _ => fun _ _ => True

/-- The emulators that actions reach from a start on an empty store. -/
def Reached (E : Encoding) (M : Machine) (config : Config) (store : Local τ) (b : Blockchain store.Storage) : Prop :=
  ReachedFrom E M config (store.backend E) store.reopen store.Empty (store.Allowed E) b

/-- Every emulator that is reached has a chain. -/
theorem reached_hasChain {E : Encoding} {M : Machine} {config : Config} {store : Local τ} {b : Blockchain store.Storage}
    (reached : Reached E M config store b) : ∃ latest, HasChain (store.backend E).toStore latest b.storage := by
  cases store with
  | sqlite choices => exact reachedFrom_hasChain (Sqlite.growing_backend E choices) reached
  | redis choice => exact reachedFrom_hasChain (Redis.growing_backend E choice) reached
  | memory tree => exact reachedFrom_hasChain (Memstore.growing_backend E tree) reached

end Local
end FlowEmulator
