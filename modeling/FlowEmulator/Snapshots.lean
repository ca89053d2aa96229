import FlowEmulator.Commits
import FlowEmulator.Samples

/-!
Snapshots over whole runs. A snapshot is a database that is opened for writing
when it is loaded. It keeps the content it was created with as long as no block
is committed and nothing is rolled back while it is the open database; a commit
after loading it goes into the snapshot itself.
-/
namespace FlowEmulator.Sqlite
open FlowEmulator.Text FlowEmulator.Keys FlowEmulator.Fallible FlowEmulator.VersionedTable FlowEmulator.DefaultStore
open FlowEmulator.Run

/-- The store differs from another in the open database and the current height at most. -/
structure SameElsewhere (s t : Store) : Prop where
  url : t.url = s.url
  db : t.db = s.db
  others : ∀ name, name ≠ s.db → t.databases name = s.databases name

theorem settersKeep_elsewhere (choices : Choices) (s : Store) : SettersKeep (dataStore choices) (SameElsewhere s) := by
  have set (name : StoreName) (key value : Bytes) (version : Nat) :
      Keeps (SameElsewhere s) (setBytesWithVersion name key value version) := by
    refine keeps_update (fun t same => ⟨same.url,same.db,fun other different => ?_⟩)
    rw [← same.others other different]
    exact Function.update_of_ne (same.db ▸ different) ..
  exact ⟨fun name key value => set name key value 0,set,fun _ _ same => ⟨same.url,same.db,same.others⟩⟩

theorem saveBlock_elsewhere (E : Encoding) (choices : Choices) (static : Identifier → Bool) (c : BlockContents)
    (s : Store) : SameElsewhere s ((store E choices).saveBlock E static c s).2 :=
  keeps_saveBlock (settersKeep_elsewhere choices s) static c s ⟨rfl,rfl,fun _ _ => rfl⟩

theorem rollback_elsewhere (E : Encoding) (choices : Choices) (h : Nat) (s : Store) :
    SameElsewhere s (rollbackToBlockHeight E choices h s).2 := by
  by_cases above : h < s.currentHeight
  · obtain ⟨after,done,rolled⟩ := rollback_run E choices above
    rw [done]
    exact ⟨rolled.url,rolled.db,rolled.others⟩
  · rw [rollback_refused (Nat.le_of_not_lt above)]
    exact ⟨rfl,rfl,fun _ _ => rfl⟩

/-- What is done to a store with snapshots. -/
inductive Action where
  | save (c : BlockContents)
  | rollback (h : Nat)
  | createSnapshot (name : String)
  | loadSnapshot (name : String)

/-- The store after an action, also where the action fails. -/
def act (E : Encoding) (choices : Choices) (static : Identifier → Bool) : Action → Store → Store
  | .save c, s => ((store E choices).saveBlock E static c s).2
  | .rollback h, s => (rollbackToBlockHeight E choices h s).2
  | .createSnapshot name, s => (createSnapshot name s).2
  | .loadSnapshot name, s => (loadSnapshot name s).2

/-- While the snapshot is the open database, blocks are neither committed nor rolled back. -/
def Spares (name : String) (s : Store) : Action → Prop
  | .save c => s.db = .snapshot name → ¬ c.Counted
  | .rollback h => s.db = .snapshot name → s.currentHeight ≤ h
  | .createSnapshot _ | .loadSnapshot _ => True

/-- A snapshot with this content can be loaded. -/
def Has (name : String) (content : Database) (s : Store) : Prop :=
  supportSnapshotsWithCurrentConfig s = true ∧ s.databases (.snapshot name) = some content

theorem has_elsewhere {name : String} {content : Database} {s t : Store} (has : Has name content s)
    (other : s.db ≠ .snapshot name) (same : SameElsewhere s t) : Has name content t := by
  refine ⟨?_,(same.others _ (Ne.symm other)).trans has.2⟩
  unfold supportSnapshotsWithCurrentConfig
  rw [same.url]
  exact has.1

section
variable {E : Encoding} {choices : Choices} {static : Identifier → Bool} {name : String} {content : Database}

/-- Actions that spare a snapshot keep it. -/
theorem has_act (s : Store) (action : Action) (has : Has name content s) (spares : Spares name s action) :
    Has name content (act E choices static action s) := by
  cases action with
  | save c =>
    by_cases here : s.db = .snapshot name
    · obtain ⟨e,refused⟩ := saveBlock_uncounted E (dataStore choices) static c (spares here) s
      have unchanged : act E choices static (.save c) s = s := congrArg Prod.snd refused
      rw [unchanged]
      exact has
    · exact has_elsewhere has here (saveBlock_elsewhere E choices static c s)
  | rollback h =>
    by_cases here : s.db = .snapshot name
    · have unchanged : act E choices static (.rollback h) s = s := congrArg Prod.snd (rollback_refused (spares here))
      rw [unchanged]
      exact has
    · exact has_elsewhere has here (rollback_elsewhere E choices h s)
  | createSnapshot other =>
    show Has name content (createSnapshot other s).2
    rcases run : createSnapshot other s with ⟨result,after⟩
    cases result with
    | error e => rw [createSnapshot_error run]; exact has
    | ok _ =>
      obtain ⟨supported,free,url,databases,_⟩ := createSnapshot_ok.mp run
      have different : DatabaseName.snapshot name ≠ .snapshot other := by
        rintro same
        rw [← same,has.2] at free
        cases free
      refine ⟨?_,?_⟩
      · unfold supportSnapshotsWithCurrentConfig
        rw [url]
        exact supported
      · rw [databases,Function.update_of_ne different]
        exact has.2
  | loadSnapshot other =>
    show Has name content (loadSnapshot other s).2
    rcases run : loadSnapshot other s with ⟨result,after⟩
    cases result with
    | error e => rw [loadSnapshot_error run]; exact has
    | ok _ =>
      obtain ⟨supported,_,url,databases,_⟩ := loadSnapshot_ok.mp run
      refine ⟨?_,databases ▸ has.2⟩
      unfold supportSnapshotsWithCurrentConfig
      rw [url]
      exact supported

/-- A snapshot is created under a free name. -/
theorem createSnapshot_free {name : String} {s : Store} (supported : supportSnapshotsWithCurrentConfig s = true)
    (free : s.databases (.snapshot name) = none) : ∃ after, createSnapshot name s = (.ok (),after) := by
  unfold createSnapshot
  rw [if_pos supported,free]
  exact ⟨_,rfl⟩

theorem loadSnapshot_has {s : Store} (has : Has name content s) :
    ∃ loaded, loadSnapshot name s = (.ok (),loaded) ∧ loaded.database = content ∧
      loaded.databases = s.databases ∧ loaded.db = .snapshot name := by
  rcases run : loadSnapshot name s with ⟨result,loaded⟩
  cases result with
  | ok _ =>
    obtain ⟨_,_,_,databases,db,_⟩ := loadSnapshot_ok.mp run
    refine ⟨loaded,rfl,Store.database_eq ?_,databases,db⟩
    rw [db,databases]
    exact has.2
  | error e =>
    unfold loadSnapshot at run
    rw [if_pos has.1] at run
    split at run
    · next missing => rw [has.2] at missing; cases missing
    · cases run

theorem createSnapshot_has {s after : Store} (created : createSnapshot name s = (.ok (),after)) :
    Has name after.database after := by
  obtain ⟨supported,free,url,databases,db,_⟩ := createSnapshot_ok.mp created
  have different : s.db ≠ .snapshot name := by
    intro same
    have opened := s.opened
    rw [same,free] at opened
    cases opened
  have content : after.database = s.database := by
    apply Store.database_eq
    rw [databases,db,Function.update_of_ne different]
    exact s.databases_db
  refine ⟨?_,?_⟩
  · unfold supportSnapshotsWithCurrentConfig
    rw [url]
    exact supported
  · rw [databases,Function.update_self,content]

end

/-- Loading a snapshot leaves the content there was when it was created. -/
def SnapshotKept (E : Encoding) (choices : Choices) (static : Identifier → Bool) (name : String) (created : Store)
    (actions : List Action) : Prop :=
  ∃ loaded, loadSnapshot name (play (act E choices static) actions created) = (.ok (),loaded) ∧
    loaded.database = created.database ∧
    ∀ query, (store E choices).answer query loaded = (store E choices).answer query created

/-- A snapshot is loaded with the content it was created with after every run
    that neither commits nor rolls back a block while the snapshot is open. -/
theorem snapshot_kept (E : Encoding) (choices : Choices) (static : Identifier → Bool) (name : String)
    (before created : Store) (done : createSnapshot name before = (.ok (),created)) (actions : List Action)
    (spares : Throughout (act E choices static) (Spares name) actions created) :
    SnapshotKept E choices static name created actions := by
  have has : Has name created.database (play (act E choices static) actions created) :=
    play_keeps has_act (createSnapshot_has done) spares
  obtain ⟨loaded,run,content,_⟩ := loadSnapshot_has has
  refine ⟨loaded,run,content,fun query => ?_⟩
  exact answer_congr E query (fun name _ => sameBytes_of_table (by rw [content]))

/-- Commit block 0, create a snapshot, commit block 1: the snapshot has block 0 alone. -/
theorem snapshot_kept_while_main_open :
    SnapshotKept Samples.encoding .earliest (fun _ => true) "a"
      (createSnapshot "a" (run ((store Samples.encoding .earliest).saveBlock Samples.encoding (fun _ => true))
        [Samples.emptyContents 0] (fresh .inMemory))).2
      [.save (Samples.emptyContents 1)] :=
  snapshot_kept Samples.encoding .earliest (fun _ => true) "a"
    (run ((store Samples.encoding .earliest).saveBlock Samples.encoding (fun _ => true)) [Samples.emptyContents 0] (fresh .inMemory))
    _ rfl _ ⟨fun here => (by cases here),trivial⟩

/-- A block committed to a loaded snapshot is in the snapshot when it is loaded again. -/
theorem snapshot_changed {E : Encoding} {choices : Choices} {static : Identifier → Bool} {name : String}
    {before created : Store} {latest : Option Nat} (tip : Tip E before latest)
    (done : createSnapshot name before = (.ok (),created)) {c : BlockContents} (counted : c.Counted)
    (new : rowAt c.block.height (.plain .blocks (blockHeight c.block.height) (E.block.encode c.block)) ∉
      (before.database .blocks).rows) :
    ¬ SnapshotKept E choices static name created [.loadSnapshot name,.save c] := by
  have has := createSnapshot_has done
  obtain ⟨first,loadedOnce,content,_,db⟩ := loadSnapshot_has has
  obtain ⟨_,free,_,databases,createdDb,_⟩ := createSnapshot_ok.mp done
  have same : created.database = before.database := by
    have copied := has.2
    rw [databases,Function.update_self] at copied
    exact (Option.some.inj copied).symm
  have firstTip : Tip E first latest := tip_of_table tip (by rw [content,same])
  obtain ⟨after,saved,wrote⟩ := (commits_saveBlock E choices static).wrote c first latest counted firstTip
  have final : play (act E choices static) [.loadSnapshot name,.save c] created = after := by
    show ((store E choices).saveBlock E static c (loadSnapshot name created).2).2 = after
    rw [loadedOnce,saved]
  have afterHas : Has name after.database after := by
    refine ⟨?_,?_⟩
    · have supported := has.1
      obtain ⟨_,_,url,_⟩ := loadSnapshot_ok.mp loadedOnce
      unfold supportSnapshotsWithCurrentConfig at supported ⊢
      rw [wrote.url,url]
      exact supported
    · rw [← db,← wrote.db]
      exact after.databases_db
  rintro ⟨loaded,loadedAgain,kept,_⟩
  rw [final] at loadedAgain
  obtain ⟨other,otherLoaded,otherContent,_⟩ := loadSnapshot_has afterHas
  rw [otherLoaded] at loadedAgain
  cases loadedAgain
  have table := wrote.table .blocks
  rw [writesTo_saveWrites,content,same] at table
  have tables : after.database .blocks = before.database .blocks := by rw [← otherContent,kept,same]
  rw [tables] at table
  apply new
  rw [table]
  exact mem_upsert.mpr (.inl rfl)

/-- Create a snapshot, load it, commit block 1, load it again: block 1 is there. -/
theorem snapshot_lost_after_commit :
    ¬ SnapshotKept Samples.encoding .earliest (fun _ => true) "a"
      (createSnapshot "a" (run ((store Samples.encoding .earliest).saveBlock Samples.encoding (fun _ => true))
        [Samples.emptyContents 0] (fresh .inMemory))).2
      [.loadSnapshot "a",.save (Samples.emptyContents 1)] := by
  have commits := commits_saveBlock Samples.encoding .earliest (fun _ => true)
  have chain : Chain 0 [Samples.emptyContents 0] := ⟨rfl,by decide,trivial⟩
  have start := fresh_tip Samples.encoding .inMemory
  obtain ⟨tip,_⟩ := run_tip commits chain start (Nat.le_refl 0) (by simp)
  refine snapshot_changed tip rfl (by decide) (fun member => ?_)
  have grown := run_grown commits chain start (Nat.le_refl 0)
  rcases grown.rows .blocks (by decide) _ member with old | low
  · rw [fresh_database] at old; cases old
  · exact absurd low (by decide)

end FlowEmulator.Sqlite
