import FlowEmulator.HistoricalReads
import FlowEmulator.Snapshots

/-!
Restarts of an emulator over the SQL store on disk. A restart opens the main
database, also where a snapshot was loaded, and what the emulator answers then is
what was committed to that database. Only the pending block is lost.
-/
namespace FlowEmulator.Local
open FlowEmulator.Blockchain FlowEmulator.Logged

/-- What a restart leaves of an emulator. -/
structure Resumes (E : Encoding) (choices : Sqlite.Choices) (tick : Tick) (b after : Blockchain (Sqlite.Store × Log)) : Prop where
  log : after.storage.2 = b.storage.2
  databases : after.storage.1.databases = b.storage.1.databases
  main : after.storage.1.db = .main
  answers : Answers E (Sqlite.backend E choices) (b.storage.2 .main) after.storage.1
  pending : ∃ last, (b.storage.2 .main).getLast? = some last ∧
    (Sqlite.backend E choices).latestBlock after.storage.1 = .ok last.block ∧
    after.pendingBlock = newPendingBlock E tick last.block
  kept : b.storage.1.db = .main → ∀ query,
    (Sqlite.backend E choices).answer query after.storage.1 = (Sqlite.backend E choices).answer query b.storage.1

section
variable {τ : Type} {E : Encoding} {M : Machine} {config : Config} {choices : Sqlite.Choices}

/-- The latest block is the last that was committed. -/
theorem contains_latestBlock (choices : Sqlite.Choices) {cs : List BlockContents} {s : Sqlite.Store} (contains : Sqlite.Contains E cs s.database) :
    ∃ last, cs.getLast? = some last ∧ (Sqlite.backend E choices).latestBlock s = .ok last.block := by
  obtain ⟨latest,recorded⟩ := contains.recorded
  obtain ⟨c,here,height,found⟩ := Sqlite.recorded_latestBlock choices recorded (Nat.zero_le latest)
  have nonempty : cs ≠ [] := List.ne_nil_of_mem here
  have ends : cs.getLast? = some (cs.getLast nonempty) := List.getLast?_eq_some_getLast nonempty
  have same : cs.getLast nonempty = c := chain_height_inj recorded.chain (List.getLast_mem nonempty) here
    ((Sqlite.recorded_last recorded ends).trans height.symm)
  exact ⟨c,by rw [ends,same],found⟩

section
variable {x : Sqlite.Store × Log} {name : String} {stored : Sqlite.Store}

theorem createSnapshot_noted (creates : Sqlite.createSnapshot name x.1 = (.ok (),stored)) :
    (Logged.backend Sqlite.places (Sqlite.backend E choices)).createSnapshot name x =
      (.ok (),(stored,copied Sqlite.places name x.1 x.2)) := by
  show noting _ (Sqlite.createSnapshot name) x = _
  rw [noting_run,creates]

theorem loadSnapshot_noted (loads : Sqlite.loadSnapshot name x.1 = (.ok (),stored)) :
    (Logged.backend Sqlite.places (Sqlite.backend E choices)).loadSnapshot name x = (.ok (),(stored,x.2)) := by
  show aside (Sqlite.loadSnapshot name) x = _
  rw [aside_run,loads]

end

/-- An operation on the snapshots of a reached emulator, which is followed by a reload on the latest block. -/
theorem snapshot_stored {b : Blockchain (Sqlite.Store × Log)} {op : StoreM (Sqlite.Store × Log) Unit} {latest : Nat}
    {storage : Sqlite.Store × Log} (supported : Sqlite.supportSnapshotsWithCurrentConfig b.storage.1 = true)
    (run : op b.storage = (.ok (),storage))
    (leads : Leads (fun latest x => Sqlite.AllChained E latest x.1 ∧ Sqlite.Logs E x.2 x.1) latest (op b.storage)) (tick : Tick) :
    ((do
      let supported ← Fallible.view fun b => Sqlite.supportSnapshotsWithCurrentConfig b.storage.1
      if supported then do
        inStorage op
        reloadBlockchain E M config (Logged.backend Sqlite.places (Sqlite.backend E choices)) tick
      else Fallible.fail .snapshotsUnsupported : EmulatorM _ Unit) b).2.storage = storage := by
  rw [run] at leads
  obtain ⟨next,holds⟩ := leads
  obtain ⟨block,found,_⟩ := ((growing_logged (Sqlite.keeping_backend E choices)).chain holds).latestBlock
  have found : (Logged.backend Sqlite.places (Sqlite.backend E choices)).latestBlock
      ({ b with storage := storage } : Blockchain _).storage = .ok block := found
  rw [Fallible.bind_ok (Fallible.view_run _ b),if_pos supported,Fallible.bind_ok (inStorage_ok run),reload_ok tick found]

theorem followed_created {b : Blockchain (Sqlite.Store × Log)} (followed : (Local.sqlite choices : Local τ).Followed E M config b)
    (tick : Tick) {name : String} {created : Sqlite.Store} (creates : Sqlite.createSnapshot name b.storage.1 = (.ok (),created)) :
    ∃ after, (Local.sqlite choices : Local τ).Followed E M config after ∧ after.storage.1 = created := by
  have growing := growing_logged (Sqlite.keeping_backend E choices)
  have supported := (Sqlite.createSnapshot_ok.mp creates).1
  obtain ⟨latest,holds,_⟩ := reachedFrom_grown growing followed
  refine ⟨_,Run.reachable_step (a := .createSnapshot tick name) followed trivial,?_⟩
  exact congrArg Prod.fst
    (snapshot_stored supported (createSnapshot_noted creates) (growing.createSnapshot name holds supported) tick)

theorem followed_loaded {b : Blockchain (Sqlite.Store × Log)} (followed : (Local.sqlite choices : Local τ).Followed E M config b)
    (tick : Tick) {name : String} {loaded : Sqlite.Store} (loads : Sqlite.loadSnapshot name b.storage.1 = (.ok (),loaded)) :
    ∃ after, (Local.sqlite choices : Local τ).Followed E M config after ∧ after.storage.1 = loaded := by
  have growing := growing_logged (Sqlite.keeping_backend E choices)
  have supported := (Sqlite.loadSnapshot_ok.mp loads).1
  obtain ⟨latest,holds,_⟩ := reachedFrom_grown growing followed
  refine ⟨_,Run.reachable_step (a := .loadSnapshot tick name) followed trivial,?_⟩
  exact congrArg Prod.fst
    (snapshot_stored supported (loadSnapshot_noted loads) (growing.loadSnapshot name holds supported) tick)

/-- A snapshot is created under a free name and opened. -/
theorem followed_snapshot {b : Blockchain (Sqlite.Store × Log)} (followed : (Local.sqlite choices : Local τ).Followed E M config b)
    (tick : Tick) {name : String} (supported : Sqlite.supportSnapshotsWithCurrentConfig b.storage.1 = true)
    (free : b.storage.1.databases (.snapshot name) = none) :
    ∃ after, (Local.sqlite choices : Local τ).Followed E M config after ∧ after.storage.1.url = b.storage.1.url ∧
      after.storage.1.db = .snapshot name := by
  obtain ⟨created,creates⟩ := Sqlite.createSnapshot_free supported free
  obtain ⟨_,_,url,databases,_⟩ := Sqlite.createSnapshot_ok.mp creates
  obtain ⟨x,first,rfl⟩ := followed_created followed tick creates
  have still : Sqlite.supportSnapshotsWithCurrentConfig x.storage.1 = true := by
    show (Sqlite.Store.url x.storage.1 != .file) = true
    rw [url]
    exact supported
  obtain ⟨loaded,loads,_,_,db⟩ : ∃ loaded, Sqlite.loadSnapshot name x.storage.1 = (.ok (),loaded) ∧ _ :=
    Sqlite.loadSnapshot_has ⟨still,by rw [databases,Function.update_self]⟩
  obtain ⟨_,_,sameUrl,_⟩ := Sqlite.loadSnapshot_ok.mp loads
  obtain ⟨y,second,rfl⟩ := followed_loaded first tick loads
  exact ⟨y,second,sameUrl.trans url,db⟩

open FlowEmulator.Samples in
/-- An emulator that has just started. -/
theorem sample_followed (url : Sqlite.Url) :
    ∃ b, (Local.sqlite .earliest : Local Unit).Followed encoding machine config b ∧ b.storage.1.url = url ∧
      b.storage.1.databases (.snapshot "a") = none := by
  have tip := Sqlite.fresh_tip encoding url
  obtain ⟨stored,run,wrote⟩ := (Sqlite.commits_commitBlock encoding .earliest).wrote
    (genesisContents machine config ∅ []) _ none ⟨rfl,rfl⟩ tip
  have done : (Sqlite.backend encoding .earliest).commitBlock (genesisContents machine config ∅ []) (Sqlite.fresh url) =
      (.ok (),stored) := run
  have noted : (Logged.backend Sqlite.places (Sqlite.backend encoding .earliest)).commitBlock
      (genesisContents machine config ∅ []) (Sqlite.fresh url,fun _ => []) =
        (.ok (),(stored,committed Sqlite.places (genesisContents machine config ∅ []) (Sqlite.fresh url) fun _ => [])) := by
    show noting _ ((Sqlite.backend encoding .earliest).commitBlock _) _ = _
    rw [noting_run,done]
  have none : (Logged.backend Sqlite.places (Sqlite.backend encoding .earliest)).latestBlock
      (Sqlite.fresh url,fun _ => []) = .error .notFound := LinkedChain.empty_latestBlock .earliest tip
  have started := new_bootstrapped (E := encoding) tick false none rfl noted
  exact ⟨_,Run.reachable_initial ⟨tick,false,(Sqlite.fresh url,fun _ => []),⟨⟨url,rfl⟩,rfl⟩,started⟩,wrote.url,
    wrote.others _ fun wrong => nomatch wrong⟩

/-- In every run over a store on disk a restart succeeds, and brings back what was
    committed to the main database. -/
theorem restart_resumes {b : Blockchain (Sqlite.Store × Log)} (followed : (Local.sqlite choices : Local τ).Followed E M config b)
    (lasting : b.storage.1.url ≠ .inMemory) (tick : Tick) (autoMine : Bool) :
    ∃ reopened after, Logged.reopen Sqlite.places (fun s => .ok (Sqlite.reopen s)) b.storage = .ok reopened ∧
      newBlockchain E M config (Logged.backend Sqlite.places (Sqlite.backend E choices)) tick autoMine reopened = .ok after ∧
      Resumes E choices tick b after := by
  obtain ⟨latest,⟨holds,logs⟩,_⟩ := reachedFrom_grown (growing_logged (Sqlite.keeping_backend E choices)) followed
  have databases := Sqlite.reopen_databases lasting holds.main
  have volatile : Sqlite.places.volatile b.storage.1 = false := decide_eq_false lasting
  have opened : Logged.reopen Sqlite.places (fun s => .ok (Sqlite.reopen s)) b.storage =
      .ok (Sqlite.reopen b.storage.1,b.storage.2) := by
    rw [Logged.reopen,volatile]
    rfl
  have found : Sqlite.Logs E b.storage.2 (Sqlite.reopen b.storage.1) := fun name content kept =>
    logs name content (databases ▸ kept)
  have contains : Sqlite.Contains E (b.storage.2 .main) (Sqlite.reopen b.storage.1).database := Sqlite.logs_open found
  obtain ⟨last,ends,read⟩ := contains_latestBlock choices contains
  refine ⟨_,_,opened,new_existing tick autoMine read,rfl,databases,rfl,Sqlite.contains_answers choices contains,
    ⟨last,ends,read,rfl⟩,fun main query => ?_⟩
  refine DefaultStore.answer_congr E query (fun name _ => ?_)
  have same : (Sqlite.reopen b.storage.1).database = b.storage.1.database := Sqlite.reopen_database main lasting
  constructor <;> intros <;> simp [Sqlite.dataStore,Sqlite.getBytes,Sqlite.selectAtVersion,same]

end

open FlowEmulator.Samples in
/-- An emulator on disk has a snapshot open. -/
theorem restart_resumes_snapshot : ∃ b, (Local.sqlite .earliest : Local Unit).Followed encoding machine config b ∧
    b.storage.1.url ≠ .inMemory ∧ b.storage.1.db = .snapshot "a" ∧ ∃ reopened after,
      Logged.reopen Sqlite.places (fun s => .ok (Sqlite.reopen s)) b.storage = .ok reopened ∧
      newBlockchain encoding machine config (Logged.backend Sqlite.places (Sqlite.backend encoding .earliest)) tick true reopened =
        .ok after ∧
      Resumes encoding .earliest tick b after := by
  obtain ⟨start,first,url,free⟩ := sample_followed .directory
  have supported : Sqlite.supportSnapshotsWithCurrentConfig start.storage.1 = true := by
    show (Sqlite.Store.url start.storage.1 != .file) = true
    rw [url]
    decide
  obtain ⟨b,followed,same,db⟩ := followed_snapshot first tick supported free
  have lasting : b.storage.1.url ≠ .inMemory := by
    rw [same,url]
    decide
  exact ⟨b,followed,lasting,db,restart_resumes followed lasting tick true⟩

end FlowEmulator.Local
