import FlowEmulator.Emulator
import FlowEmulator.Filed

/-!
Emulators whose own blocks are in an SQL store, be it the whole store or the
overlay of a remote chain (`Layer`). Whatever is done to such an emulator keeps
all its databases filed and the pending block above the latest one (`Standing`),
as long as rollbacks go to own blocks below the latest.
-/
namespace FlowEmulator
open FlowEmulator.Fallible FlowEmulator.DefaultStore

/-- Where a store keeps the SQL store, and the fork height if it has one. -/
structure Layer (σ : Type) where
  overlay : σ → Sqlite.Store
  put : Sqlite.Store → σ → σ
  forked : σ → Option Nat
  overlay_put : ∀ sql s, overlay (put sql s) = sql
  put_overlay : ∀ s, put (overlay s) s = s
  put_put : ∀ sql later s, put later (put sql s) = put later s
  forked_put : ∀ sql s, forked (put sql s) = forked s

namespace Layer
variable {σ α β : Type} (L : Layer σ)

/-- Run an operation of the SQL store. -/
def run (op : StoreM Sqlite.Store α) : StoreM σ α := inside L.overlay L.put id op

theorem run_def (op : StoreM Sqlite.Store α) (s : σ) :
    L.run op s = ((op (L.overlay s)).1,L.put (op (L.overlay s)).2 s) := by
  unfold run inside
  rcases op (L.overlay s) with ⟨result,sql⟩
  cases result <;> rfl

variable {L}

theorem run_result {op : StoreM Sqlite.Store α} {s after : σ} {result : Except StoreError α}
    (done : L.run op s = (result,after)) : ∃ sql, op (L.overlay s) = (result,sql) ∧ after = L.put sql s := by
  rw [run_def] at done
  cases done
  exact ⟨_,rfl,rfl⟩

theorem run_of {op : StoreM Sqlite.Store α} {s : σ} {result : Except StoreError α} {sql : Sqlite.Store}
    (done : op (L.overlay s) = (result,sql)) : L.run op s = (result,L.put sql s) := by
  rw [run_def,done]

variable (L)

theorem run_pure (a : α) : L.run (pure a) = pure a := by
  funext s
  rw [run_def]
  show (Except.ok a,L.put (L.overlay s) s) = (Except.ok a,s)
  rw [L.put_overlay]

theorem run_bind (x : StoreM Sqlite.Store α) (f : α → StoreM Sqlite.Store β) :
    L.run (x >>= f) = (L.run x >>= fun a => L.run (f a)) := by
  funext s
  rcases first : x (L.overlay s) with ⟨result,sql⟩
  cases result with
  | error e => rw [run_of (bind_error first f),bind_error (run_of first)]
  | ok a => rw [run_def,bind_ok first,bind_ok (run_of first),run_def,L.overlay_put,L.put_put]

theorem run_forM (f : α → StoreM Sqlite.Store Unit) (list : List α) : L.run (list.forM f) = list.forM fun a => L.run (f a) := by
  induction list with
  | nil => exact L.run_pure ()
  | cons a rest ih => rw [forM_cons,run_bind,ih,forM_cons]

end Layer

/-- The backend writes to the SQL store of its layer, and finds the blocks that
    are there. Where there is none of its own yet, the block of the fork height is known. -/
structure Layered {σ : Type} (E : Encoding) (choices : Sqlite.Choices) (L : Layer σ) (B : Backend σ) (Founded : σ → Prop) :
    Prop where
  put : ∀ {s}, Founded s → ∀ sql, Founded (L.put sql s)
  commitBlock : ∀ c, B.commitBlock c = L.run ((Sqlite.store E choices).commitBlock c)
  saveBlock : ∀ static c, B.saveBlock E static c = L.run ((Sqlite.store E choices).saveBlock E static c)
  rollback : B.rollbackProvider = some fun height => L.run (Sqlite.rollbackToBlockHeight E choices height)
  createSnapshot : ∀ name, B.createSnapshot name = L.run (Sqlite.createSnapshot name)
  loadSnapshot : ∀ name, B.loadSnapshot name = L.run (Sqlite.loadSnapshot name)
  latestBlockHeight : ∀ s, B.latestBlockHeight s = (Sqlite.store E choices).latestBlockHeight (L.overlay s)
  latestBlock : ∀ s, B.latestBlock s = (B.latestBlockHeight s).bind fun height => B.blockByHeight height s
  own : ∀ {s height block}, (Sqlite.store E choices).blockByHeight height (L.overlay s) = .ok block →
    B.blockByHeight height s = .ok block
  founded : ∀ {s forkHeight}, Founded s → L.forked s = some forkHeight →
    (Sqlite.store E choices).latestBlockHeight (L.overlay s) = .ok forkHeight →
    (∀ block, (Sqlite.store E choices).blockByHeight forkHeight (L.overlay s) ≠ .ok block) →
    ∃ block, B.blockByHeight forkHeight s = .ok block ∧ block.height = forkHeight

/-- All databases are filed, the open one up to a latest height. -/
structure Sound {σ : Type} (E : Encoding) (L : Layer σ) (Founded : σ → Prop) (latest : Nat) (s : σ) : Prop where
  founded : Founded s
  filed : Sqlite.Filed E (L.forked s) latest (L.overlay s).database
  all : ∀ name content, (L.overlay s).databases name = some content →
    ∃ latest, Sqlite.Filed E (L.forked s) latest content
  main : ((L.overlay s).databases .main).isSome

/-- The store is sound, and the pending block is above the latest. -/
structure Standing {σ : Type} (E : Encoding) (L : Layer σ) (Founded : σ → Prop) (latest : Nat) (b : Blockchain σ) :
    Prop where
  sound : Sound E L Founded latest b.storage
  pending : b.pendingBlock.height = latest+1

section
open FlowEmulator.Blockchain
variable {σ : Type} {E : Encoding} {M : Machine} {config : Config} {choices : Sqlite.Choices} {L : Layer σ} {B : Backend σ}
  {Founded : σ → Prop} {latest : Nat} {s : σ} {b : Blockchain σ}

theorem sound_latestBlockHeight (layered : Layered E choices L B Founded) (sound : Sound E L Founded latest s) :
    B.latestBlockHeight s = .ok latest :=
  (layered.latestBlockHeight s).trans (Sqlite.filed_latestBlockHeight choices sound.filed)

/-- The latest block can always be read. -/
theorem sound_latestBlock (layered : Layered E choices L B Founded) (sound : Sound E L Founded latest s) :
    ∃ block, B.latestBlock s = .ok block ∧ B.blockByHeight latest s = .ok block ∧ block.height = latest := by
  have found : ∃ block, B.blockByHeight latest s = .ok block ∧ block.height = latest := by
    by_cases low : Sqlite.lowest (L.forked s) ≤ latest
    · obtain ⟨block,read,height⟩ := Sqlite.filed_own choices sound.filed low (Nat.le_refl latest)
      exact ⟨block,layered.own read,height⟩
    · have reaches := sound.filed.reaches
      cases forked : L.forked s with
      | none => exact absurd (by rw [forked]; exact Nat.zero_le _) low
      | some forkHeight =>
        obtain rfl : forkHeight = latest := by
          simp only [forked,Sqlite.lowest,Option.elim_some] at low reaches
          omega
        refine layered.founded sound.founded forked (Sqlite.filed_latestBlockHeight choices sound.filed) (fun block read => ?_)
        exact low (Sqlite.filed_lowest choices sound.filed read)
  obtain ⟨block,read,height⟩ := found
  refine ⟨block,?_,read,height⟩
  rw [layered.latestBlock,sound_latestBlockHeight layered sound]
  exact read

/-- A change of the open database that leaves it filed. -/
theorem sound_put (layered : Layered E choices L B Founded) (sound : Sound E L Founded latest s) {sql : Sqlite.Store}
    {next : Nat} (db : sql.db = (L.overlay s).db)
    (others : ∀ name, name ≠ (L.overlay s).db → sql.databases name = (L.overlay s).databases name)
    (filed : Sqlite.Filed E (L.forked s) next sql.database) : Sound E L Founded next (L.put sql s) := by
  refine ⟨layered.put sound.founded sql,?_,?_,?_⟩
  · rw [L.forked_put,L.overlay_put]
    exact filed
  · rw [L.forked_put,L.overlay_put]
    refine Sqlite.filed_all filed (fun name content other kept => ?_)
    rw [db] at other
    rw [others name other] at kept
    exact sound.all name content kept
  · rw [L.overlay_put]
    by_cases opened : Sqlite.DatabaseName.main = (L.overlay s).db
    · rw [opened,← db]
      exact sql.opened
    · rw [others _ opened]
      exact sound.main

/-- A store whose main database is open. -/
theorem sound_main (founded : Founded s) (filed : Sqlite.Filed E (L.forked s) latest (L.overlay s).database)
    (main : (L.overlay s).db = .main)
    (others : ∀ name content, name ≠ .main → (L.overlay s).databases name = some content →
      ∃ latest, Sqlite.Filed E (L.forked s) latest content) : Sound E L Founded latest s := by
  refine ⟨founded,filed,Sqlite.filed_all filed (fun name content other => others name content (main ▸ other)),?_⟩
  rw [← main]
  exact (L.overlay s).opened

variable (M config) in
/-- A reload of a sound store succeeds. -/
theorem standing_reload (layered : Layered E choices L B Founded) (sound : Sound E L Founded latest b.storage) (tick : Tick) :
    ∃ after, reloadBlockchain E M config B tick b = (.ok (),after) ∧ after.storage = b.storage ∧
      Standing E L Founded latest after := by
  obtain ⟨block,found,_,height⟩ := sound_latestBlock layered sound
  refine ⟨_,reload_ok tick found,rfl,sound,?_⟩
  show block.height+1 = latest+1
  rw [height]

/-! ### What the actions do -/

theorem standing_request (layered : Layered E choices L B Founded) (standing : Standing E L Founded latest b) (r : Request) :
    ∃ latest, Standing E L Founded latest (request E M config B r b) := by
  have sound := standing.sound
  have tip := Sqlite.filed_tip sound.filed
  cases request_effect r b with
  | still still => exact ⟨latest,still.storage ▸ sound,still.place.height.trans standing.pending⟩
  | refused c e run place =>
    rw [layered.saveBlock] at run
    obtain ⟨sql,refused,after⟩ := Layer.run_result run
    rw [Sqlite.refused_same tip refused,L.put_overlay] at after
    exact ⟨latest,after ▸ sound,place.height.trans standing.pending⟩
  | saved c tick placed run pending =>
    have height : c.block.height = latest+1 := placed.height.trans standing.pending
    rw [layered.saveBlock] at run
    obtain ⟨sql,saved,after⟩ := Layer.run_result run
    obtain ⟨_,wrote⟩ := Sqlite.saved_wrote tip saved
    have filed := Sqlite.filed_saved sound.filed height wrote
    refine ⟨latest+1,after ▸ sound_put layered sound wrote.db wrote.others filed,?_⟩
    rw [pending,← height]
    rfl
  | reset tick block storage found pending =>
    obtain ⟨tip,read,_,height⟩ := sound_latestBlock layered sound
    rw [found] at read
    cases read
    refine ⟨latest,storage ▸ sound,?_⟩
    rw [pending,← height]
    rfl

variable (M config) in
/-- A rollback that the guard refuses changes nothing. -/
theorem rollback_guarded (layered : Layered E choices L B Founded) (tick : Tick) {height : Nat}
    (low : (L.overlay b.storage).currentHeight ≤ height) :
    rollbackToBlockHeight E M config B tick height b = (.error (.storage .rollbackHeight),b) := by
  have refused : L.run (Sqlite.rollbackToBlockHeight E choices height) b.storage = _ :=
    Layer.run_of (Sqlite.rollback_refused low)
  rw [rollback_error tick layered.rollback refused,L.put_overlay]

variable (M config) in
/-- A rollback that passes the guard is followed by a reload. -/
theorem rollback_passed (layered : Layered E choices L B Founded) (tick : Tick) {height : Nat}
    (above : height < (L.overlay b.storage).currentHeight) : ∃ sql,
      Sqlite.RolledBack E height (L.overlay b.storage) sql ∧
      rollbackToBlockHeight E M config B tick height b =
        reloadBlockchain E M config B tick { b with storage := L.put sql b.storage } := by
  obtain ⟨sql,done,rolled⟩ := Sqlite.rollback_run E choices above
  refine ⟨sql,rolled,?_⟩
  unfold rollbackToBlockHeight
  rw [layered.rollback]
  dsimp only
  rw [bind_ok (inStorage_ok (Layer.run_of done))]

/-- A rollback to an own block below the latest, or to the block the first of them is built on. -/
theorem sound_rolledBack (layered : Layered E choices L B Founded) (sound : Sound E L Founded latest s) {height : Nat}
    (low : Sqlite.lowest (L.forked s) ≤ height+1) (high : height ≤ latest) {sql : Sqlite.Store}
    (rolled : Sqlite.RolledBack E height (L.overlay s) sql) : Sound E L Founded height (L.put sql s) :=
  sound_put layered sound rolled.db rolled.others (Sqlite.filed_rolledBack sound.filed rolled low high)

/-- An operation of the SQL store and then a reload. -/
theorem standing_reloaded (layered : Layered E choices L B Founded) (standing : Standing E L Founded latest b) (tick : Tick)
    {op : StoreM Sqlite.Store Unit}
    (done : ∀ sql, op (L.overlay b.storage) = (.ok (),sql) → ∃ latest, Sound E L Founded latest (L.put sql b.storage))
    (failed : ∀ e sql, op (L.overlay b.storage) = (.error e,sql) → sql = L.overlay b.storage) :
    ∃ latest, Standing E L Founded latest
      ((do inStorage (L.run op); reloadBlockchain E M config B tick : EmulatorM σ Unit) b).2 := by
  rcases run : op (L.overlay b.storage) with ⟨result,sql⟩
  cases result with
  | error e =>
    rw [bind_error (inStorage_error (Layer.run_of run)),failed e sql run,L.put_overlay]
    exact ⟨latest,standing⟩
  | ok _ =>
    obtain ⟨next,sound⟩ := done sql run
    rw [bind_ok (inStorage_ok (Layer.run_of run))]
    obtain ⟨after,reloaded,_,later⟩ := standing_reload M config layered sound tick (b := { b with storage := L.put sql b.storage })
    rw [reloaded]
    exact ⟨next,later⟩

theorem standing_createSnapshot (layered : Layered E choices L B Founded) (standing : Standing E L Founded latest b)
    (tick : Tick) (name : String) :
    ∃ latest, Standing E L Founded latest (Blockchain.createSnapshot E M config B tick name b).2 := by
  have sound := standing.sound
  unfold Blockchain.createSnapshot
  rw [bind_ok (view_run _ b)]
  split
  · rw [layered.createSnapshot]
    refine standing_reloaded layered standing tick (fun sql run => ?_) (fun e sql run => Sqlite.createSnapshot_error run)
    obtain ⟨_,_,_,databases,_⟩ := Sqlite.createSnapshot_ok.mp run
    have content := Sqlite.createSnapshot_database run
    refine ⟨latest,layered.put sound.founded sql,?_,?_,?_⟩
    · rw [L.forked_put,L.overlay_put,content]
      exact sound.filed
    · intro other found kept
      rw [L.overlay_put,databases] at kept
      rw [L.forked_put]
      by_cases new : other = .snapshot name
      · rw [new,Function.update_self] at kept
        cases kept
        exact ⟨latest,sound.filed⟩
      · rw [Function.update_of_ne new] at kept
        exact sound.all other found kept
    · rw [L.overlay_put,databases,Function.update_of_ne (by intro same; cases same)]
      exact sound.main
  · exact ⟨latest,standing⟩

theorem standing_loadSnapshot (layered : Layered E choices L B Founded) (standing : Standing E L Founded latest b)
    (tick : Tick) (name : String) :
    ∃ latest, Standing E L Founded latest (Blockchain.loadSnapshot E M config B tick name b).2 := by
  have sound := standing.sound
  unfold Blockchain.loadSnapshot
  rw [bind_ok (view_run _ b)]
  split
  · rw [layered.loadSnapshot]
    refine standing_reloaded layered standing tick (fun sql run => ?_) (fun e sql run => Sqlite.loadSnapshot_error run)
    obtain ⟨_,_,_,databases,db,_⟩ := Sqlite.loadSnapshot_ok.mp run
    have all : ∀ other content, sql.databases other = some content →
        ∃ latest, Sqlite.Filed E (L.forked b.storage) latest content := by
      rw [databases]
      exact sound.all
    obtain ⟨next,filed⟩ := all sql.db sql.database sql.databases_db
    refine ⟨next,layered.put sound.founded sql,?_,?_,?_⟩
    · rw [L.forked_put,L.overlay_put]
      exact filed
    · rw [L.forked_put,L.overlay_put]
      exact all
    · rw [L.overlay_put,databases]
      exact sound.main
  · exact ⟨latest,standing⟩

/-- An emulator that starts on a sound store. -/
theorem standing_existing (layered : Layered E choices L B Founded) (sound : Sound E L Founded latest s) {tick : Tick}
    {autoMine : Bool} (started : newBlockchain E M config B tick autoMine s = .ok b) :
    ∃ latest, Standing E L Founded latest b := by
  obtain ⟨block,found,_,height⟩ := sound_latestBlock layered sound
  rw [new_existing tick autoMine found] at started
  cases started
  refine ⟨latest,sound,?_⟩
  show block.height+1 = latest+1
  rw [height]

theorem standing_restart {reopen : σ → Except StoreError σ} (standing : Standing E L Founded latest b) {tick : Tick}
    {autoMine : Bool} (reopened : ∀ storage started, reopen b.storage = .ok storage →
      newBlockchain E M config B tick autoMine storage = .ok started → ∃ latest, Standing E L Founded latest started) :
    ∃ latest, Standing E L Founded latest (restart E M config B reopen tick autoMine b) := by
  unfold restart
  split
  · exact ⟨latest,standing⟩
  next storage opened =>
  split
  · next started done => exact reopened storage started opened done
  · exact ⟨latest,standing⟩

end
end FlowEmulator
