import FlowEmulator.Fork
import FlowEmulator.Layered
import FlowEmulator.LinkedChain

/-!
The guard of rollbacks compares a height with the current height, which is kept
in memory beside the database. Opening a database leaves it 0, loading a
snapshot leaves it as it was, and it says nothing of the fork height. A rollback
does what it should exactly where the current height is in step with the
database at the height (`InStep`).
-/
namespace FlowEmulator
open FlowEmulator.Fallible FlowEmulator.DefaultStore FlowEmulator.Run

/-- The emulator's view of the store over a remote chain. -/
def Remote.backend (E : Encoding) (choices : Sqlite.Choices) (node : Remote.Node) (cacheChoices : Sqlite.Choices) :
    Backend Remote.Store :=
  { Remote.store E choices node cacheChoices with
    rollbackProvider := some (Remote.rollbackToBlockHeight E choices)
    supportSnapshots := fun s => Sqlite.supportSnapshotsWithCurrentConfig s.overlay
    createSnapshot := fun name => Remote.onOverlay (Sqlite.createSnapshot name)
    loadSnapshot := fun name => Remote.onOverlay (Sqlite.loadSnapshot name) }

namespace RollbackGuard
open FlowEmulator.Blockchain
open FlowEmulator.Sqlite (Choices Filed lowest)

/-! ### What a rollback should do -/

section
variable {σ : Type} (E : Encoding) (M : Machine) (config : Config) (choices : Choices) (L : Layer σ) (B : Backend σ)

/-- The height is below the latest height in the database. -/
def BelowLatest (height : Nat) (sql : Sqlite.Store) : Prop :=
  ∃ latest, (Sqlite.store E choices).latestBlockHeight sql = .ok latest ∧ height < latest

/-- The block of the height was executed by the emulator, so that it is in the database. -/
def Executed (height : Nat) (sql : Sqlite.Store) : Prop :=
  ∃ block, (Sqlite.store E choices).blockByHeight height sql = .ok block

/-- A rollback succeeds exactly for executed blocks below the latest. It makes
    the block of the height the latest and adds no block; where it fails, the
    chain is as before. -/
structure Guarded (tick : Tick) (height : Nat) (b : Blockchain σ) : Prop where
  succeeds : (rollbackToBlockHeight E M config B tick height b).1 = .ok () ↔
    BelowLatest E choices height (L.overlay b.storage) ∧ Executed E choices height (L.overlay b.storage)
  restored : ∀ after, rollbackToBlockHeight E M config B tick height b = (.ok (),after) →
    ∃ block, B.blockByHeight height b.storage = .ok block ∧ B.latestBlock after.storage = .ok block
  created : ∀ after, rollbackToBlockHeight E M config B tick height b = (.ok (),after) → ∀ each block,
    (Sqlite.store E choices).blockByHeight each (L.overlay after.storage) = .ok block →
      (Sqlite.store E choices).blockByHeight each (L.overlay b.storage) = .ok block
  unchanged : ∀ e after, rollbackToBlockHeight E M config B tick height b = (.error e,after) →
    B.latestBlockHeight after.storage = B.latestBlockHeight b.storage ∧
      (∀ each, B.blockByHeight each after.storage = B.blockByHeight each b.storage) ∧
      ∀ id, B.blockByID id after.storage = B.blockByID id b.storage

/-- At a height that can be an own block's, the current height and the latest
    height are on the same side of it; at any other, the current height is not above it. -/
def InStep (height : Nat) (s : σ) : Prop :=
  if lowest (L.forked s) ≤ height then
    (height < (L.overlay s).currentHeight ↔ BelowLatest E choices height (L.overlay s))
  else (L.overlay s).currentHeight ≤ height

end

section
variable {σ : Type} {E : Encoding} {M : Machine} {config : Config} {choices : Choices} {L : Layer σ} {B : Backend σ}
  {Founded : σ → Prop} {latest : Nat} {s : σ} {b : Blockchain σ}

theorem belowLatest_filed {forked : Option Nat} {sql : Sqlite.Store} (filed : Filed E forked latest sql.database) {height : Nat} :
    BelowLatest E choices height sql ↔ height < latest := by
  have read : (Sqlite.store E choices).latestBlockHeight sql = .ok latest := Sqlite.filed_latestBlockHeight choices filed
  unfold BelowLatest
  rw [read]
  constructor
  · rintro ⟨each,same,below⟩
    cases same
    exact below
  · exact fun below => ⟨latest,rfl,below⟩

/-- A reload that fails leaves the store. -/
theorem configureLedger_error (layered : Layered E choices L B Founded) (tip : Sqlite.Tip E (L.overlay s) (some latest))
    {e : EmulatorError} {after : σ} (run : configureLedger M config B s = (.error e,after)) : after = s := by
  rcases read : B.latestBlock s with missing | block
  · by_cases none : missing = .notFound
    · subst none
      rcases bootstrapped : M.bootstrap config.getChainID (fun id => B.ledgerByHeight 0 id s) with message | ⟨writes,events⟩
      · rw [configureLedger_unbootstrapped read bootstrapped] at run
        cases run
        rfl
      · -- the first block can always be stored
        have counted : (genesisContents M config writes events).Counted := ⟨rfl,rfl⟩
        obtain ⟨sql,done,_⟩ := (Sqlite.commits_commitBlock E choices).wrote _ _ _ counted tip
        have committed : B.commitBlock (genesisContents M config writes events) s = (.ok (),L.put sql s) := by
          rw [layered.commitBlock,Layer.run_of done]
        rw [configureLedger_committed read bootstrapped committed] at run
        cases run
    · rw [configureLedger_unread read none] at run
      cases run
      rfl
  · rw [configureLedger_ok read] at run
    cases run

theorem reload_error (layered : Layered E choices L B Founded) {tick : Tick}
    (tip : Sqlite.Tip E (L.overlay b.storage) (some latest)) {e : EmulatorError} {after : Blockchain σ}
    (run : reloadBlockchain E M config B tick b = (.error e,after)) : after.storage = b.storage := by
  rcases configured : configureLedger M config B b.storage with ⟨_ | _,storage⟩
  · rw [reload_unconfigured tick configured] at run
    cases run
    exact configureLedger_error layered tip configured
  · rw [reload_configured tick configured] at run
    cases run

variable (choices) in
/-- The executed blocks below the latest are those from the lowest height on. -/
theorem executed_filed {forked : Option Nat} {sql : Sqlite.Store} (filed : Filed E forked latest sql.database) (height : Nat) :
    BelowLatest E choices height sql ∧ Executed E choices height sql ↔ lowest forked ≤ height ∧ height < latest := by
  rw [belowLatest_filed filed]
  constructor
  · rintro ⟨below,block,found⟩
    exact ⟨Sqlite.filed_lowest choices filed found,below⟩
  · rintro ⟨low,below⟩
    obtain ⟨block,found,_⟩ := Sqlite.filed_own choices filed low below.le
    exact ⟨below,block,found⟩

/-- A rollback that the guard refuses is as it should be when the height is not
    that of an executed block below the latest. -/
theorem guarded_refused (layered : Layered E choices L B Founded) (standing : Standing E L Founded latest b) (tick : Tick)
    {height : Nat} (refused : (L.overlay b.storage).currentHeight ≤ height) :
    Guarded E M config choices L B tick height b ↔ ¬ (lowest (L.forked b.storage) ≤ height ∧ height < latest) := by
  have executed := executed_filed choices standing.sound.filed height
  have run := rollback_guarded M config layered tick refused
  constructor
  · intro guarded legal
    have done := guarded.succeeds.mpr (executed.mpr legal)
    rw [run] at done
    cases done
  · intro illegal
    refine ⟨?_,?_,?_,?_⟩
    · rw [run,executed]
      exact ⟨fun done => (by cases done),fun legal => absurd legal illegal⟩
    · intro after done
      rw [run] at done
      cases done
    · intro after done
      rw [run] at done
      cases done
    · intro e after failed
      rw [run] at failed
      cases failed
      exact ⟨rfl,fun _ => rfl,fun _ => rfl⟩

/-- A rollback that passes the guard is as it should be when the height is that
    of an executed block below the latest. -/
theorem guarded_passed (layered : Layered E choices L B Founded) (standing : Standing E L Founded latest b) (tick : Tick)
    {height : Nat} (passed : height < (L.overlay b.storage).currentHeight) :
    Guarded E M config choices L B tick height b ↔ lowest (L.forked b.storage) ≤ height ∧ height < latest := by
  have sound := standing.sound
  have filed := sound.filed
  obtain ⟨sql,rolled,run⟩ := rollback_passed M config layered tick passed
  constructor
  · intro guarded
    rcases reloaded : reloadBlockchain E M config B tick { b with storage := L.put sql b.storage } with ⟨result,after⟩
    rw [reloaded] at run
    cases result with
    | ok _ => exact (executed_filed choices filed height).mp (guarded.succeeds.mp (congrArg Prod.fst run))
    | error e =>
      -- the height is the latest one then, and the reload cannot have failed
      have tip : Sqlite.Tip E sql (some height) := Sqlite.tip_upsert (Sqlite.filed_tip filed) (rolled.table .global)
      have storage := reload_error layered (by rw [L.overlay_put]; exact tip) reloaded
      have same := (guarded.unchanged e after run).1
      rw [storage,sound_latestBlockHeight layered sound,layered.latestBlockHeight,L.overlay_put] at same
      have read := Sqlite.tip_latestBlockHeight tip choices
      obtain rfl : height = latest := Except.ok.inj (read.symm.trans same)
      have rolledSound := sound_rolledBack layered sound filed.reaches (Nat.le_refl height) rolled
      obtain ⟨_,done,_⟩ := standing_reload M config layered rolledSound tick (b := { b with storage := L.put sql b.storage })
      rw [reloaded] at done
      cases done
  · rintro ⟨low,below⟩
    have rolledSound := sound_rolledBack layered sound (by omega) below.le rolled
    obtain ⟨after,reloaded,storage,_⟩ :=
      standing_reload M config layered rolledSound tick (b := { b with storage := L.put sql b.storage })
    rw [reloaded] at run
    have found := Sqlite.filed_rolledBack_found choices filed rolled (by omega) below.le
    refine ⟨?_,?_,?_,?_⟩
    · rw [run]
      exact iff_of_true rfl ((executed_filed choices filed height).mpr ⟨low,below⟩)
    · intro final done
      rw [run] at done
      cases done
      obtain ⟨block,before,_⟩ := Sqlite.filed_own choices filed low below.le
      obtain ⟨tip,latestBlock,read,_⟩ := sound_latestBlock layered rolledSound
      have kept : B.blockByHeight height (L.put sql b.storage) = .ok block := by
        refine layered.own ?_
        rw [L.overlay_put]
        exact (found height block).mpr ⟨Nat.le_refl height,before⟩
      rw [kept] at read
      cases read
      exact ⟨block,layered.own before,storage ▸ latestBlock⟩
    · intro final done each block afterwards
      rw [run] at done
      cases done
      rw [storage,L.overlay_put] at afterwards
      exact ((found each block).mp afterwards).2
    · intro e final failed
      rw [run] at failed
      cases failed

variable (M config) in
/-- A rollback is as it should be exactly where the current height is in step. -/
theorem guarded_iff (layered : Layered E choices L B Founded) (standing : Standing E L Founded latest b) (tick : Tick)
    (height : Nat) : Guarded E M config choices L B tick height b ↔ InStep E choices L height b.storage := by
  have below : BelowLatest E choices height (L.overlay b.storage) ↔ height < latest := belowLatest_filed standing.sound.filed
  unfold InStep
  rw [below]
  by_cases passed : height < (L.overlay b.storage).currentHeight
  · rw [guarded_passed layered standing tick passed]
    split <;> omega
  · rw [guarded_refused layered standing tick (Nat.le_of_not_lt passed)]
    split <;> omega

end

/-! ### The two kinds of stores -/

/-- An SQL store that is the whole store. -/
def plainLayer : Layer Sqlite.Store :=
  ⟨fun s => s,fun sql _ => sql,fun _ => none,fun _ _ => rfl,fun _ => rfl,fun _ _ _ => rfl,fun _ _ => rfl⟩

/-- The overlay of a remote chain. -/
def forkLayer : Layer Remote.Store :=
  ⟨Remote.Store.overlay,fun sql s => { s with overlay := sql },fun s => some s.forkHeight,fun _ _ => rfl,fun _ => rfl,
    fun _ _ _ => rfl,fun _ _ => rfl⟩

/-- How the emulator stores its chain. When the store over a remote chain is
    opened again, it finds some directories of caches. -/
inductive Mode where
  | plain
  | fork (node : Remote.Node) (options : Remote.Options) (cachesLeft : Remote.Store → Remote.Caches)
      (cacheChoices : Choices)

namespace Mode

/-- The node answers with the header of the height it was asked for. -/
def Faithful : Mode → Prop
  | .plain => True
  | .fork node _ _ _ => ∀ height header, node.getBlockHeaderByHeight height = .ok header → header.height = height

abbrev Storage : Mode → Type
  | .plain => Sqlite.Store
  | .fork _ _ _ _ => Remote.Store

def layer : (mode : Mode) → Layer mode.Storage
  | .plain => plainLayer
  | .fork _ _ _ _ => forkLayer

def backend (E : Encoding) (choices : Choices) : (mode : Mode) → Backend mode.Storage
  | .plain => Sqlite.backend E choices
  | .fork node _ _ cacheChoices => Remote.backend E choices node cacheChoices

/-- Open the store over an SQL store. -/
def start (E : Encoding) (choices : Choices) (caches : Remote.Caches) :
    (mode : Mode) → Sqlite.Store → Except StoreError mode.Storage
  | .plain, provider => .ok provider
  | .fork node options _ _, provider => Remote.new E choices node options caches provider

/-- Open the store again after the process has stopped. -/
def reopen (E : Encoding) (choices : Choices) : (mode : Mode) → mode.Storage → Except StoreError mode.Storage
  | .plain, s => .ok (Sqlite.reopen s)
  | .fork node options cachesLeft _, s => Remote.new E choices node options (cachesLeft s) (Sqlite.reopen s.overlay)

/-- The fork height is the initial one, and the node has its block. -/
def Founded : (mode : Mode) → mode.Storage → Prop
  | .plain, _ => True
  | .fork node options _ _, s => Remote.initialForkHeight node options.forkHeight = .ok s.forkHeight ∧
      ∃ header, node.getBlockHeaderByHeight s.forkHeight = .ok header ∧ header.height = s.forkHeight

end Mode

section
variable {E : Encoding} {M : Machine} {config : Config} {choices : Choices}

theorem plainLayer_run {α : Type} (op : StoreM Sqlite.Store α) : plainLayer.run op = op := funext (plainLayer.run_def op)

/-- A block is saved over a remote chain by saving it in the overlay. -/
theorem remote_saveBlock (node : Remote.Node) (cacheChoices : Choices) (static : Identifier → Bool) (c : BlockContents) :
    (Remote.store E choices node cacheChoices).saveBlock E static c =
      forkLayer.run ((Sqlite.store E choices).saveBlock E static c) := by
  have skipped (entry : (_ : Identifier) × StorableTransactionResult) :
      forkLayer.run (if static entry.1 then pure ()
        else (Sqlite.store E choices).indexScheduledTransactionBlockID entry.1 (E.blockID c.block)) =
      if static entry.1 then pure ()
        else forkLayer.run ((Sqlite.store E choices).indexScheduledTransactionBlockID entry.1 (E.blockID c.block)) := by
    split
    · exact forkLayer.run_pure ()
    · rfl
  unfold Store.saveBlock
  rw [Layer.run_bind,Layer.run_bind,Layer.run_forM,Layer.run_forM]
  simp only [skipped]
  rfl

variable (E choices) in
theorem layered_mode (mode : Mode) : Layered E choices mode.layer (mode.backend E choices) mode.Founded := by
  cases mode with
  | plain =>
    refine ⟨fun _ _ => trivial,?_,?_,?_,?_,?_,fun _ => rfl,fun _ => rfl,id,?_⟩
    · exact fun c => (plainLayer_run _).symm
    · exact fun static c => (plainLayer_run _).symm
    · exact congrArg some (funext fun height => (plainLayer_run _).symm)
    · exact fun name => (plainLayer_run _).symm
    · exact fun name => (plainLayer_run _).symm
    · intro s forkHeight _ forked
      cases forked
  | fork node options cachesLeft cacheChoices =>
    refine ⟨fun founded _ => founded,fun _ => rfl,remote_saveBlock node cacheChoices,rfl,fun _ => rfl,fun _ => rfl,
      fun _ => rfl,fun _ => rfl,?_,?_⟩
    · intro s height block found
      show Remote.blockByHeight E choices node height s = _
      have own : DefaultStore.blockByHeight E (Sqlite.dataStore choices) height s.overlay = .ok block := found
      unfold Remote.blockByHeight
      rw [own]
    · rintro s forkHeight ⟨_,header,answered,height⟩ forked latest absent
      cases forked
      refine ⟨header.block,?_,height⟩
      show Remote.blockByHeight E choices node s.forkHeight s = _
      unfold Remote.blockByHeight
      split
      · next block found => exact absurd found (absent block)
      · have read : latestBlockHeight E (Sqlite.dataStore choices) s.overlay = .ok s.forkHeight := latest
        rw [read]
        show (if s.forkHeight < s.forkHeight then _ else _) = _
        rw [if_neg (Nat.lt_irrefl _),answered]
        rfl

/-! ### Starts -/

/-- The first start of an emulator over an SQL store. -/
theorem standing_first {tick : Tick} {autoMine : Bool} {url : Sqlite.Url} {b : Blockchain Sqlite.Store}
    (started : newBlockchain E M config (Sqlite.backend E choices) tick autoMine (Sqlite.fresh url) = .ok b) :
    ∃ latest, Standing E plainLayer (fun _ => True) latest b := by
  obtain ⟨writes,events,_,wrote,pending⟩ := LinkedChain.first_wrote (Sqlite.fresh_tip E url) started
  have filed := Sqlite.filed_first (Sqlite.fresh_database url) rfl wrote
  refine ⟨0,sound_main trivial filed wrote.db (fun name content other kept => ?_),by rw [pending]; rfl⟩
  have absent := (wrote.others name other).trans (Sqlite.fresh_others url other)
  cases kept.symm.trans absent

/-- The overlay when the fork height is set: blocks above it stay. -/
theorem filed_forkedAt {forked : Option Nat} {latest : Option Nat} {forkHeight : Nat} {s : Sqlite.Store}
    (global : Remote.Global E s forked latest)
    (rows : ∀ row ∈ (s.database .blocks).rows, ∃ block : Block, forkHeight+1 ≤ block.height ∧ row = Sqlite.blockRow E block) :
    Filed E (some forkHeight) forkHeight (Remote.forkedAt E forkHeight s).database := by
  refine ⟨Nat.le_refl _,Remote.forkedAt_global global forkHeight,?_,fun height low high => ?_⟩
  · rw [Remote.forkedAt_table forkHeight s (by decide)]
    exact rows
  · have low : forkHeight+1 ≤ height := low
    omega

section
variable {node : Remote.Node} {options : Remote.Options} {cachesLeft : Remote.Store → Remote.Caches} {cacheChoices : Choices}

/-- A start over a remote chain, on a database that has the initial fork height or none. -/
theorem sound_new (faithful : (Mode.fork node options cachesLeft cacheChoices).Faithful) {caches : Remote.Caches}
    {provider : Sqlite.Store} {s : Remote.Store} {forked latest : Option Nat} (main : provider.db = .main)
    (global : Remote.Global E provider forked latest)
    (stored : ∀ forkHeight, forked = some forkHeight → Remote.initialForkHeight node options.forkHeight = .ok forkHeight ∧
      ∃ latest, Filed E (some forkHeight) latest provider.database)
    (rows : ∀ forkHeight, Remote.initialForkHeight node options.forkHeight = .ok forkHeight →
      ∀ row ∈ (provider.database .blocks).rows, ∃ block : Block, forkHeight+1 ≤ block.height ∧ row = Sqlite.blockRow E block)
    (others : ∀ forkHeight, Remote.initialForkHeight node options.forkHeight = .ok forkHeight →
      ∀ name content, name ≠ .main → provider.databases name = some content →
        ∃ latest, Filed E (some forkHeight) latest content)
    (run : Remote.new E choices node options caches provider = .ok s) :
    ∃ latest, Sound E forkLayer (Mode.fork node options cachesLeft cacheChoices).Founded latest s := by
  have opened := Remote.new_ok global run
  have initial : Remote.initialForkHeight node options.forkHeight = .ok s.forkHeight := by
    rcases opened.start with ⟨_,kept⟩ | ⟨_,chosen⟩
    · exact (stored _ kept).1
    · exact chosen
  have founded : (Mode.fork node options cachesLeft cacheChoices).Founded s := by
    obtain ⟨header,answered,_⟩ := opened.header
    have answered := Remote.asked_ok.mp answered
    exact ⟨initial,header,answered,faithful _ header answered⟩
  have overlay : s.overlay.db = .main ∧ (∀ name, name ≠ .main → s.overlay.databases name = provider.databases name) ∧
      ∃ latest, Filed E (some s.forkHeight) latest s.overlay.database := by
    rcases opened.start with ⟨same,kept⟩ | ⟨marked,_⟩
    · rw [same]
      exact ⟨main,fun _ _ => rfl,(stored _ kept).2⟩
    · rw [marked]
      exact ⟨main,fun name other => Remote.forkedAt_others _ provider (main ▸ other),_,
        filed_forkedAt global (rows _ initial)⟩
  obtain ⟨db,same,latest,filed⟩ := overlay
  refine ⟨latest,sound_main founded filed db (fun name content other kept => ?_)⟩
  exact others _ initial name content other ((same name other).symm.trans kept)

theorem sound_new_fresh (faithful : (Mode.fork node options cachesLeft cacheChoices).Faithful) {caches : Remote.Caches}
    {url : Sqlite.Url} {s : Remote.Store} (run : Remote.new E choices node options caches (Sqlite.fresh url) = .ok s) :
    ∃ latest, Sound E forkLayer (Mode.fork node options cachesLeft cacheChoices).Founded latest s := by
  refine sound_new faithful rfl (Remote.global_fresh E url) ?_ ?_ ?_ run
  · intro _ absent
    cases absent
  · intro _ _ row member
    rw [Sqlite.fresh_database] at member
    cases member
  · intro _ _ name content other kept
    rw [Sqlite.fresh_others url other] at kept
    cases kept

theorem sound_new_again (faithful : (Mode.fork node options cachesLeft cacheChoices).Faithful) {caches : Remote.Caches}
    {before s : Remote.Store} {latest : Nat}
    (sound : Sound E forkLayer (Mode.fork node options cachesLeft cacheChoices).Founded latest before)
    (lasting : before.overlay.url ≠ .inMemory)
    (run : Remote.new E choices node options caches (Sqlite.reopen before.overlay) = .ok s) :
    ∃ latest, Sound E forkLayer (Mode.fork node options cachesLeft cacheChoices).Founded latest s := by
  have databases := Sqlite.reopen_databases lasting sound.main
  have initial : Remote.initialForkHeight node options.forkHeight = .ok before.forkHeight := sound.founded.1
  have main := (Sqlite.reopen before.overlay).databases_db
  rw [databases] at main
  obtain ⟨found,filed⟩ := sound.all .main _ main
  have global : Remote.Global E (Sqlite.reopen before.overlay) (some before.forkHeight) (some found) := filed.cells
  refine sound_new faithful rfl global ?_ ?_ ?_ run
  · intro forkHeight same
    cases same
    exact ⟨initial,found,filed⟩
  · intro forkHeight chosen
    obtain rfl := Except.ok.inj (initial.symm.trans chosen)
    exact filed.rows
  · intro forkHeight chosen name content _ kept
    obtain rfl := Except.ok.inj (initial.symm.trans chosen)
    rw [databases] at kept
    exact sound.all name content kept

end

/-- A first start leaves a standing emulator, on either kind of store. -/
theorem standing_started {mode : Mode} (faithful : mode.Faithful) {caches : Remote.Caches} {url : Sqlite.Url}
    {storage : mode.Storage} (opened : mode.start E choices caches (Sqlite.fresh url) = .ok storage) {tick : Tick}
    {autoMine : Bool} {b : Blockchain mode.Storage}
    (started : newBlockchain E M config (mode.backend E choices) tick autoMine storage = .ok b) :
    ∃ latest, Standing E mode.layer mode.Founded latest b := by
  have layered := layered_mode E choices mode
  cases mode with
  | plain =>
    cases opened
    exact standing_first started
  | fork node options cachesLeft cacheChoices =>
    obtain ⟨latest,sound⟩ := sound_new_fresh faithful opened
    exact standing_existing layered sound started

/-- So does a start on what an emulator has left. -/
theorem standing_reopened {mode : Mode} (faithful : mode.Faithful) {latest : Nat} {before : mode.Storage}
    (sound : Sound E mode.layer mode.Founded latest before) {storage : mode.Storage}
    (opened : mode.reopen E choices before = .ok storage) {tick : Tick} {autoMine : Bool} {b : Blockchain mode.Storage}
    (started : newBlockchain E M config (mode.backend E choices) tick autoMine storage = .ok b) :
    ∃ latest, Standing E mode.layer mode.Founded latest b := by
  have layered := layered_mode E choices mode
  cases mode with
  | plain =>
    cases opened
    by_cases memory : before.url = .inMemory
    · rw [Sqlite.reopen_memory memory] at started
      exact standing_first started
    · have databases := Sqlite.reopen_databases memory sound.main
      have main := (Sqlite.reopen before).databases_db
      rw [databases] at main
      obtain ⟨found,filed⟩ := sound.all .main _ main
      have again : Sound E plainLayer (fun _ => True) found (Sqlite.reopen before) := by
        refine sound_main trivial filed rfl (fun name content _ kept => ?_)
        exact sound.all name content ((congrFun databases name).symm.trans kept)
      exact standing_existing layered again started
  | fork node options cachesLeft cacheChoices =>
    by_cases memory : before.overlay.url = .inMemory
    · have opened : Remote.new E choices node options (cachesLeft before) (Sqlite.reopen before.overlay) = .ok storage :=
        opened
      rw [Sqlite.reopen_memory memory] at opened
      obtain ⟨latest,fresh⟩ := sound_new_fresh faithful opened
      exact standing_existing layered fresh started
    · obtain ⟨latest,again⟩ := sound_new_again faithful sound memory opened
      exact standing_existing layered again started

end

/-! ### Whole runs -/

section
variable (E : Encoding) (M : Machine) (config : Config) (choices : Choices) (mode : Mode)

/-- Rollbacks are made where the current height is in step. -/
def Admitted (b : Blockchain mode.Storage) : Action → Prop
  | .rollback _ height => InStep E choices mode.layer height b.storage
  | _ => True

/-- The emulators that runs reach from a first start on an empty database, all rollbacks being made in step. -/
def Reached (b : Blockchain mode.Storage) : Prop :=
  ∃ url caches storage tick autoMine first actions,
    mode.start E choices caches (Sqlite.fresh url) = .ok storage ∧
    newBlockchain E M config (mode.backend E choices) tick autoMine storage = .ok first ∧
    Throughout (act E M config (mode.backend E choices) (mode.reopen E choices)) (Admitted E choices mode) actions first ∧
    play (act E M config (mode.backend E choices) (mode.reopen E choices)) actions first = b

end

section
variable {E : Encoding} {M : Machine} {config : Config} {choices : Choices} {mode : Mode}

theorem standing_rollback {latest : Nat} {b : Blockchain mode.Storage} (standing : Standing E mode.layer mode.Founded latest b)
    (tick : Tick) {height : Nat} (inStep : InStep E choices mode.layer height b.storage) :
    ∃ latest, Standing E mode.layer mode.Founded latest
      (rollbackToBlockHeight E M config (mode.backend E choices) tick height b).2 := by
  have layered := layered_mode E choices mode
  by_cases passed : height < (mode.layer.overlay b.storage).currentHeight
  · have guarded := (guarded_iff M config layered standing tick height).mpr inStep
    obtain ⟨low,below⟩ := (guarded_passed layered standing tick passed).mp guarded
    obtain ⟨sql,rolled,run⟩ := rollback_passed M config layered tick passed
    have sound := sound_rolledBack layered standing.sound (by omega) below.le rolled
    obtain ⟨after,reloaded,_,later⟩ :=
      standing_reload M config layered sound tick (b := { b with storage := mode.layer.put sql b.storage })
    rw [run,reloaded]
    exact ⟨height,later⟩
  · rw [rollback_guarded M config layered tick (Nat.le_of_not_lt passed)]
    exact ⟨latest,standing⟩

theorem standing_act (faithful : mode.Faithful) (b : Blockchain mode.Storage) (action : Action)
    (standing : ∃ latest, Standing E mode.layer mode.Founded latest b) (admitted : Admitted E choices mode b action) :
    ∃ latest, Standing E mode.layer mode.Founded latest
      (act E M config (mode.backend E choices) (mode.reopen E choices) action b) := by
  have layered := layered_mode E choices mode
  obtain ⟨latest,standing⟩ := standing
  cases action with
  | request r => exact standing_request layered standing r
  | rollback tick height => exact standing_rollback standing tick admitted
  | createSnapshot tick name => exact standing_createSnapshot layered standing tick name
  | loadSnapshot tick name => exact standing_loadSnapshot layered standing tick name
  | restart tick autoMine =>
    exact standing_restart standing (fun storage started opened => standing_reopened faithful standing.sound opened)

theorem reached_standing (faithful : mode.Faithful) {b : Blockchain mode.Storage}
    (reached : Reached E M config choices mode b) : ∃ latest, Standing E mode.layer mode.Founded latest b := by
  obtain ⟨url,caches,storage,tick,autoMine,first,actions,opened,started,throughout,rfl⟩ := reached
  exact play_keeps (standing_act faithful) (standing_started faithful opened started) throughout

/-- In every emulator that is reached, a rollback to a height does what it should
    exactly when the current height is in step with the database there. -/
theorem rollback_guarded_iff (faithful : mode.Faithful) {b : Blockchain mode.Storage}
    (reached : Reached E M config choices mode b) (tick : Tick) (height : Nat) :
    Guarded E M config choices mode.layer (mode.backend E choices) tick height b ↔
      InStep E choices mode.layer height b.storage := by
  obtain ⟨latest,standing⟩ := reached_standing faithful reached
  exact guarded_iff M config (layered_mode E choices mode) standing tick height

end

section
open FlowEmulator.Samples

abbrev sampleMode : Mode := .fork Remote.sampleNode Remote.sampleOptions (fun _ => Remote.noCaches) .earliest

theorem sample_faithful : sampleMode.Faithful := by
  intro height header answered
  cases answered
  rfl

/-- An emulator over a remote chain that was just started at a fork height. -/
theorem sample_forked : ∃ b : Blockchain sampleMode.Storage, Reached encoding machine config .earliest sampleMode b ∧
    b.storage.forkHeight = 5 ∧ b.storage.overlay.currentHeight = 5 := by
  obtain ⟨s,opened⟩ := Remote.sample_started
  obtain ⟨latest,sound⟩ := sound_new_fresh sample_faithful opened
  obtain ⟨block,found,_⟩ := sound_latestBlock (layered_mode encoding .earliest sampleMode) sound
  have started : newBlockchain encoding machine config (sampleMode.backend encoding .earliest) tick false s = .ok _ :=
    new_existing tick false found
  have fork : s.forkHeight = 5 := (Except.ok.inj sound.founded.1).symm
  refine ⟨_,⟨.inMemory,Remote.noCaches,s,tick,false,_,[],opened,started,trivial,rfl⟩,fork,?_⟩
  rcases (Remote.new_ok (Remote.global_fresh encoding .inMemory) opened).start with ⟨_,absent⟩ | ⟨marked,_⟩
  · cases absent
  · show s.overlay.currentHeight = 5
    rw [marked]
    exact fork

theorem rollback_guarded_fork : ∃ b : Blockchain sampleMode.Storage,
    Reached encoding machine config .earliest sampleMode b ∧
    Guarded encoding machine config .earliest sampleMode.layer (sampleMode.backend encoding .earliest) tick 5 b ∧
    ¬ Guarded encoding machine config .earliest sampleMode.layer (sampleMode.backend encoding .earliest) tick 4 b := by
  obtain ⟨b,reached,fork,current⟩ := sample_forked
  have inStep (height : Nat) (low : height ≤ 5) :
      InStep encoding .earliest sampleMode.layer height b.storage ↔ 5 ≤ height := by
    have below : ¬ lowest (sampleMode.layer.forked b.storage) ≤ height := by
      show ¬ b.storage.forkHeight+1 ≤ height
      omega
    unfold InStep
    rw [if_neg below,← current]
    rfl
  refine ⟨b,reached,?_,?_⟩
  · exact (rollback_guarded_iff sample_faithful reached tick 5).mpr ((inStep 5 (by decide)).mpr (by decide))
  · rw [rollback_guarded_iff sample_faithful reached tick 4,inStep 4 (by decide)]
    decide

/-- After a block was committed the emulator is started again on its directory.
    The first block is below the latest, and the rollback to it is refused. -/
theorem rollback_refused_after_reopen : ∃ b, Reached heightEncoding machine config .earliest .plain b ∧
    BelowLatest heightEncoding .earliest 0 b.storage ∧ Executed heightEncoding .earliest 0 b.storage ∧
    rollbackToBlockHeight heightEncoding machine config (Sqlite.backend heightEncoding .earliest) tick 0 b =
      (.error (.storage .rollbackHeight),b) := by
  obtain ⟨first,after,started,committed,url,_,cs,grounded⟩ := LinkedChain.sample_committed .directory
  have same := Sqlite.reopen_database grounded.main (by rw [url]; decide)
  have recorded : Sqlite.Recorded heightEncoding 0 none cs 1 (Sqlite.reopen after.storage).database := by
    rw [same]
    exact grounded.recorded
  obtain ⟨last,_,_,found⟩ := Sqlite.recorded_latestBlock .earliest recorded (Nat.zero_le 1)
  obtain ⟨c,here,height⟩ := Sqlite.recorded_at recorded (Nat.le_refl 0) (Nat.zero_le 1)
  have restarted : restart heightEncoding machine config (Sqlite.backend heightEncoding .earliest)
      (fun s => .ok (Sqlite.reopen s)) tick false after =
      ⟨Sqlite.reopen after.storage,newPendingBlock heightEncoding tick last.block,zeroID,false⟩ := by
    unfold restart
    dsimp only
    rw [new_existing tick false found]
  refine ⟨⟨Sqlite.reopen after.storage,newPendingBlock heightEncoding tick last.block,zeroID,false⟩,
    ⟨.directory,Remote.noCaches,_,tick,false,first,[.request (.commitBlock tick),.restart tick false],rfl,started,
      ⟨trivial,trivial,trivial⟩,?_⟩,?_,?_,?_⟩
  · rw [← restarted,← committed]
    rfl
  · exact ⟨1,Sqlite.recorded_latestBlockHeight .earliest recorded,by decide⟩
  · refine ⟨c.block,?_⟩
    rw [← height]
    exact Sqlite.recorded_blockByHeight .earliest recorded here
  · exact rollback_error tick rfl (Sqlite.rollback_refused (Nat.le_refl 0))

end
end RollbackGuard
end FlowEmulator
