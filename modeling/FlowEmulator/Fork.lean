import FlowEmulator.Remote
import FlowEmulator.Samples
import FlowEmulator.Shape

/-!
Runs of an emulator that continues a remote chain: commits, rollbacks, reads of
registers and restarts in any order. The overlay holds what the surviving local
blocks wrote, and what they wrote is read before anything else. The cache holds
a register at the height it was first fetched for, and gives that value out at
every height.
-/
namespace FlowEmulator.Remote
open FlowEmulator.Text FlowEmulator.Keys FlowEmulator.Fallible FlowEmulator.VersionedTable FlowEmulator.DefaultStore
open FlowEmulator.Sqlite (Choices Cells Tip)
open FlowEmulator.Run

/-! ### The cells of the fork height and of the latest height -/

/-- The cells of the fork height and of the latest height, where they are set. -/
def Global (E : Encoding) (s : Sqlite.Store) (forked latest : Option Nat) : Prop :=
  ∃ cells, Cells (s.database .global) cells ∧ cells forkedBlock = forked.map E.uint64.encode ∧
    cells Keys.latestBlock = latest.map E.uint64.encode

section
variable {E : Encoding} {s after : Sqlite.Store} {forked latest : Option Nat}

theorem global_tip (global : Global E s forked latest) : Tip E s latest := by
  obtain ⟨cells,holds,_,cell⟩ := global
  exact ⟨cells,holds,cell⟩

theorem global_of_table (global : Global E s forked latest) (same : after.database .global = s.database .global) :
    Global E after forked latest := by
  unfold Global
  rw [same]
  exact global

theorem global_fresh (E : Encoding) (url : Sqlite.Url) : Global E (Sqlite.fresh url) none none :=
  ⟨fun _ => none,by rw [Sqlite.fresh_database]; exact Sqlite.cells_empty,rfl,rfl⟩

theorem global_upsert (global : Global E s forked latest) {height : Nat}
    (table : after.database .global = (s.database .global).upsert (Sqlite.tipRow E height)) :
    Global E after forked (some height) := by
  obtain ⟨cells,holds,fork,_⟩ := global
  refine ⟨_,?_,?_,Function.update_self Keys.latestBlock (some (E.uint64.encode height)) cells⟩
  · rw [table]
    exact Sqlite.cells_upsert holds Keys.latestBlock (E.uint64.encode height)
  · rw [Function.update_of_ne (by decide),fork]

theorem global_forked (global : Global E s forked latest) (choices : Choices) :
    forkedBlockHeight E (Sqlite.dataStore choices) s = found forked := by
  obtain ⟨cells,holds,cell,_⟩ := global
  exact Sqlite.cells_read holds cell choices

end

/-! ### Starting -/

theorem asked_ok {α : Type} {answer : Except NodeError α} {a : α} : asked answer = .ok a ↔ answer = .ok a := by
  cases answer <;> simp [asked]

/-- The fork height is set in a store, and no table but that of the globals was changed for it. -/
structure Prepared (E : Encoding) (forkHeight : Nat) (s after : Sqlite.Store) : Prop where
  url : after.url = s.url
  db : after.db = s.db
  tables : ∀ name, name ≠ .global → after.database name = s.database name
  global : ∃ latest, Global E after (some forkHeight) (some latest)

/-- The store with a fork height, which is also the latest height. -/
def forkedAt (E : Encoding) (forkHeight : Nat) (s : Sqlite.Store) : Sqlite.Store :=
  Sqlite.setCell Keys.latestBlock (E.uint64.encode forkHeight)
    ((Sqlite.setCell forkedBlock (E.uint64.encode forkHeight) s).setCurrentHeight forkHeight)

section
variable {E : Encoding} {choices : Choices} {node : Node}

theorem forkedAt_global {s : Sqlite.Store} {forked latest : Option Nat} (global : Global E s forked latest)
    (forkHeight : Nat) : Global E (forkedAt E forkHeight s) (some forkHeight) (some forkHeight) := by
  obtain ⟨cells,holds,_,_⟩ := global
  refine ⟨_,?_,?_,Function.update_self Keys.latestBlock (some (E.uint64.encode forkHeight))
    (Function.update cells forkedBlock (some (E.uint64.encode forkHeight)))⟩
  · unfold forkedAt
    rw [Sqlite.setCell_global,Sqlite.Store.setCurrentHeight_database,Sqlite.setCell_global]
    exact Sqlite.cells_upsert (Sqlite.cells_upsert holds _ _) _ _
  · rw [Function.update_of_ne (by decide),Function.update_self]
    rfl

theorem forkedAt_table (forkHeight : Nat) (s : Sqlite.Store) {name : StoreName} (proper : name ≠ .global) :
    (forkedAt E forkHeight s).database name = s.database name := by
  unfold forkedAt
  rw [Sqlite.setCell_other _ _ _ proper,Sqlite.Store.setCurrentHeight_database,Sqlite.setCell_other _ _ _ proper]

theorem forkedAt_others (forkHeight : Nat) (s : Sqlite.Store) {name : Sqlite.DatabaseName} (other : name ≠ s.db) :
    (forkedAt E forkHeight s).databases name = s.databases name :=
  (Function.update_of_ne other ..).trans (Function.update_of_ne other ..)

theorem initializeForkHeight_ok {given forkHeight : Nat} {id : Identifier} {s after : Sqlite.Store}
    (run : initializeForkHeight E choices node given s = (.ok (forkHeight,id),after)) :
    (after = forkedAt E forkHeight s ∧ initialForkHeight node given = .ok forkHeight) ∧
      ∃ header, asked (node.getBlockHeaderByHeight forkHeight) = .ok header ∧ header.id = id := by
  unfold initializeForkHeight at run
  obtain ⟨height,first,choose,afterChoice⟩ := bind_eq_ok.mp run
  obtain ⟨chosen,rfl⟩ := attempt_eq_ok.mp choose
  obtain ⟨header,second,fetch,afterFetch⟩ := bind_eq_ok.mp afterChoice
  obtain ⟨fetched,rfl⟩ := attempt_eq_ok.mp fetch
  clear run afterChoice choose fetch
  obtain ⟨rfl,rfl,rfl⟩ : height = forkHeight ∧ header.id = id ∧ forkedAt E height second = after := by
    cases afterFetch
    exact ⟨rfl,rfl,rfl⟩
  exact ⟨⟨rfl,chosen⟩,header,fetched,rfl⟩

/-- A start uses the fork height an earlier run stored, or sets the initial one. -/
theorem initializeStartBlock_ok {given forkHeight : Nat} {id : Identifier} {s after : Sqlite.Store}
    {forked latest : Option Nat} (global : Global E s forked latest)
    (run : initializeStartBlock E choices node given s = (.ok (forkHeight,id),after)) :
    ((after = s ∧ forked = some forkHeight) ∨
      (after = forkedAt E forkHeight s ∧ initialForkHeight node given = .ok forkHeight)) ∧
      ∃ header, asked (node.getBlockHeaderByHeight forkHeight) = .ok header ∧ header.id = id := by
  unfold initializeStartBlock at run
  rw [bind_ok (view_run _ s),global_forked global choices] at run
  cases forked with
  | none => exact (initializeForkHeight_ok run).imp_left .inr
  | some stored =>
    change (if 0 < stored then _ else _ : StoreM Sqlite.Store (Nat × Identifier)) s = _ at run
    split at run
    · obtain ⟨header,first,fetch,afterFetch⟩ := bind_eq_ok.mp run
      obtain ⟨fetched,rfl⟩ := attempt_eq_ok.mp fetch
      clear run fetch
      cases afterFetch
      exact ⟨.inl ⟨rfl,rfl⟩,header,fetched,rfl⟩
    · exact (initializeForkHeight_ok run).imp_left .inr

/-- What a start that succeeds has read from the node, and how it leaves the overlay and the cache. -/
structure Opened (E : Encoding) (node : Node) (options : Options) (caches : Caches) (provider : Sqlite.Store)
    (forked : Option Nat) (s : Store) : Prop where
  start : (s.overlay = provider ∧ forked = some s.forkHeight) ∨
    (s.overlay = forkedAt E s.forkHeight provider ∧ initialForkHeight node options.forkHeight = .ok s.forkHeight)
  header : ∃ header, asked (node.getBlockHeaderByHeight s.forkHeight) = .ok header ∧ header.id = s.forkBlockID
  chainID : node.getNetworkParameters = .ok s.chainID
  cache : s.cacheStore = some (initializeCacheStore options caches (cachePath s.chainID s.forkBlockID))

section
variable {options : Options} {caches : Caches} {provider : Sqlite.Store} {s : Store} {forked latest : Option Nat}

theorem new_ok (global : Global E provider forked latest) (run : new E choices node options caches provider = .ok s) :
    Opened E node options caches provider forked s := by
  unfold new at run
  split at run
  · cases run
  next chainID answered =>
  split at run
  · cases run
  split at run
  · cases run
  next forkHeight forkBlockID overlay started =>
  cases run
  obtain ⟨start,header⟩ := initializeStartBlock_ok global started
  exact ⟨start,header,answered,rfl⟩

theorem opened_height (opened : Opened E node options caches provider forked s) :
    forked = some s.forkHeight ∨ initialForkHeight node options.forkHeight = .ok s.forkHeight :=
  opened.start.imp And.right And.right

theorem opened_prepared (opened : Opened E node options caches provider forked s)
    (global : Global E provider forked latest) (both : forked.isSome → latest.isSome) :
    Prepared E s.forkHeight provider s.overlay := by
  rcases opened.start with ⟨same,rfl⟩ | ⟨marked,_⟩
  · obtain ⟨height,rfl⟩ := Option.isSome_iff_exists.mp (both rfl)
    rw [same]
    exact ⟨rfl,rfl,fun _ _ => rfl,height,global⟩
  · rw [marked]
    exact ⟨rfl,rfl,fun name proper => forkedAt_table _ provider proper,_,forkedAt_global global _⟩

end
end

/-! ### Runs -/

/-- An emulator that continues a remote chain: its store, the directories of
    caches as they were when it started, the local blocks that survive, and the
    heights at which registers of the cache were first fetched. -/
structure Session where
  store : Store
  caches : Caches
  blocks : List BlockContents
  fetched : RegisterID → Option Nat

/-- Some of the blocks up to a height wrote the register. -/
def Written (blocks : List BlockContents) (height : Nat) (id : RegisterID) : Prop :=
  ∃ c ∈ blocks, c.block.height ≤ height ∧ (c.executionSnapshot.lookup id).isSome

instance (blocks : List BlockContents) (height : Nat) (id : RegisterID) : Decidable (Written blocks height id) :=
  List.decidableBEx ..

/-- What is done to the emulator. A restart opens the same overlay again, or
    begins a new one at a place; the directory of the cache may have been pruned. -/
inductive Action where
  | commit (c : BlockContents)
  | rollback (height : Nat)
  | read (height : Nat) (id : RegisterID)
  | restart (place : Option Sqlite.Url) (pruned : Bool)

section
variable (E : Encoding) (choices cacheChoices : Choices) (static : Identifier → Bool) (node : Node) (options : Options)

def commit (c : BlockContents) (x : Session) : Session :=
  match onOverlay ((Sqlite.store E choices).saveBlock E static c) x.store with
  | (.ok _,s) => { x with store := s, blocks := x.blocks ++ [c] }
  | (.error _,s) => { x with store := s }

def rollback (height : Nat) (x : Session) : Session :=
  match rollbackToBlockHeight E choices height x.store with
  | (.ok _,s) => { x with store := s, blocks := x.blocks.filter fun c => c.block.height ≤ height }
  | (.error _,s) => { x with store := s }

def read (height : Nat) (id : RegisterID) (x : Session) : Session :=
  match ledgerByHeight E choices node cacheChoices height id x.store with
  | (.ok _,s) => { x with
      store := s
      fetched := if Written x.blocks height id then x.fetched
        else Function.update x.fetched id (some ((x.fetched id).getD height)) }
  | (.error _,s) => { x with store := s }

/-- The directories of caches when the emulator has stopped and the others were pruned. -/
def cachesLeft (pruned : Bool) (x : Session) : Caches :=
  if options.forkCacheDir && !pruned then
    Function.update x.caches (cachePath x.store.chainID x.store.forkBlockID)
      (x.store.cacheStore.elim (fun _ => none) Sqlite.Store.databases)
  else noCaches

/-- Stop and start again. A start that fails leaves the session for another attempt. -/
def restart (place : Option Sqlite.Url) (pruned : Bool) (x : Session) : Session :=
  let provider := place.elim (Sqlite.reopen x.store.overlay) Sqlite.fresh
  match new E choices node options (cachesLeft options pruned x) provider with
  | .error _ => x
  | .ok s => {
      store := s
      caches := cachesLeft options pruned x
      blocks := if place.isSome || x.store.overlay.url = .inMemory then [] else x.blocks
      fetched := if options.forkCacheDir && !pruned then x.fetched else fun _ => none }

def act : Action → Session → Session
  | .commit c => commit E choices static c
  | .rollback height => rollback E choices height
  | .read height id => read E choices cacheChoices node height id
  | .restart place pruned => restart E choices node options place pruned

/-- The session after the first start. -/
def begun (s : Store) : Session := ⟨s,noCaches,[],fun _ => none⟩

/-- The sessions that are reached from a first start on an empty overlay when all actions meet a condition. -/
def Reached (condition : Session → Action → Prop) (x : Session) : Prop :=
  ∃ url s actions, new E choices node options noCaches (Sqlite.fresh url) = .ok s ∧
    Throughout (act E choices cacheChoices static node options) condition actions (begun s) ∧
    play (act E choices cacheChoices static node options) actions (begun s) = x

end

/-! ### What the steps do -/

section
variable {E : Encoding} {choices cacheChoices : Choices} {static : Identifier → Bool} {node : Node} {options : Options}

variable (choices static) in
theorem commit_counted {x : Session} {latest : Option Nat} (tip : Tip E x.store.overlay latest) {c : BlockContents}
    (counted : c.Counted) : ∃ after,
      Sqlite.Wrote c.block.height (saveWrites E static (latest.getD 0) c) x.store.overlay after ∧
      commit E choices static c x =
        { x with store := { x.store with overlay := after }, blocks := x.blocks ++ [c] } := by
  obtain ⟨after,done,wrote⟩ := (Sqlite.commits_saveBlock E choices static).wrote c x.store.overlay latest counted tip
  unfold commit onOverlay inside
  rw [done]
  exact ⟨after,wrote,rfl⟩

variable (choices static) in
/-- A commit saves its block in the overlay, or changes nothing. -/
theorem commit_cases {x : Session} {latest : Option Nat} (tip : Tip E x.store.overlay latest) (c : BlockContents) :
    commit E choices static c x = x ∨ ∃ after,
      Sqlite.Wrote c.block.height (saveWrites E static (latest.getD 0) c) x.store.overlay after ∧
      commit E choices static c x =
        { x with store := { x.store with overlay := after }, blocks := x.blocks ++ [c] } := by
  by_cases counted : c.Counted
  · exact .inr (commit_counted choices static tip counted)
  · obtain ⟨e,refused⟩ := (Sqlite.commits_saveBlock E choices static).refused c x.store.overlay counted
    unfold commit onOverlay inside
    rw [refused]
    exact .inl rfl

variable (E choices) in
theorem rollback_cases (x : Session) (height : Nat) :
    rollback E choices height x = x ∨ ∃ after, Sqlite.RolledBack E height x.store.overlay after ∧
      rollback E choices height x = { x with
        store := { x.store with overlay := after }
        blocks := x.blocks.filter fun c => c.block.height ≤ height } := by
  unfold rollback rollbackToBlockHeight onOverlay inside
  by_cases above : height < x.store.overlay.currentHeight
  · obtain ⟨after,done,rolled⟩ := Sqlite.rollback_run E choices above
    rw [done]
    exact .inr ⟨after,rolled,rfl⟩
  · rw [Sqlite.rollback_refused (Nat.le_of_not_lt above)]
    exact .inl rfl

theorem lookupHeight_min (s : Store) (height : Nat) :
    (if s.forkHeight < height then s.forkHeight else height) = min height s.forkHeight := by
  split <;> omega

/-- The first answer of the node for a register stays in the cache. -/
theorem fetchRegister_run {s : Store} {height : Nat} {id : RegisterID}
    (answered : node.getRegisterValues (min height s.forkHeight) id ≠ .error .unavailable) :
    fetchRegister E node height id s = (.ok (node.value id (min height s.forkHeight)),
      (cacheRegister E id (node.value id (min height s.forkHeight)) s).2) := by
  unfold fetchRegister
  rw [bind_ok (view_run Store.forkHeight s)]
  dsimp only
  unfold Node.value
  rw [lookupHeight_min]
  rcases reply : node.getRegisterValues (min height s.forkHeight) id with e | values
  · cases e with
    | notFound => rfl
    | unavailable => exact absurd reply answered
  · rfl

theorem fetchRegister_failed {s : Store} {height : Nat} {id : RegisterID}
    (failed : node.getRegisterValues (min height s.forkHeight) id = .error .unavailable) :
    fetchRegister E node height id s = (.error (.remote .unavailable),s) := by
  unfold fetchRegister
  rw [bind_ok (view_run Store.forkHeight s)]
  dsimp only
  rw [lookupHeight_min,failed]
  rfl

theorem ledgerByHeight_written {s : Store} {height : Nat} {id : RegisterID} {value : RegisterValue} (taken : height < 2^63)
    (written : Sqlite.selectAtVersion choices .ledger (E.registerText id) height s.overlay = .ok value) :
    ledgerByHeight E choices node cacheChoices height id s = (.ok value,s) := by
  unfold ledgerByHeight Sqlite.getBytesAtVersion
  rw [bind_ok (view_run _ s),if_pos taken,written]
  rfl

theorem ledgerByHeight_unwritten {s : Store} {height : Nat} {id : RegisterID} (taken : height < 2^63)
    (unwritten : Sqlite.selectAtVersion choices .ledger (E.registerText id) height s.overlay = .error .notFound) :
    ledgerByHeight E choices node cacheChoices height id s = forkedRegister E node cacheChoices height id s := by
  unfold ledgerByHeight Sqlite.getBytesAtVersion
  rw [bind_ok (view_run _ s),if_pos taken,unwritten]

theorem ledgerByHeight_refused {height : Nat} (refused : ¬ height < 2^63) (id : RegisterID) (s : Store) :
    ledgerByHeight E choices node cacheChoices height id s = (.error .highBitSet,s) := by
  unfold ledgerByHeight Sqlite.getBytesAtVersion
  rw [bind_ok (view_run _ s),if_neg refused]
  rfl

theorem forkedRegister_cached {s : Store} {cache : Sqlite.Store} (cached : s.cacheStore = some cache) {height : Nat}
    {id : RegisterID} {value : RegisterValue}
    (held : Sqlite.getBytes cacheChoices .ledger (E.registerText id) cache = .ok value) :
    forkedRegister E node cacheChoices height id s = (.ok value,s) := by
  unfold forkedRegister
  rw [bind_ok (view_run _ s),cached]
  dsimp only
  rw [held]
  rfl

theorem forkedRegister_missing {s : Store} {cache : Sqlite.Store} (cached : s.cacheStore = some cache) {height : Nat}
    {id : RegisterID} (missing : Sqlite.getBytes cacheChoices .ledger (E.registerText id) cache = .error .notFound) :
    forkedRegister E node cacheChoices height id s = fetchRegister E node height id s := by
  unfold forkedRegister
  rw [bind_ok (view_run _ s),cached]
  dsimp only
  rw [missing]

/-- Two stores differ in the cache at most. -/
structure SameBeside (s t : Store) : Prop where
  overlay : t.overlay = s.overlay
  chainID : t.chainID = s.chainID
  forkHeight : t.forkHeight = s.forkHeight
  forkBlockID : t.forkBlockID = s.forkBlockID

theorem keeps_fetchRegister (s : Store) (height : Nat) (id : RegisterID) :
    Keeps (SameBeside s) (fetchRegister E node height id) := by
  have cacheKeeps (value : RegisterValue) : Keeps (SameBeside s) (cacheRegister E id value) := by
    refine keeps_update (fun t same => ?_)
    split
    · exact same
    · exact ⟨same.overlay,same.chainID,same.forkHeight,same.forkBlockID⟩
  refine keeps_bind (keeps_view _ _) (fun forkHeight => ?_)
  dsimp only
  split
  · exact keeps_fail _ _
  · exact keeps_bind (cacheKeeps _) (fun _ => keeps_pure _ _)

variable (E choices cacheChoices node) in
/-- A read of a register changes the cache at most. -/
theorem keeps_ledgerByHeight (s : Store) (height : Nat) (id : RegisterID) :
    Keeps (SameBeside s) (ledgerByHeight E choices node cacheChoices height id) := by
  refine keeps_bind (keeps_view _ _) (fun written => ?_)
  split
  · exact keeps_pure _ _
  · refine keeps_bind (keeps_view _ _) (fun cacheStore => ?_)
    split
    · exact keeps_fetchRegister s height id
    · split
      · exact keeps_pure _ _
      · exact keeps_fetchRegister s height id
      · exact keeps_fail _ _
  · exact keeps_fail _ _

variable (E choices cacheChoices node) in
theorem read_beside (x : Session) (height : Nat) (id : RegisterID) :
    SameBeside x.store (read E choices cacheChoices node height id x).store ∧
      (read E choices cacheChoices node height id x).blocks = x.blocks := by
  have same := keeps_ledgerByHeight E choices cacheChoices node x.store height id x.store ⟨rfl,rfl,rfl,rfl⟩
  unfold read
  split
  · next run => rw [run] at same; exact ⟨same,rfl⟩
  · next run => rw [run] at same; exact ⟨same,rfl⟩

/-! ### What the overlay holds -/

/-- The overlay holds what the surviving blocks wrote. -/
structure Overlaid (E : Encoding) (x : Session) : Prop where
  main : x.store.overlay.db = .main
  global : ∃ latest, Global E x.store.overlay (some x.store.forkHeight) (some latest)
  ledger : Sqlite.Held (ledgerWrites E) x.blocks (x.store.overlay.database .ledger)

theorem overlaid_begun {s : Store} {url : Sqlite.Url} (started : new E choices node options noCaches (Sqlite.fresh url) = .ok s) :
    Overlaid E (begun s) := by
  have global := global_fresh E url
  have prepared := opened_prepared (new_ok global started) global id
  refine ⟨prepared.db,prepared.global,?_⟩
  show Sqlite.Held _ [] (s.overlay.database .ledger)
  rw [prepared.tables .ledger (by decide),Sqlite.fresh_database]
  exact Sqlite.held_empty _

theorem overlaid_commit {x : Session} (overlaid : Overlaid E x) (c : BlockContents) :
    Overlaid E (commit E choices static c x) := by
  obtain ⟨latest,global⟩ := overlaid.global
  rcases commit_cases choices static (global_tip global) c with same | ⟨after,wrote,done⟩
  · rw [same]; exact overlaid
  · rw [done]
    have table := Sqlite.wrote_global (writesTo_saveWrites E static latest c .global) wrote
    have fixed (latest : Nat) (c : BlockContents) : writesTo .ledger (saveWrites E static latest c) = ledgerWrites E c :=
      writesTo_saveWrites E static latest c .ledger
    have ledger := Sqlite.held_wrote fixed overlaid.ledger wrote
    refine ⟨wrote.db.trans overlaid.main,?_,ledger⟩
    split at table
    · exact ⟨_,global_upsert global table⟩
    · exact ⟨_,global_of_table global table⟩

theorem store_of_ledgerWrites {c : BlockContents} {w : Write} (written : w ∈ ledgerWrites E c) : w.store ≠ .global := by
  obtain ⟨entry,_,rfl⟩ := List.mem_map.mp written
  exact fun same => by cases same

theorem overlaid_rollback {x : Session} (overlaid : Overlaid E x) (height : Nat) :
    Overlaid E (rollback E choices height x) := by
  obtain ⟨latest,global⟩ := overlaid.global
  rcases rollback_cases E choices x height with same | ⟨after,rolled,done⟩
  · rw [same]; exact overlaid
  · rw [done]
    refine ⟨rolled.db.trans overlaid.main,⟨height,global_upsert global (rolled.table .global)⟩,?_⟩
    show Sqlite.Held _ _ (after.database .ledger)
    rw [rolled.table]
    exact Sqlite.held_deleteAbove overlaid.ledger (fun _ _ _ => store_of_ledgerWrites) height

theorem overlaid_read {x : Session} (overlaid : Overlaid E x) (height : Nat) (id : RegisterID) :
    Overlaid E (read E choices cacheChoices node height id x) := by
  obtain ⟨same,blocks⟩ := read_beside E choices cacheChoices node x height id
  refine ⟨?_,?_,?_⟩
  · rw [same.overlay]; exact overlaid.main
  · rw [same.overlay,same.forkHeight]; exact overlaid.global
  · rw [same.overlay,blocks]; exact overlaid.ledger

/-- A restart finds the fork height and the latest height that are on disk. -/
theorem reopened_global {x : Session} (overlaid : Overlaid E x) (lasting : x.store.overlay.url ≠ .inMemory) :
    ∃ latest, Global E (Sqlite.reopen x.store.overlay) (some x.store.forkHeight) (some latest) := by
  obtain ⟨latest,global⟩ := overlaid.global
  exact ⟨latest,global_of_table global (by rw [Sqlite.reopen_database overlaid.main lasting])⟩

/-- The overlay that a restart opens, and the cells it has. -/
theorem provider_global {x : Session} (overlaid : Overlaid E x) (place : Option Sqlite.Url) :
    ∃ forked latest, Global E (place.elim (Sqlite.reopen x.store.overlay) Sqlite.fresh) forked latest ∧
      (forked.isSome → latest.isSome) ∧ (forked = none ∨ forked = some x.store.forkHeight) ∧
      Sqlite.Held (ledgerWrites E) (if place.isSome || x.store.overlay.url = .inMemory then [] else x.blocks)
        ((place.elim (Sqlite.reopen x.store.overlay) Sqlite.fresh).database .ledger) := by
  have empty (url : Sqlite.Url) : Sqlite.Held (ledgerWrites E) [] ((Sqlite.fresh url).database .ledger) := by
    rw [Sqlite.fresh_database]
    exact Sqlite.held_empty _
  cases place with
  | some url => exact ⟨none,none,global_fresh E url,id,.inl rfl,empty url⟩
  | none =>
    by_cases memory : x.store.overlay.url = .inMemory
    · simp only [Option.elim_none,Option.isSome_none,memory,decide_true,Bool.or_true,if_true]
      rw [Sqlite.reopen_memory memory]
      exact ⟨none,none,global_fresh E _,id,.inl rfl,empty _⟩
    · obtain ⟨latest,global⟩ := reopened_global overlaid memory
      simp only [Option.elim_none,Option.isSome_none,memory,decide_false,Bool.or_false,Bool.false_eq_true,if_false]
      refine ⟨some _,some latest,global,fun _ => rfl,.inr rfl,?_⟩
      rw [Sqlite.reopen_database overlaid.main memory]
      exact overlaid.ledger

theorem overlaid_restart {x : Session} (overlaid : Overlaid E x) (place : Option Sqlite.Url) (pruned : Bool) :
    Overlaid E (restart E choices node options place pruned x) := by
  obtain ⟨forked,latest,global,both,_,held⟩ := provider_global overlaid place
  unfold restart
  dsimp only
  split
  · exact overlaid
  next s started =>
  have prepared := opened_prepared (new_ok global started) global both
  refine ⟨?_,prepared.global,?_⟩
  · show s.overlay.db = .main
    rw [prepared.db]
    cases place <;> rfl
  · show Sqlite.Held _ _ (s.overlay.database .ledger)
    rw [prepared.tables .ledger (by decide)]
    exact held

theorem overlaid_act (x : Session) (action : Action) (overlaid : Overlaid E x) :
    Overlaid E (act E choices cacheChoices static node options action x) := by
  cases action with
  | commit c => exact overlaid_commit overlaid c
  | rollback height => exact overlaid_rollback overlaid height
  | read height id => exact overlaid_read overlaid height id
  | restart place pruned => exact overlaid_restart overlaid place pruned

/-! ### The overlay comes first -/

/-- A block is committed above the local blocks that survive. -/
def Above (x : Session) : Action → Prop
  | .commit c => ∀ d ∈ x.blocks, d.block.height < c.block.height
  | _ => True

def Ascending (x : Session) : Prop := x.blocks.Pairwise fun c d => c.block.height < d.block.height

theorem ascending_act (x : Session) (action : Action) (overlaid : Overlaid E x) (ascending : Ascending x)
    (above : Above x action) : Ascending (act E choices cacheChoices static node options action x) := by
  cases action with
  | commit c =>
    obtain ⟨latest,global⟩ := overlaid.global
    show Ascending (commit E choices static c x)
    rcases commit_cases choices static (global_tip global) c with same | ⟨after,_,done⟩
    · rw [same]; exact ascending
    · rw [done]
      exact List.pairwise_append.mpr ⟨ascending,List.pairwise_singleton ..,fun d there e last =>
        by rw [List.mem_singleton.mp last]; exact above d there⟩
  | rollback height =>
    show Ascending (rollback E choices height x)
    rcases rollback_cases E choices x height with same | ⟨after,_,done⟩
    · rw [same]; exact ascending
    · rw [done]
      exact List.Pairwise.filter _ ascending
  | read height id =>
    show List.Pairwise _ (read E choices cacheChoices node height id x).blocks
    rw [(read_beside E choices cacheChoices node x height id).2]
    exact ascending
  | restart place pruned =>
    show Ascending (restart E choices node options place pruned x)
    unfold restart
    dsimp only
    split
    · exact ascending
    · show List.Pairwise _ (ite _ _ _)
      split
      · exact List.Pairwise.nil
      · exact ascending

/-- The overlay holds what the surviving blocks wrote, and these are in order. -/
structure Stacked (E : Encoding) (x : Session) : Prop extends Overlaid E x where
  ascending : Ascending x

theorem ascending_inj {x : Session} (ascending : Ascending x) :
    ∀ c ∈ x.blocks, ∀ d ∈ x.blocks, c.block.height = d.block.height → c = d :=
  fun _ here _ there same => ascending_height_inj ascending here there same

/-- What the highest of the surviving blocks up to a height wrote is in the overlay. -/
theorem overlay_written {x : Session} (overlaid : Overlaid E x) (ascending : Ascending x) {c : BlockContents}
    (here : c ∈ x.blocks) {height : Nat} (low : c.block.height ≤ height) {id : RegisterID} {value : RegisterValue}
    (wrote : c.executionSnapshot.lookup id = some value)
    (highest : ∀ d ∈ x.blocks, d.block.height ≤ height → (d.executionSnapshot.lookup id).isSome →
      d.block.height ≤ c.block.height) :
    Sqlite.selectAtVersion choices .ledger (E.registerText id) height x.store.overlay = .ok value := by
  have written : Write.versioned .ledger (E.registerText id) value c.block.height ∈ ledgerWrites E c :=
    List.mem_map_of_mem (f := fun entry : Sigma fun _ : RegisterID => RegisterValue =>
      Write.versioned .ledger (E.registerText entry.1) entry.2 c.block.height) (AList.mem_lookup_iff.mp wrote)
  refine Sqlite.held_written overlaid.ledger (agreeing_ledger (ascending_inj ascending)) here written low ?_
  intro d there v vWritten same vLow
  obtain ⟨entry,member,rfl⟩ := List.mem_map.mp vWritten
  obtain rfl : entry.1 = id := E.registerText_injective same
  exact highest d there vLow (Option.isSome_iff_exists.mpr ⟨entry.2,AList.mem_lookup_iff.mpr member⟩)

theorem overlay_unwritten {x : Session} (overlaid : Overlaid E x) {height : Nat} {id : RegisterID}
    (unwritten : ¬ Written x.blocks height id) :
    Sqlite.selectAtVersion choices .ledger (E.registerText id) height x.store.overlay = .error .notFound := by
  refine Sqlite.held_unwritten overlaid.ledger (fun c here w written same => ?_)
  obtain ⟨entry,member,rfl⟩ := List.mem_map.mp written
  obtain rfl : entry.1 = id := E.registerText_injective same
  by_contra low
  exact unwritten ⟨c,here,Nat.le_of_not_lt low,Option.isSome_iff_exists.mpr ⟨entry.2,AList.mem_lookup_iff.mpr member⟩⟩

/-- What the highest surviving block up to a height wrote to a register is read
    there, whatever the cache holds and whatever a node answers, exactly if the
    height is one that the driver takes. -/
theorem overlay_precedes {x : Session} (reached : Reached E choices cacheChoices static node options Above x)
    {c : BlockContents} (here : c ∈ x.blocks) {height : Nat} (low : c.block.height ≤ height) {id : RegisterID}
    {value : RegisterValue} (wrote : c.executionSnapshot.lookup id = some value)
    (highest : ∀ d ∈ x.blocks, d.block.height ≤ height → (d.executionSnapshot.lookup id).isSome →
      d.block.height ≤ c.block.height) :
    (∀ other cacheStore, ledgerByHeight E choices other cacheChoices height id { x.store with cacheStore := cacheStore } =
      (.ok value,{ x.store with cacheStore := cacheStore })) ↔ height < 2^63 := by
  obtain ⟨url,s,actions,started,above,rfl⟩ := reached
  have stacked : Stacked E (play (act E choices cacheChoices static node options) actions (begun s)) :=
    play_keeps (fun x action before condition => ⟨overlaid_act x action before.toOverlaid,
      ascending_act x action before.toOverlaid before.ascending condition⟩)
      ⟨overlaid_begun started,List.Pairwise.nil⟩ above
  constructor
  · intro every
    by_contra refused
    have read := every node none
    rw [ledgerByHeight_refused refused] at read
    cases read
  · intro taken other cacheStore
    exact ledgerByHeight_written taken (overlay_written stacked.toOverlaid stacked.ascending here low wrote highest)

/-- A node that has blocks of all heights, and registers that hold the height. -/
def sampleNode : Node where
  getNetworkParameters := .ok .emulator
  getLatestBlockHeader := .ok ⟨Samples.digest 100,.emulator,100,100,zeroID,1,[]⟩
  getBlockHeaderByHeight height := .ok ⟨Samples.digest height,.emulator,height,height,zeroID,1,[]⟩
  getBlockHeaderByID _ := .error .notFound
  getRegisterValues height _ := .ok [[height.toUInt8]]

def sampleOptions : Options := ⟨none,5,false⟩

/-- A block that deletes a register. -/
def sampleDeletion : BlockContents := { Samples.emptyContents 6 with executionSnapshot := AList.singleton ⟨[],[]⟩ [] }

def sampleActions : List Action := [.read 6 ⟨[],[]⟩,.commit sampleDeletion]

theorem sample_started : ∃ s,
    new Samples.encoding .earliest sampleNode sampleOptions noCaches (Sqlite.fresh .inMemory) = .ok s := ⟨_,rfl⟩

/-- A register is read and then deleted. -/
theorem sample_reached : ∃ x,
    Reached Samples.encoding .earliest .earliest (fun _ => false) sampleNode sampleOptions Above x ∧
      x.blocks = [sampleDeletion] := by
  obtain ⟨s,started⟩ := sample_started
  have unchanged := (read_beside Samples.encoding .earliest .earliest sampleNode (begun s) 6 ⟨[],[]⟩).2
  have overlaid : Overlaid Samples.encoding (read Samples.encoding .earliest .earliest sampleNode 6 ⟨[],[]⟩ (begun s)) :=
    overlaid_read (overlaid_begun started) 6 ⟨[],[]⟩
  have above : Above (read Samples.encoding .earliest .earliest sampleNode 6 ⟨[],[]⟩ (begun s)) (.commit sampleDeletion) := by
    intro d there
    rw [unchanged] at there
    cases there
  obtain ⟨latest,global⟩ := overlaid.global
  have counted : sampleDeletion.Counted := ⟨rfl,rfl⟩
  obtain ⟨after,_,done⟩ := commit_counted .earliest (fun _ => false) (global_tip global) counted
  refine ⟨_,⟨.inMemory,s,sampleActions,started,⟨trivial,above,trivial⟩,rfl⟩,?_⟩
  simp only [sampleActions,play_cons,play_nil,act,done,unchanged]
  rfl

theorem overlay_precedes_deletion : ∃ x,
    Reached Samples.encoding .earliest .earliest (fun _ => false) sampleNode sampleOptions Above x ∧
      x.blocks = [sampleDeletion] ∧
      ledgerByHeight Samples.encoding .earliest sampleNode .earliest 6 ⟨[],[]⟩ x.store = (.ok [],x.store) := by
  obtain ⟨x,reached,blocks⟩ := sample_reached
  have here : sampleDeletion ∈ x.blocks := by rw [blocks]; exact List.mem_cons_self
  have wrote : sampleDeletion.executionSnapshot.lookup ⟨[],[]⟩ = some [] := by decide
  exact ⟨x,reached,blocks,
    (overlay_precedes reached here (Nat.le_refl 6) wrote (fun _ _ low _ => low)).mpr (by decide) sampleNode x.store.cacheStore⟩

/-- A deleted register cannot be read at a height that the driver does not take. -/
theorem deletion_unread : ∃ x,
    Reached Samples.encoding .earliest .earliest (fun _ => false) sampleNode sampleOptions Above x ∧
      x.blocks = [sampleDeletion] ∧ sampleDeletion.block.height ≤ 2^63 ∧
      sampleDeletion.executionSnapshot.lookup ⟨[],[]⟩ = some [] ∧
      ledgerByHeight Samples.encoding .earliest sampleNode .earliest (2^63) ⟨[],[]⟩ x.store = (.error .highBitSet,x.store) := by
  obtain ⟨x,reached,blocks⟩ := sample_reached
  exact ⟨x,reached,blocks,by decide,by decide,ledgerByHeight_refused (by decide) _ _⟩

end
end FlowEmulator.Remote
