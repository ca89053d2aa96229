import FlowEmulator.ForkCache
import FlowEmulator.RollbackGuard
import FlowEmulator.StoreIndependence

/-!
What an emulator that continues a remote chain is for: the remote chain up to the
fork height, with a list of local blocks on top (`Continued.backend`). There are
no tables in this picture, no overlay and no cache. The store of the code refines
it: whatever rows the tables return and whichever registers were fetched in
between, requests and reads from the fork height on are answered as by the list.
-/
namespace FlowEmulator

/-- Ledgers are asked for from a height on; other reads are not restricted. -/
def Query.From (first : Nat) : Query → Prop
  | .ledgerByHeight height _ => first ≤ height
  | _ => True

namespace Continued
open FlowEmulator.Keys FlowEmulator.Fallible FlowEmulator.VersionedTable FlowEmulator.DefaultStore
open FlowEmulator.Remote (Node HeaderMessage asked)
open FlowEmulator.Sqlite (writesFrom)

/-! ### The list of local blocks -/

/-- The record under a key that was written last. -/
def recorded {K V : Type} [DecidableEq K] (records : BlockContents → List (K × V)) (key : K) (cs : List BlockContents) :
    Option V :=
  assign (fun _ => none) (cs.flatMap records) key

/-- Put a block on top. The counts of its transactions and results have to agree. -/
def commitBlock (c : BlockContents) : StoreM (List BlockContents) Unit :=
  if c.transactions.entries.length ≠ c.transactionResults.entries.length then
    fail (.transactionsCount c.transactions.entries.length c.transactionResults.entries.length)
  else if c.systemTransactions.length ≠ c.systemTransactionResults.entries.length then
    fail (.systemTransactionsCount c.systemTransactions.length c.systemTransactionResults.entries.length)
  else update fun cs => cs ++ [c]

section
variable (E : Encoding) (static : Identifier → Bool) (node : Node) (forkHeight : Nat)

/-- A local block, or up to the latest height one of the remote chain. -/
def blockByHeight (height : Nat) (cs : List BlockContents) : Except StoreError Block :=
  match recorded Memstore.blockRecords height cs with
  | some block => .ok block
  | none =>
    if forkHeight+cs.length < height then .error (.blockNotFoundByHeight height)
    else (asked (node.getBlockHeaderByHeight height)).map HeaderMessage.block

/-- The block at the height that is known for an identifier, locally or at the remote chain. -/
def blockByID (id : Identifier) (cs : List BlockContents) : Except StoreError Block :=
  match recorded (Memstore.blockIndexRecords E) id cs with
  | some height => blockByHeight node forkHeight height cs
  | none => (asked (node.getBlockHeaderByID id)).bind fun header => blockByHeight node forkHeight header.height cs

/-- The register as the remote chain has it at a height. -/
def remoteRegister (height : Nat) (id : RegisterID) : Except StoreError RegisterValue :=
  match node.getRegisterValues height id with
  | .error .unavailable => .error (.remote .unavailable)
  | response => .ok (Remote.firstValue response)

/-- The last local write up to a height, or else what the remote chain has at the
    fork height. Heights with the highest bit set are refused. -/
def ledgerByHeight (height : Nat) (id : RegisterID) (cs : List BlockContents) : Except StoreError RegisterValue :=
  if height < 2^63 then
    match lastWrite (writesFrom (forkHeight+1) cs id) height with
    | some value => .ok value
    | none => remoteRegister node (min height forkHeight) id
  else .error .highBitSet

/-- A remote chain that is continued by a list of blocks. The indexes of
    scheduled transactions are those of the blocks, so they are not kept. -/
def backend : Backend (List BlockContents) where
  latestBlockHeight cs := .ok (forkHeight+cs.length)
  latestBlock cs := blockByHeight node forkHeight (forkHeight+cs.length) cs
  blockByID := blockByID E node forkHeight
  blockByHeight := blockByHeight node forkHeight
  commitBlock := commitBlock
  systemTransactionsForBlockID id cs := found (recorded (Memstore.systemRecords E) id cs)
  indexScheduledTransactionID _ _ := pure ()
  blockIDByScheduledTransactionID id cs := found (recorded (Memstore.scheduledRecords E) id cs)
  indexScheduledTransactionBlockID _ _ := pure ()
  scheduledTransactionBlockIDByTxID id cs := found (recorded (Memstore.scheduledBlockRecords E static) id cs)
  collectionByID id cs := found (recorded (Memstore.collectionRecords E) id cs)
  fullCollectionByID id cs := (found (recorded (Memstore.collectionRecords E) id cs)).bind fun light =>
    light.transactions.mapM fun txID => found (recorded Memstore.transactionRecords txID cs)
  transactionByID id cs := found (recorded Memstore.transactionRecords id cs)
  transactionResultByID id cs := found (recorded Memstore.resultRecords id cs)
  systemTransactionResultByID blockID txID cs :=
    found (recorded (Memstore.systemResultRecords E) (systemTransactionResult blockID txID) cs)
  ledgerByHeight := ledgerByHeight node forkHeight
  eventsByHeight height eventType cs := .ok (eventsOfType eventType ((recorded Memstore.eventRecords height cs).getD []))
  rollbackProvider := none
  supportSnapshots _ := false
  createSnapshot _ := fail .snapshotUnsupported
  loadSnapshot _ := fail .snapshotUnsupported

end

section
variable {E : Encoding} {static : Identifier → Bool} {node : Node} {forkHeight : Nat}

theorem remoteRegister_answered {height : Nat} {id : RegisterID}
    (answered : node.getRegisterValues height id ≠ .error .unavailable) :
    remoteRegister node height id = .ok (node.value id height) := by
  unfold remoteRegister Node.value
  split
  · next failed => exact absurd failed answered
  · rfl

theorem remoteRegister_unavailable {height : Nat} {id : RegisterID}
    (failed : node.getRegisterValues height id = .error .unavailable) :
    remoteRegister node height id = .error (.remote .unavailable) := by
  rw [remoteRegister,failed]

theorem commitBlock_counted {c : BlockContents} (counted : c.Counted) (cs : List BlockContents) :
    commitBlock c cs = (.ok (),cs ++ [c]) := by
  rw [commitBlock,if_neg (not_not.mpr counted.1),if_neg (not_not.mpr counted.2)]
  rfl

/-- A block is saved by putting it on top. -/
theorem saveBlock_run {c : BlockContents} (counted : c.Counted) (cs : List BlockContents) :
    (backend E static node forkHeight).saveBlock E static c cs = (.ok (),cs ++ [c]) := by
  -- the indexes are not kept, so nothing is left to do after the commit
  have numbers : (c.scheduledTransactionIDs.entries.forM fun entry =>
      (backend E static node forkHeight).indexScheduledTransactionID entry.1 (E.blockID c.block)) = pure () :=
    forM_nothing (fun _ => rfl) _
  have blocks : (c.systemTransactionResults.entries.forM fun entry => if static entry.1 then pure ()
      else (backend E static node forkHeight).indexScheduledTransactionBlockID entry.1 (E.blockID c.block)) = pure () :=
    forM_nothing (fun _ => by split <;> rfl) _
  have committed : (backend E static node forkHeight).commitBlock c cs = (.ok (),cs ++ [c]) := commitBlock_counted counted cs
  unfold Store.saveBlock
  rw [bind_ok committed,numbers,blocks]
  rfl

/-- A block is refused as the stores of the code refuse it. -/
theorem saveBlock_uncounted {c : BlockContents} (uncounted : ¬ c.Counted) {τ : Type} {D : DataStore τ} {s : τ} {e : StoreError}
    (refused : (store E D).commitBlock c s = (.error e,s)) (cs : List BlockContents) :
    (backend E static node forkHeight).saveBlock E static c cs = (.error e,cs) := by
  refine bind_error ?_ _
  change DefaultStore.commitBlock E D c s = _ at refused
  show commitBlock c cs = _
  rw [DefaultStore.commitBlock] at refused
  rw [commitBlock]
  by_cases users : c.transactions.entries.length = c.transactionResults.entries.length
  · have system : c.systemTransactions.length ≠ c.systemTransactionResults.entries.length :=
      fun same => uncounted ⟨users,same⟩
    rw [if_neg (not_not.mpr users),if_pos system] at refused ⊢
    cases refused
    rfl
  · rw [if_pos users] at refused ⊢
    cases refused
    rfl

variable (E static node forkHeight) in
/-- Saving a block leaves the blocks below it. -/
theorem saveBlock_grows (c : BlockContents) (cs : List BlockContents) :
    cs <+: ((backend E static node forkHeight).saveBlock E static c cs).2 := by
  by_cases counted : c.Counted
  · rw [saveBlock_run counted]
    exact List.prefix_append cs [c]
  · obtain ⟨e,_,refused⟩ := Blockchain.uncounted_refused E counted
    rw [saveBlock_uncounted counted (refused (Sqlite.dataStore .earliest) (Sqlite.fresh .inMemory))]

end

/-! ### The store over tables -/

/-- The store has the local blocks in its overlay, and in its cache registers as they are at the fork height. -/
structure Continues (E : Encoding) (static : Identifier → Bool) (node : Node) (forkHeight : Nat) (cs : List BlockContents)
    (s : Remote.Store) : Prop where
  fork : s.forkHeight = forkHeight
  chain : Chain (forkHeight+1) cs
  held : ∀ name, name ≠ .global → Sqlite.Held (fun c => savedTo E static 0 c name) cs (s.overlay.database name)
  tip : Sqlite.Tip E s.overlay (some (forkHeight+cs.length))
  cache : ∃ cache fetched, s.cacheStore = some cache ∧ Remote.Cached E node forkHeight fetched cache ∧
    ∀ id first, fetched id = some first → forkHeight ≤ first ∧ node.getRegisterValues forkHeight id ≠ .error .unavailable

section
variable {E : Encoding} {static : Identifier → Bool} {node : Node} {forkHeight : Nat} {cs : List BlockContents}
  {s : Remote.Store} {choices cacheChoices : Sqlite.Choices}

variable (choices cacheChoices) in
/-- A read from the fork height on gives what the list gives, and may leave a register in the cache. -/
theorem continues_read (continues : Continues E static node forkHeight cs s) {height : Nat} (high : forkHeight ≤ height)
    (id : RegisterID) :
    (Remote.ledgerByHeight E choices node cacheChoices height id s).1 = ledgerByHeight node forkHeight height id cs ∧
      Continues E static node forkHeight cs (Remote.ledgerByHeight E choices node cacheChoices height id s).2 := by
  have held : Sqlite.Held (ledgerWrites E) cs (s.overlay.database .ledger) := continues.held .ledger (by decide)
  have written : Sqlite.selectAtVersion choices .ledger (E.registerText id) height s.overlay = _ :=
    Sqlite.held_lastWrite held continues.chain height id
  rw [ledgerByHeight]
  by_cases taken : height < 2^63
  swap
  · rw [Remote.ledgerByHeight_refused taken,if_neg taken]
    exact ⟨rfl,continues⟩
  rw [if_pos taken]
  cases last : lastWrite (writesFrom (forkHeight+1) cs id) height with
  | some value =>
    rw [last] at written
    rw [Remote.ledgerByHeight_written taken written]
    exact ⟨rfl,continues⟩
  | none =>
    rw [last] at written
    rw [Remote.ledgerByHeight_unwritten taken written]
    obtain ⟨cache,fetched,here,cached,tidy⟩ := continues.cache
    have lowest : min height forkHeight = forkHeight := Nat.min_eq_right high
    dsimp only
    rw [lowest]
    cases known : fetched id with
    | some first =>
      obtain ⟨above,answered⟩ := tidy id first known
      have value : Sqlite.getBytes cacheChoices .ledger (E.registerText id) cache = _ := Remote.cached_found cached known
      rw [Nat.min_eq_right above] at value
      rw [Remote.forkedRegister_cached here value,remoteRegister_answered answered]
      exact ⟨rfl,continues⟩
    | none =>
      rw [Remote.forkedRegister_missing here (Remote.cached_missing cached known)]
      by_cases failed : node.getRegisterValues forkHeight id = .error .unavailable
      · rw [Remote.fetchRegister_failed (by rw [continues.fork,lowest]; exact failed),remoteRegister_unavailable failed]
        exact ⟨rfl,continues⟩
      · rw [Remote.fetchRegister_run (by rw [continues.fork,lowest]; exact failed),remoteRegister_answered failed,
          continues.fork,lowest]
        refine ⟨rfl,?_⟩
        have stored := Remote.cached_set cached known height
        rw [lowest] at stored
        simp only [Remote.cacheRegister,update_run,here]
        exact { continues with
          cache := ⟨_,_,rfl,stored,fun other first fetchedThere => by
            by_cases same : other = id
            · subst same
              rw [Function.update_self] at fetchedThere
              cases fetchedThere
              exact ⟨high,failed⟩
            · rw [Function.update_of_ne same] at fetchedThere
              exact tidy other first fetchedThere⟩ }

/-- The tables have the values of the blocks, as long as these are of the shape the emulator produces. -/
theorem continues_files (continues : Continues E static node forkHeight cs s) (shaped : Shaped E static cs) :
    Files E static cs (Sqlite.dataStore choices) s.overlay := Sqlite.held_files continues.chain shaped continues.held choices

theorem continues_latest (continues : Continues E static node forkHeight cs s) :
    latestBlockHeight E (Sqlite.dataStore choices) s.overlay = .ok (forkHeight+cs.length) :=
  Sqlite.tip_latestBlockHeight continues.tip choices

theorem continues_blockByHeight (continues : Continues E static node forkHeight cs s) (shaped : Shaped E static cs)
    (height : Nat) : Remote.blockByHeight E choices node height s = blockByHeight node forkHeight height cs := by
  rw [Remote.blockByHeight,blockByHeight,recorded,files_blocks (continues_files continues shaped)]
  cases assign (fun _ => none) (cs.flatMap Memstore.blockRecords) height with
  | some block => rfl
  | none =>
    dsimp only [found]
    rw [continues_latest continues]
    rfl

theorem recorded_indexed {id : Identifier} {height : Nat} (indexed : recorded (Memstore.blockIndexRecords E) id cs = some height) :
    ∃ block, recorded Memstore.blockRecords height cs = some block := by
  rcases assign_cases (fun _ => none) (cs.flatMap (Memstore.blockIndexRecords E)) id with ⟨other,member,read⟩ | ⟨_,read⟩
  · rw [recorded,read] at indexed
    cases indexed
    obtain ⟨c,here,inside⟩ := List.mem_flatMap.mp member
    cases List.mem_singleton.mp inside
    exact block_recorded here
  · rw [recorded,read] at indexed
    cases indexed

theorem continues_blockByID (continues : Continues E static node forkHeight cs s) (shaped : Shaped E static cs)
    (id : Identifier) : Remote.blockByID E choices node id s = blockByID E node forkHeight id cs := by
  have files : Files E static cs (Sqlite.dataStore choices) s.overlay := continues_files continues shaped
  have blocks (height : Nat) : Remote.blockByHeight E choices node height s = blockByHeight node forkHeight height cs :=
    continues_blockByHeight continues shaped height
  have own : DefaultStore.blockByID E (Sqlite.dataStore choices) id s.overlay =
      (found (recorded (Memstore.blockIndexRecords E) id cs)).bind
        fun height => found (recorded Memstore.blockRecords height cs) := by
    show (Except.bind _ _).bind (fun height => DefaultStore.blockByHeight E (Sqlite.dataStore choices) height s.overlay) = _
    rw [files_blockIndex files,funext (files_blocks files)]
    rfl
  cases indexed : recorded (Memstore.blockIndexRecords E) id cs with
  | none =>
    rw [indexed] at own
    have missing : DefaultStore.blockByID E (Sqlite.dataStore choices) id s.overlay = .error .notFound := own
    rw [Remote.blockByID,missing,blockByID,indexed]
    dsimp only
    simp only [blocks]
  | some height =>
    obtain ⟨block,here⟩ := recorded_indexed indexed
    rw [indexed] at own
    have present : DefaultStore.blockByID E (Sqlite.dataStore choices) id s.overlay = .ok block :=
      own.trans (congrArg found here)
    rw [Remote.blockByID,present,blockByID,indexed]
    dsimp only
    rw [blocks,block_of_height here]

/-- Without local blocks the latest block is the one at the fork height. -/
theorem blockByHeight_first (node : Node) (forkHeight : Nat) :
    blockByHeight node forkHeight forkHeight [] = (asked (node.getBlockHeaderByHeight forkHeight)).map HeaderMessage.block := by
  simp [blockByHeight,recorded,assign]

/-- The height of the latest block is the latest height, also when it is the fork block. -/
theorem latestBlock_height
    (numbered : ∀ header, node.getBlockHeaderByHeight forkHeight = .ok header → header.height = forkHeight)
    (chain : Chain (forkHeight+1) cs) {block : Block}
    (found : blockByHeight node forkHeight (forkHeight+cs.length) cs = .ok block) : block.height = forkHeight+cs.length := by
  by_cases empty : cs = []
  · subst empty
    rw [List.length_nil,Nat.add_zero,blockByHeight_first] at found
    cases answered : node.getBlockHeaderByHeight forkHeight with
    | error e =>
      rw [answered] at found
      cases found
    | ok header =>
      rw [answered] at found
      cases found
      exact numbered header answered
  · have positive := List.length_pos_iff.mpr empty
    have last := List.getElem?_eq_getElem (show cs.length-1 < cs.length by omega)
    have place := (chain_getElem chain last).1
    have top : cs[cs.length-1].block.height = forkHeight+cs.length := by omega
    obtain ⟨own,read⟩ := block_recorded (List.mem_of_getElem? last)
    rw [blockByHeight,recorded,← top,read] at found
    cases found
    exact (block_of_height read).trans top

theorem saved_overlay {c : BlockContents} {result : Except StoreError Unit} {overlay : Sqlite.Store}
    (run : (Sqlite.store E choices).saveBlock E static c s.overlay = (result,overlay)) :
    (Remote.backend E choices node cacheChoices).saveBlock E static c s = (result,{ s with overlay := overlay }) :=
  (congrFun (RollbackGuard.remote_saveBlock node cacheChoices static c) s).trans (Layer.run_of run)

/-- A block that is saved goes on top of the list. -/
theorem continues_saved (continues : Continues E static node forkHeight cs s) {c : BlockContents} {after : Remote.Store}
    (height : c.block.height = forkHeight+cs.length+1)
    (saved : (Remote.backend E choices node cacheChoices).saveBlock E static c s = (.ok (),after)) :
    c.Counted ∧ Continues E static node forkHeight (cs ++ [c]) after := by
  have commits := Sqlite.commits_saveBlock E choices static
  rcases run : (Sqlite.store E choices).saveBlock E static c s.overlay with ⟨result,overlay⟩
  obtain ⟨rfl,rfl⟩ := Prod.mk.inj (saved.symm.trans (saved_overlay run))
  obtain ⟨counted,wrote⟩ := Sqlite.saved_wrote continues.tip run
  have tip := Sqlite.commits_tip commits continues.tip wrote
  rw [Option.getD_some,max_eq_right (by omega),height] at tip
  refine ⟨counted,?_⟩
  exact {
    fork := continues.fork
    chain := chain_append.mpr ⟨continues.chain,by omega,counted,trivial⟩
    held := fun name proper => Sqlite.held_wrote (writesTo_saveWrites_fixed E proper static) (continues.held name proper) wrote
    tip := by
      rw [List.length_append,List.length_singleton,← Nat.add_assoc]
      exact tip
    cache := continues.cache }

/-- Every read from the fork height on has the answer of the list. -/
theorem continues_answers (continues : Continues E static node forkHeight cs s) (shaped : Shaped E static cs) {query : Query}
    (high : query.From forkHeight) :
    (backend E static node forkHeight).answer query cs = (Remote.backend E choices node cacheChoices).answer query s := by
  have files : Files E static cs (Sqlite.dataStore choices) s.overlay := continues_files continues shaped
  have blocks (height : Nat) : Remote.blockByHeight E choices node height s = blockByHeight node forkHeight height cs :=
    continues_blockByHeight continues shaped height
  cases query with
  | latestBlockHeight => exact (continues_latest continues).symm
  | latestBlock =>
    show _ = (latestBlockHeight E (Sqlite.dataStore choices) s.overlay).bind
      fun height => Remote.blockByHeight E choices node height s
    rw [continues_latest continues]
    exact (blocks _).symm
  | blockByID id => exact (continues_blockByID continues shaped id).symm
  | blockByHeight height => exact (blocks height).symm
  | systemTransactionsForBlockID id => exact (files_systemTransactions files id).symm
  | blockIDByScheduledTransactionID id => exact (files_scheduled files id).symm
  | scheduledTransactionBlockIDByTxID id => exact (files_scheduledBlock files id).symm
  | collectionByID id => exact (files_collections files id).symm
  | fullCollectionByID id =>
    show _ = (collectionByID E (Sqlite.dataStore choices) id s.overlay).bind
      fun light => light.transactions.mapM fun txID => transactionByID E (Sqlite.dataStore choices) txID s.overlay
    rw [files_collections files,funext (files_transactions files)]
    rfl
  | transactionByID id => exact (files_transactions files id).symm
  | transactionResultByID id => exact (files_results files id).symm
  | systemTransactionResultByID blockID txID => exact (files_systemResults files blockID txID).symm
  | ledgerByHeight height id => exact (continues_read choices cacheChoices continues high id).1.symm
  | eventsByHeight height eventType => exact (files_events files height eventType).symm

theorem continues_sameReads
    (numbered : ∀ header, node.getBlockHeaderByHeight forkHeight = .ok header → header.height = forkHeight)
    (continues : Continues E static node forkHeight cs s) (shaped : Shaped E static cs) :
    Blockchain.SameReads (backend E static node forkHeight) (Remote.backend E choices node cacheChoices)
      (forkHeight+cs.length) cs s := by
  have answers (query : Query) (high : query.From forkHeight) :
      (backend E static node forkHeight).answer query cs = (Remote.backend E choices node cacheChoices).answer query s :=
    continues_answers continues shaped high
  exact {
    latestBlock := answers .latestBlock trivial
    tip := fun _ found => latestBlock_height numbered continues.chain found
    blockByID := fun id => answers (.blockByID id) trivial
    transactionByID := fun id => answers (.transactionByID id) trivial
    ledgerByHeight := fun id => answers (.ledgerByHeight _ id) (Nat.le_add_right _ _) }

variable (choices cacheChoices) in
theorem continues_sameSaves (continues : Continues E static node forkHeight cs s) :
    Blockchain.SameSaves (backend E static node forkHeight) (Remote.backend E choices node cacheChoices) E static cs s := by
  intro c
  by_cases counted : c.Counted
  · obtain ⟨overlay,run,_⟩ := (Sqlite.commits_saveBlock E choices static).wrote c s.overlay _ counted continues.tip
    exact .inr ⟨_,_,saveBlock_run counted cs,saved_overlay run⟩
  · obtain ⟨e,_,refused⟩ := Blockchain.uncounted_refused E counted
    have here := refused (Sqlite.dataStore choices) s.overlay
    exact .inl ⟨e,saveBlock_uncounted counted here cs,saved_overlay (bind_error here _)⟩

/-- A store that is opened on an empty overlay has no local blocks. -/
theorem continues_opened {options : Remote.Options} {url : Sqlite.Url}
    (opened : Remote.new E choices node options Remote.noCaches (Sqlite.fresh url) = .ok s) :
    Continues E static node s.forkHeight [] s := by
  have started := Remote.new_ok (Remote.global_fresh E url) opened
  obtain ⟨_,absent⟩ | ⟨marked,_⟩ := started.start
  · cases absent
  refine ⟨rfl,trivial,fun name proper => ?_,?_,_,fun _ => none,started.cache,?_,fun _ _ known => by cases known⟩
  · rw [marked,Remote.forkedAt_table _ _ proper,Sqlite.fresh_database]
    exact Sqlite.held_empty _
  · rw [marked]
    exact Remote.global_tip (Remote.forkedAt_global (Remote.global_fresh E url) _)
  · unfold Remote.initializeCacheStore
    split
    · exact Remote.cached_empty E node _ .directory
    · exact Remote.cached_empty E node _ .inMemory

end
end Continued

/-! ### Emulators -/

namespace Blockchain
open FlowEmulator.Fallible FlowEmulator.Run
open FlowEmulator.Remote (Node)
open FlowEmulator.Continued (Continues)

/-- What is asked of an emulator that continues a remote chain: a request, or a register at some height. -/
inductive Turn where
  | request (r : Request)
  | read (height : Nat) (id : RegisterID)

/-- Registers are asked for at the fork height or above. -/
def Turn.From (forkHeight : Nat) : Turn → Prop
  | .request _ => True
  | .read height _ => forkHeight ≤ height

/-- The answer to a turn. -/
inductive Reply where
  | answered (answer : Except EmulatorError Answer)
  | value (value : Except StoreError RegisterValue)

section
variable {σ : Type} (E : Encoding) (M : Machine) (config : Config) (B : Backend σ)
  (read : Nat → RegisterID → StoreM σ RegisterValue)

/-- Take a turn. A read may change the store. -/
def reply : Turn → Blockchain σ → Reply × Blockchain σ
  | .request r, b => (.answered (respond E M config B r b).1,(respond E M config B r b).2)
  | .read height id, b => (.value (read height id b.storage).1,{ b with storage := (read height id b.storage).2 })

end

/-- The replies to turns one after the other, and the emulator after them. -/
def talk {σ : Type} (reply : Turn → Blockchain σ → Reply × Blockchain σ) :
    List Turn → Blockchain σ → List Reply × Blockchain σ
  | [], b => ([],b)
  | t :: rest, b => ((reply t b).1 :: (talk reply rest (reply t b).2).1,(talk reply rest (reply t b).2).2)

/-- The turns of an emulator on the list of its blocks. -/
abbrev replyModel (E : Encoding) (M : Machine) (config : Config) (node : Node) (forkHeight : Nat) :
    Turn → Blockchain (List BlockContents) → Reply × Blockchain (List BlockContents) :=
  reply E M config (Continued.backend E (static E M config) node forkHeight)
    fun height id => attempt (Continued.ledgerByHeight node forkHeight height id)

/-- The turns of an emulator on the store of the code, whose reads fill the cache. -/
abbrev replyFork (E : Encoding) (M : Machine) (config : Config) (choices : Sqlite.Choices) (node : Node)
    (cacheChoices : Sqlite.Choices) : Turn → Blockchain Remote.Store → Reply × Blockchain Remote.Store :=
  reply E M config (Remote.backend E choices node cacheChoices) (Remote.ledgerByHeight E choices node cacheChoices)

section
variable {E : Encoding} {M : Machine} {config : Config} {node : Node} {forkHeight : Nat} {choices cacheChoices : Sqlite.Choices}
  {m : Blockchain (List BlockContents)} {b : Blockchain Remote.Store}

/-- An emulator on the list of its blocks and one on the store of the code. -/
structure Forked (E : Encoding) (M : Machine) (config : Config) (node : Node) (forkHeight : Nat)
    (m : Blockchain (List BlockContents)) (b : Blockchain Remote.Store) : Prop where
  continues : Continues E (static E M config) node forkHeight m.storage b.storage
  alike : Alike (forkHeight+m.storage.length) m.storage b.storage m b

variable (choices cacheChoices) in
/-- A request to both has one answer and leaves them after the same commits. -/
theorem forked_request (forked : Forked E M config node forkHeight m b)
    (numbered : ∀ header, node.getBlockHeaderByHeight forkHeight = .ok header → header.height = forkHeight)
    (shaped : Shaped E (static E M config) m.storage) (r : Request) :
    (respond E M config (Continued.backend E (static E M config) node forkHeight) r m).1 =
        (respond E M config (Remote.backend E choices node cacheChoices) r b).1 ∧
      Forked E M config node forkHeight (respond E M config (Continued.backend E (static E M config) node forkHeight) r m).2
        (respond E M config (Remote.backend E choices node cacheChoices) r b).2 := by
  obtain ⟨continues,alike⟩ := forked
  obtain ⟨answer,moved⟩ := requests_lockstep (Continued.continues_sameReads numbered continues shaped)
    (Continued.continues_sameSaves choices cacheChoices continues) r m b alike
  refine ⟨answer,?_⟩
  generalize (respond E M config (Continued.backend E (static E M config) node forkHeight) r m).2 = m' at moved ⊢
  generalize (respond E M config (Remote.backend E choices node cacheChoices) r b).2 = b' at moved ⊢
  rcases moved with alike | ⟨c,height,saved,savedThere,alike⟩
  · refine ⟨?_,?_⟩
    · rw [alike.left,alike.right]
      exact continues
    · rw [alike.left,alike.right]
      exact alike
  · obtain ⟨counted,next⟩ := Continued.continues_saved continues height savedThere
    have top : m'.storage = m.storage ++ [c] := (congrArg Prod.snd (saved.symm.trans (Continued.saveBlock_run counted _)) :)
    refine ⟨by rw [top]; exact next,?_⟩
    have length : forkHeight+m'.storage.length = forkHeight+m.storage.length+1 := by rw [top]; simp; omega
    rw [length]
    exact alike

variable (choices cacheChoices) in
theorem forked_reply (forked : Forked E M config node forkHeight m b)
    (numbered : ∀ header, node.getBlockHeaderByHeight forkHeight = .ok header → header.height = forkHeight)
    (shaped : Shaped E (static E M config) m.storage) {t : Turn} (high : t.From forkHeight) :
    (replyModel E M config node forkHeight t m).1 = (replyFork E M config choices node cacheChoices t b).1 ∧
      Forked E M config node forkHeight (replyModel E M config node forkHeight t m).2
        (replyFork E M config choices node cacheChoices t b).2 := by
  cases t with
  | request r =>
    obtain ⟨answer,next⟩ := forked_request choices cacheChoices forked numbered shaped r
    exact ⟨congrArg Reply.answered answer,next⟩
  | read height id =>
    obtain ⟨value,next⟩ := Continued.continues_read choices cacheChoices forked.continues high id
    exact ⟨congrArg Reply.value value.symm,next,{ forked.alike with right := rfl }⟩

/-- Turns only add blocks. -/
theorem replyModel_grows (t : Turn) (m : Blockchain (List BlockContents)) :
    m.storage <+: (replyModel E M config node forkHeight t m).2.storage := by
  cases t with
  | read height id => exact List.prefix_refl _
  | request r =>
    have grown {c : BlockContents} {result : Except StoreError Unit} {after : List BlockContents}
        (run : (Continued.backend E (static E M config) node forkHeight).saveBlock E (static E M config) c m.storage =
          (result,after)) : m.storage <+: after := by
      have grows := Continued.saveBlock_grows E (static E M config) node forkHeight c m.storage
      rw [run] at grows
      exact grows
    show m.storage <+: (respond E M config (Continued.backend E (static E M config) node forkHeight) r m).2.storage
    rw [respond_request]
    cases request_effect r m with
    | still still => rw [still.storage]
    | refused c e run place => exact grown run
    | saved c tick placed run pending => exact grown run
    | reset tick block storage found pending => rw [storage]

theorem talkModel_grows (turns : List Turn) (m : Blockchain (List BlockContents)) :
    m.storage <+: (talk (replyModel E M config node forkHeight) turns m).2.storage := by
  induction turns generalizing m with
  | nil => exact List.prefix_refl _
  | cons t rest ih => exact (replyModel_grows t m).trans (ih _)

variable (choices cacheChoices) in
/-- Turns one after the other have the same replies. -/
theorem forked_talk (turns : List Turn) (forked : Forked E M config node forkHeight m b)
    (numbered : ∀ header, node.getBlockHeaderByHeight forkHeight = .ok header → header.height = forkHeight)
    (high : ∀ t ∈ turns, t.From forkHeight)
    (shaped : Shaped E (static E M config) (talk (replyModel E M config node forkHeight) turns m).2.storage) :
    (talk (replyModel E M config node forkHeight) turns m).1 = (talk (replyFork E M config choices node cacheChoices) turns b).1 ∧
      Forked E M config node forkHeight (talk (replyModel E M config node forkHeight) turns m).2
        (talk (replyFork E M config choices node cacheChoices) turns b).2 := by
  induction turns generalizing m b with
  | nil => exact ⟨rfl,forked⟩
  | cons t rest ih =>
    have shapedHere := shaped_front (talkModel_grows (t :: rest) m) shaped
    obtain ⟨answer,next⟩ := forked_reply choices cacheChoices forked numbered shapedHere (high t List.mem_cons_self)
    obtain ⟨answers,ends⟩ := ih next (fun t member => high t (List.mem_cons_of_mem _ member)) shaped
    refine ⟨?_,ends⟩
    rw [talk,talk,answer,answers]

theorem shaped_nil {E : Encoding} {static : Identifier → Bool} : Shaped E static [] := by
  constructor <;> simp

/-- Emulators that are started on a fork without local blocks. -/
theorem forked_started {options : Remote.Options} {url : Sqlite.Url} {s : Remote.Store}
    (opened : Remote.new E choices node options Remote.noCaches (Sqlite.fresh url) = .ok s)
    (numbered : ∀ header, node.getBlockHeaderByHeight s.forkHeight = .ok header → header.height = s.forkHeight)
    (cacheChoices : Sqlite.Choices) (tick : Tick) (autoMine : Bool) : ∃ m b,
      newBlockchain E M config (Continued.backend E (static E M config) node s.forkHeight) tick autoMine [] = .ok m ∧
      newBlockchain E M config (Remote.backend E choices node cacheChoices) tick autoMine s = .ok b ∧
      m.storage = [] ∧ Forked E M config node s.forkHeight m b := by
  have continues : Continues E (static E M config) node s.forkHeight [] s := Continued.continues_opened opened
  obtain ⟨header,answered,_⟩ := (Remote.new_ok (Remote.global_fresh E url) opened).header
  have latest : (Continued.backend E (static E M config) node s.forkHeight).latestBlock [] = .ok header.block := by
    refine (Continued.blockByHeight_first node s.forkHeight).trans ?_
    rw [answered]
    rfl
  have reads : SameReads _ (Remote.backend E choices node cacheChoices) _ [] s :=
    Continued.continues_sameReads numbered continues shaped_nil
  have height : header.block.height = s.forkHeight := reads.tip _ latest
  refine ⟨_,_,new_existing tick autoMine latest,new_existing tick autoMine (reads.latestBlock.symm.trans latest),rfl,continues,?_⟩
  exact {
    left := rfl
    right := rfl
    pendingBlock := rfl
    latestEntropy := rfl
    autoMine := rfl
    next := by
      show header.block.height+1 = _
      rw [height]
      rfl
    ledgerHeight := height }

/-- An emulator that continues a remote chain is an emulator on the list of its
    local blocks: it starts alike and replies the same to requests and to reads
    from the fork height on, in any order, however tables are read and whatever
    the cache has fetched; and it answers every other read the same afterwards. -/
theorem fork_refines_list (E : Encoding) (M : Machine) (config : Config) (choices : Sqlite.Choices) (node : Node)
    (cacheChoices : Sqlite.Choices) (options : Remote.Options) (url : Sqlite.Url) (tick : Tick) (autoMine : Bool) (s : Remote.Store)
    (opened : Remote.new E choices node options Remote.noCaches (Sqlite.fresh url) = .ok s)
    (numbered : ∀ header, node.getBlockHeaderByHeight s.forkHeight = .ok header → header.height = s.forkHeight) : ∃ m b,
      newBlockchain E M config (Continued.backend E (static E M config) node s.forkHeight) tick autoMine [] = .ok m ∧
      newBlockchain E M config (Remote.backend E choices node cacheChoices) tick autoMine s = .ok b ∧
      ∀ turns : List Turn, (∀ t ∈ turns, t.From s.forkHeight) →
        let left := talk (replyModel E M config node s.forkHeight) turns m
        let right := talk (replyFork E M config choices node cacheChoices) turns b
        Shaped E (static E M config) left.2.storage → left.1 = right.1 ∧
          ∀ query : Query, query.From s.forkHeight →
            (Continued.backend E (static E M config) node s.forkHeight).answer query left.2.storage =
              (Remote.backend E choices node cacheChoices).answer query right.2.storage := by
  obtain ⟨m,b,started,startedThere,_,forked⟩ := forked_started opened numbered cacheChoices tick autoMine
  refine ⟨m,b,started,startedThere,fun turns high => ?_⟩
  intro left right shaped
  obtain ⟨replies,ends⟩ := forked_talk choices cacheChoices turns forked numbered high shaped
  exact ⟨replies,fun query above => Continued.continues_answers ends.continues shaped above⟩

end

open FlowEmulator.Samples in
/-- A register is read at the fork height, a transaction is executed, and the register is read in the pending block. -/
theorem fork_refines_list_execution : ∃ s m b,
    Remote.new encoding .earliest Remote.sampleNode Remote.sampleOptions Remote.noCaches (Sqlite.fresh .inMemory) = .ok s ∧
    newBlockchain encoding machine config (Continued.backend encoding (static encoding machine config) Remote.sampleNode 5)
      tick false [] = .ok m ∧
    newBlockchain encoding machine config (Remote.backend encoding .earliest Remote.sampleNode .earliest) tick false s = .ok b ∧
    (talk (replyModel encoding machine config Remote.sampleNode 5)
      [.read 5 ⟨[],[]⟩,.request (.addTransaction transaction),.request .executeBlock,.read 6 ⟨[],[]⟩] m).1 =
    (talk (replyFork encoding machine config .earliest Remote.sampleNode .earliest)
      [.read 5 ⟨[],[]⟩,.request (.addTransaction transaction),.request .executeBlock,.read 6 ⟨[],[]⟩] b).1 := by
  obtain ⟨s,opened⟩ := Remote.sample_started
  have fork : s.forkHeight = 5 :=
    (Except.ok.inj (Remote.remembered_begun opened).height).symm
  obtain ⟨m,b,started,startedThere,same⟩ := fork_refines_list encoding machine config .earliest Remote.sampleNode .earliest
    Remote.sampleOptions .inMemory tick false s opened (fun header answered => by cases answered; rfl)
  rw [fork] at started same
  refine ⟨s,m,b,opened,started,startedThere,(same _ ?_ ?_).1⟩
  · simp [Turn.From]
  · let B := Continued.backend encoding (static encoding machine config) Remote.sampleNode 5
    have kept : Still m (respond encoding machine config B .executeBlock
        (respond encoding machine config B (.addTransaction transaction) m).2).2 := by
      rw [respond_request,respond_request]
      exact keeps_executeBlock (keeps_executeNextTransaction m) _ (keeps_addTransaction m transaction m (still_refl m))
    have empty : m.storage = [] := by
      cases started.symm.trans (new_existing tick false rfl)
      rfl
    show Shaped encoding _ (respond encoding machine config B .executeBlock
      (respond encoding machine config B (.addTransaction transaction) m).2).2.storage
    rw [kept.storage,empty]
    exact shaped_nil

end Blockchain
end FlowEmulator
