import FlowEmulator.Archive
import FlowEmulator.RollbackGuard

/-!
Identifiers of blocks in an emulator that continues a remote chain. The node sends
headers only, so a remote block is rebuilt with an empty payload, and its
identifier is another one when it had a payload. And a block is looked up by
height once the node has told the height, where a local block may stand instead.
A block that is found has the identifier it was asked for exactly if it is local,
or remote without a payload at a height without a local block.
-/
namespace FlowEmulator.ForkIdentity
open FlowEmulator.Fallible FlowEmulator.Blockchain FlowEmulator.Run
open FlowEmulator.Remote (Node HeaderMessage)
open FlowEmulator.Sqlite (Choices Archived Tip)

/-! ### Remote chains -/

/-- The header of a block as a node sends it. -/
def headerOf (E : Encoding) (block : Block) : HeaderMessage where
  id := E.blockID block
  chainID := block.chainID
  height := block.height
  view := block.view
  parentID := block.parentID
  timestamp := block.timestamp
  consensus := block.consensus

/-- The block without its payload. -/
def rebuilt (block : Block) : Block := { block with guarantees := [], sealing := [] }

theorem headerOf_block (E : Encoding) (block : Block) : (headerOf E block).block = rebuilt block := rfl

/-- The payload is empty. -/
def Bare (block : Block) : Prop := block.guarantees = [] ∧ block.sealing = []

theorem rebuilt_eq (block : Block) : rebuilt block = block ↔ Bare block := by
  obtain ⟨chainID,height,view,parentID,timestamp,consensus,guarantees,sealing⟩ := block
  simp [rebuilt,Bare,eq_comm]

/-- The node answers with headers of a chain, if it answers. -/
structure Serves (E : Encoding) (node : Node) (chain : List Block) : Prop where
  heights : ∀ left ∈ chain, ∀ right ∈ chain, left.height = right.height → left = right
  byHeight : ∀ height header, node.getBlockHeaderByHeight height = .ok header →
    ∃ block ∈ chain, block.height = height ∧ header = headerOf E block
  byID : ∀ id header, node.getBlockHeaderByID id = .ok header →
    ∃ block ∈ chain, E.blockID block = id ∧ header = headerOf E block

/-- No two blocks of the chain have one identifier, and none has that of itself without its payload. -/
structure CollisionFree (E : Encoding) (chain : List Block) : Prop where
  blocks : ∀ left ∈ chain, ∀ right ∈ chain, E.blockID left = E.blockID right → left = right
  payloads : ∀ block ∈ chain, E.blockID (rebuilt block) = E.blockID block → rebuilt block = block

/-- Without its payload a block has its identifier exactly if there is none. -/
theorem rebuilt_blockID {E : Encoding} {chain : List Block} (collisionFree : CollisionFree E chain) {block : Block}
    (here : block ∈ chain) : E.blockID (rebuilt block) = E.blockID block ↔ Bare block := by
  rw [← rebuilt_eq]
  exact ⟨collisionFree.payloads block here,fun same => by rw [same]⟩

section
variable (E : Encoding) (choices : Choices)

/-- A local block of the store. -/
def ownBlock (height : Nat) (s : Remote.Store) : Except StoreError Block :=
  DefaultStore.blockByHeight E (Sqlite.dataStore choices) height s.overlay

/-- The identifier is that of a local block, or of a remote one without a payload at a height without a local block. -/
def Identified (chain : List Block) (s : Remote.Store) (id : Identifier) : Prop :=
  (∃ height own, ownBlock E choices height s = .ok own ∧ E.blockID own = id) ∨
    ∃ block ∈ chain, E.blockID block = id ∧ Bare block ∧ ∀ own, ownBlock E choices block.height s ≠ .ok own

end

/-! ### Local chains -/

/-- The overlay has the local blocks that are left, and the pending block is above them. -/
structure Local (E : Encoding) (M : Machine) (config : Config) (cs seen : List BlockContents) (latest : Nat)
    (b : Blockchain Remote.Store) : Prop where
  archived : Archived E (static E M config) cs seen b.storage.overlay.database
  ascending : cs.Pairwise fun c d => c.block.height < d.block.height
  tip : Tip E b.storage.overlay (some latest)
  current : b.storage.overlay.currentHeight ≤ latest
  low : ∀ c ∈ cs, c.block.height ≤ latest
  pending : latest < b.pendingBlock.height

section
variable {E : Encoding} {M : Machine} {config : Config} {choices : Choices} {node : Node} {cacheChoices : Choices}
  {cs seen : List BlockContents} {latest : Nat} {b : Blockchain Remote.Store}

theorem local_ownBlock (here : Local E M config cs seen latest b) {c : BlockContents} (member : c ∈ cs) :
    ownBlock E choices c.block.height b.storage = .ok c.block :=
  Sqlite.archived_block choices here.archived member
    (fun _ there same => congrArg BlockContents.block (ascending_height_inj here.ascending there member same))

theorem local_noBlock (here : Local E M config cs seen latest b) {height : Nat} (none : ∀ c ∈ cs, c.block.height ≠ height) :
    ownBlock E choices height b.storage = .error .notFound :=
  Sqlite.archived_noBlock choices here.archived none

theorem local_none (here : Local E M config [] seen latest b) (height : Nat) (own : Block) :
    ownBlock E choices height b.storage ≠ .ok own := by
  rw [local_noBlock here (fun _ absent => absurd absent List.not_mem_nil)]
  exact nofun

/-- A local block is one of the blocks that are left. -/
theorem local_found (here : Local E M config cs seen latest b) {height : Nat} {own : Block}
    (found : ownBlock E choices height b.storage = .ok own) : ∃ c ∈ cs, c.block = own ∧ c.block.height = height := by
  by_cases present : ∃ c ∈ cs, c.block.height = height
  · obtain ⟨c,member,rfl⟩ := present
    rw [local_ownBlock here member] at found
    cases found
    exact ⟨c,member,rfl,rfl⟩
  · rw [local_noBlock here (fun c member same => present ⟨c,member,same⟩)] at found
    cases found

/-- A local block is found where there is one. -/
theorem blockByHeight_own {height : Nat} {own : Block} (found : ownBlock E choices height b.storage = .ok own) :
    Remote.blockByHeight E choices node height b.storage = .ok own := by
  have found : DefaultStore.blockByHeight E (Sqlite.dataStore choices) height b.storage.overlay = .ok own := found
  unfold Remote.blockByHeight
  rw [found]

/-- At a height without a local block the node is asked, up to the latest height. -/
theorem blockByHeight_asked (here : Local E M config cs seen latest b) {height : Nat}
    (none : ∀ own, ownBlock E choices height b.storage ≠ .ok own) :
    Remote.blockByHeight E choices node height b.storage =
      if latest < height then .error (.blockNotFoundByHeight height)
      else (Remote.asked (node.getBlockHeaderByHeight height)).map HeaderMessage.block := by
  have tip : DefaultStore.latestBlockHeight E (Sqlite.dataStore choices) b.storage.overlay = .ok latest :=
    Sqlite.tip_latestBlockHeight here.tip choices
  unfold Remote.blockByHeight
  split
  · next own read => exact absurd read (none own)
  · rw [tip]
    rfl

/-- A block that is found there is rebuilt from the header of the remote one. -/
theorem blockByHeight_remote (here : Local E M config cs seen latest b) {chain : List Block} (serves : Serves E node chain)
    {height : Nat} {block : Block} (none : ∀ own, ownBlock E choices height b.storage ≠ .ok own)
    (found : Remote.blockByHeight E choices node height b.storage = .ok block) :
    ∃ origin ∈ chain, origin.height = height ∧ block = rebuilt origin := by
  rw [blockByHeight_asked here none] at found
  split at found
  · cases found
  · rcases answer : node.getBlockHeaderByHeight height with e | header
    · rw [answer] at found
      cases found
    · rw [answer] at found
      cases found
      obtain ⟨origin,member,sameHeight,rfl⟩ := serves.byHeight height header answer
      exact ⟨origin,member,sameHeight,rfl⟩

/-- For an identifier without a local block the node is asked for the height. -/
theorem blockByID_asked (here : Local E M config cs seen latest b) {id : Identifier}
    (unknown : ∀ c ∈ cs, E.blockID c.block ≠ id) :
    Remote.blockByID E choices node id b.storage = (Remote.asked (node.getBlockHeaderByID id)).bind fun header =>
      Remote.blockByHeight E choices node header.height b.storage := by
  unfold Remote.blockByID
  rw [Sqlite.archived_noID choices here.archived unknown]

/-- Without local blocks, a remote block up to the latest height is rebuilt. -/
theorem blockByID_rebuilt (here : Local E M config [] seen latest b) {origin : Block} (low : origin.height ≤ latest)
    (byID : node.getBlockHeaderByID (E.blockID origin) = .ok (headerOf E origin))
    (byHeight : node.getBlockHeaderByHeight origin.height = .ok (headerOf E origin)) :
    Remote.blockByID E choices node (E.blockID origin) b.storage = .ok (rebuilt origin) := by
  rw [blockByID_asked here (fun _ absent => absurd absent List.not_mem_nil),byID]
  show Remote.blockByHeight E choices node origin.height b.storage = _
  rw [blockByHeight_asked here (local_none here _),if_neg (Nat.not_lt.mpr low),byHeight]
  rfl

/-- A block that is found by an identifier has it exactly if the identifier is identified. -/
theorem local_blockByID (here : Local E M config cs seen latest b) {chain : List Block} (serves : Serves E node chain)
    (collisionFree : CollisionFree E chain) {id : Identifier} {block : Block}
    (found : Remote.blockByID E choices node id b.storage = .ok block) :
    E.blockID block = id ↔ Identified E choices chain b.storage id := by
  by_cases known : ∃ c ∈ cs, E.blockID c.block = id
  · obtain ⟨c,member,rfl⟩ := known
    obtain ⟨d,there,same,read⟩ := Sqlite.archived_blockByID choices here.archived member
      (fun _ left _ right => ascending_height_inj here.ascending left right)
    have own : ownBlock E choices d.block.height b.storage = .ok d.block := local_ownBlock here there
    unfold Remote.blockByID at found
    rw [read] at found
    dsimp only at found
    rw [blockByHeight_own own] at found
    cases found
    exact ⟨fun _ => .inl ⟨_,_,own,same⟩,fun _ => same⟩
  · have unknown (height : Nat) (own : Block) (read : ownBlock E choices height b.storage = .ok own) : E.blockID own ≠ id := by
      obtain ⟨c,member,rfl,_⟩ := local_found here read
      exact fun same => known ⟨c,member,same⟩
    rw [blockByID_asked here (fun c member same => known ⟨c,member,same⟩)] at found
    rcases answer : node.getBlockHeaderByID id with e | header
    · rw [answer] at found
      cases found
    · rw [answer] at found
      obtain ⟨origin,member,rfl,rfl⟩ := serves.byID id header answer
      have found : Remote.blockByHeight E choices node origin.height b.storage = .ok block := found
      by_cases covered : ∃ own, ownBlock E choices origin.height b.storage = .ok own
      · obtain ⟨own,read⟩ := covered
        rw [blockByHeight_own read] at found
        cases found
        refine ⟨fun same => absurd same (unknown _ _ read),?_⟩
        rintro (⟨height,other,readOther,same⟩ | ⟨other,there,same,_,none⟩)
        · exact absurd same (unknown _ _ readOther)
        · rw [collisionFree.blocks other there origin member same] at none
          exact absurd read (none _)
      · have none (own : Block) : ownBlock E choices origin.height b.storage ≠ .ok own := fun read => covered ⟨own,read⟩
        obtain ⟨other,there,height,rfl⟩ := blockByHeight_remote here serves none found
        obtain rfl := serves.heights other there origin member height
        rw [rebuilt_blockID collisionFree member]
        refine ⟨fun bare => .inr ⟨other,member,rfl,bare,none⟩,?_⟩
        rintro (⟨height,own,read,same⟩ | ⟨another,thereToo,same,bare,_⟩)
        · exact absurd same (unknown _ _ read)
        · rw [← collisionFree.blocks another thereToo other member same]
          exact bare

end

/-! ### Runs -/

/-- What is done to the emulator. -/
inductive Step where
  | request (r : Request)
  | rollback (tick : Tick) (height : Nat)

section
variable (E : Encoding) (M : Machine) (config : Config) (choices : Choices) (node : Node) (options : Remote.Options)
  (cacheChoices : Choices)

def step : Step → Blockchain Remote.Store → Blockchain Remote.Store
  | .request r, b => request E M config (Remote.backend E choices node cacheChoices) r b
  | .rollback tick height, b =>
    (rollbackToBlockHeight E M config (Remote.backend E choices node cacheChoices) tick height b).2

/-- The emulators that were just started over the remote chain, on an empty database. -/
def Started (b : Blockchain Remote.Store) : Prop :=
  ∃ url caches s tick autoMine, Remote.new E choices node options caches (Sqlite.fresh url) = .ok s ∧
    newBlockchain E M config (Remote.backend E choices node cacheChoices) tick autoMine s = .ok b

def Reached (condition : Blockchain Remote.Store → Step → Prop) (b : Blockchain Remote.Store) : Prop :=
  Reachable (step E M config choices node cacheChoices) condition (Started E M config choices node options cacheChoices) b

end

/-- The step is a request. -/
def Requested (_ : Blockchain Remote.Store) : Step → Prop
  | .request _ => True
  | .rollback _ _ => False

/-- As long as there are no local blocks, the pending block is built on the block
    of the fork height as it is rebuilt. -/
def Anchored (E : Encoding) (node : Node) (cs : List BlockContents) (latest : Nat) (b : Blockchain Remote.Store) : Prop :=
  cs = [] → latest = b.storage.forkHeight ∧ ∃ header, node.getBlockHeaderByHeight b.storage.forkHeight = .ok header ∧
    b.pendingBlock.parentID = E.blockID header.block

section
variable {E : Encoding} {M : Machine} {config : Config} {choices : Choices} {node : Node} {options : Remote.Options}
  {cacheChoices : Choices} {cs seen : List BlockContents} {latest : Nat} {b after : Blockchain Remote.Store}
  {chain : List Block}

/-- The latest block is looked up at the latest height. -/
theorem local_latestBlock (here : Local E M config cs seen latest b) :
    (Remote.backend E choices node cacheChoices).latestBlock b.storage =
      Remote.blockByHeight E choices node latest b.storage := by
  have tip : DefaultStore.latestBlockHeight E (Sqlite.dataStore choices) b.storage.overlay = .ok latest :=
    Sqlite.tip_latestBlockHeight here.tip choices
  show Remote.latestBlock E choices node b.storage = _
  unfold Remote.latestBlock
  rw [tip]
  rfl

theorem local_latestHeight (here : Local E M config cs seen latest b) (serves : Serves E node chain) {block : Block}
    (found : (Remote.backend E choices node cacheChoices).latestBlock b.storage = .ok block) : block.height = latest := by
  rw [local_latestBlock here] at found
  by_cases own : ∃ own, ownBlock E choices latest b.storage = .ok own
  · obtain ⟨own,read⟩ := own
    rw [blockByHeight_own read] at found
    cases found
    obtain ⟨c,_,rfl,height⟩ := local_found here read
    exact height
  · obtain ⟨origin,_,height,rfl⟩ := blockByHeight_remote here serves (fun other read => own ⟨other,read⟩) found
    exact height

theorem local_same (here : Local E M config cs seen latest b) (storage : after.storage = b.storage)
    (pending : latest < after.pendingBlock.height) : Local E M config cs seen latest after := by
  refine ⟨?_,here.ascending,?_,?_,here.low,pending⟩
  · rw [storage]; exact here.archived
  · rw [storage]; exact here.tip
  · rw [storage]; exact here.current

/-- A block at the place of the pending block is a local block more. -/
theorem local_saved (here : Local E M config cs seen latest b) {c : BlockContents} (tick : Tick)
    (placed : Placed c.block b.pendingBlock)
    (run : (Remote.backend E choices node cacheChoices).saveBlock E (static E M config) c b.storage = (.ok (),after.storage))
    (pending : after.pendingBlock = newPendingBlock E tick c.block) :
    Local E M config (cs ++ [c]) (seen ++ [c]) c.block.height after := by
  have above : latest < c.block.height := by rw [placed.height]; exact here.pending
  have run : (Remote.store E choices node cacheChoices).saveBlock E (static E M config) c b.storage = _ := run
  rw [RollbackGuard.remote_saveBlock] at run
  obtain ⟨sql,saved,storage⟩ := Layer.run_result run
  obtain ⟨_,wrote⟩ := Sqlite.saved_wrote here.tip saved
  have overlay : after.storage.overlay = sql := by rw [storage]; rfl
  have new (d : BlockContents) (there : d ∈ cs) : d.block.height < c.block.height :=
    Nat.lt_of_le_of_lt (here.low d there) above
  have tip := Sqlite.commits_tip (Sqlite.commits_saveBlock E choices (static E M config)) here.tip wrote
  rw [Option.getD_some,max_eq_right above.le] at tip
  refine ⟨?_,?_,?_,?_,fun d there => ?_,?_⟩
  · rw [overlay]
    exact Sqlite.archived_saved here.archived wrote (fun d there => (new d there).ne)
  · refine List.pairwise_append.mpr ⟨here.ascending,List.pairwise_singleton ..,fun d there e only => ?_⟩
    rw [List.mem_singleton.mp only]
    exact new d there
  · rw [overlay]; exact tip
  · rw [overlay,wrote.currentHeight]
  · rcases List.mem_append.mp there with before | only
    · exact (new d before).le
    · rw [List.mem_singleton.mp only]
  · rw [pending]
    exact Nat.lt_succ_self _

/-- A commit of an executed block that can be sealed, with its counts right, succeeds. -/
theorem local_commit (here : Local E M config cs seen latest b) (tick : Tick)
    (ready : b.pendingBlock.index = b.pendingBlock.size) {c : BlockContents} {middle : Blockchain Remote.Store}
    (sealed : sealBlock E M config (Remote.backend E choices node cacheChoices) b = (.ok c,middle))
    (storage : middle.storage = b.storage) (counted : c.Counted) :
    ∃ after, commitBlock E M config (Remote.backend E choices node cacheChoices) tick b = (.ok c.block,after) ∧
      Local E M config (cs ++ [c]) (seen ++ [c]) c.block.height after := by
  obtain ⟨sql,saved,_⟩ := (Sqlite.commits_saveBlock E choices (static E M config)).wrote c b.storage.overlay (some latest)
    counted here.tip
  have run : (Remote.backend E choices node cacheChoices).saveBlock E (static E M config) c b.storage =
      (.ok (),RollbackGuard.forkLayer.put sql b.storage) :=
    (congrFun (RollbackGuard.remote_saveBlock node cacheChoices _ c) b.storage).trans (Layer.run_of saved)
  exact ⟨_,commitBlock_ok tick ready sealed (storage ▸ run),local_saved here tick (sealBlock_placed sealed) run rfl⟩

theorem anchored_same (anchored : Anchored E node cs latest b) (storage : after.storage = b.storage)
    (parentID : after.pendingBlock.parentID = b.pendingBlock.parentID) : Anchored E node cs latest after := by
  unfold Anchored
  rw [storage,parentID]
  exact anchored

/-- A new pending block is built on the same block again. -/
theorem anchored_new (here : Local E M config cs seen latest b) (anchored : Anchored E node cs latest b) {tick : Tick}
    {block : Block} (storage : after.storage = b.storage)
    (found : (Remote.backend E choices node cacheChoices).latestBlock b.storage = .ok block)
    (pending : after.pendingBlock = newPendingBlock E tick block) : Anchored E node cs latest after := by
  rintro rfl
  obtain ⟨rfl,header,answer,_⟩ := anchored rfl
  rw [local_latestBlock here,blockByHeight_asked here (local_none here _),if_neg (Nat.lt_irrefl _),answer] at found
  cases found
  rw [storage,pending]
  exact ⟨rfl,header,answer,rfl⟩

/-- A request leaves the local blocks, with one more if it commits it. -/
theorem local_request (here : Local E M config cs seen latest b) (serves : Serves E node chain) (r : Request) :
    ∃ later known next, Local E M config later known next
        (request E M config (Remote.backend E choices node cacheChoices) r b) ∧
      (Anchored E node cs latest b →
        Anchored E node later next (request E M config (Remote.backend E choices node cacheChoices) r b)) := by
  cases request_effect r b with
  | still still =>
    refine ⟨cs,seen,latest,local_same here still.storage ?_,fun anchored => ?_⟩
    · rw [still.place.height]
      exact here.pending
    · exact anchored_same anchored still.storage still.place.parentID
  | refused c e run place =>
    have run : (Remote.store E choices node cacheChoices).saveBlock E (static E M config) c b.storage = _ := run
    rw [RollbackGuard.remote_saveBlock] at run
    obtain ⟨sql,refused,storage⟩ := Layer.run_result run
    rw [Sqlite.refused_same here.tip refused] at storage
    refine ⟨cs,seen,latest,local_same here storage ?_,fun anchored => ?_⟩
    · rw [place.height]
      exact here.pending
    · exact anchored_same anchored storage place.parentID
  | saved c tick placed run pending =>
    refine ⟨cs ++ [c],seen ++ [c],_,local_saved here tick placed run pending,fun _ none => ?_⟩
    exact absurd none (List.append_ne_nil_of_right_ne_nil cs (List.cons_ne_nil c []))
  | reset tick block storage found pending =>
    refine ⟨cs,seen,latest,local_same here storage ?_,fun anchored => ?_⟩
    · rw [pending]
      show latest < block.height+1
      rw [local_latestHeight here serves found]
      exact Nat.lt_succ_self _
    · exact anchored_new here anchored storage found pending

/-- The latest block is found, or the node fails. -/
theorem local_latest (here : Local E M config cs seen latest b) :
    (∃ block, (Remote.backend E choices node cacheChoices).latestBlock b.storage = .ok block) ∨
    ∃ e, (Remote.backend E choices node cacheChoices).latestBlock b.storage = .error e ∧ e ≠ .notFound := by
  rw [local_latestBlock here]
  by_cases own : ∃ own, ownBlock E choices latest b.storage = .ok own
  · obtain ⟨own,found⟩ := own
    exact .inl ⟨own,blockByHeight_own found⟩
  · rw [blockByHeight_asked here (fun other found => own ⟨other,found⟩),if_neg (Nat.lt_irrefl _)]
    cases node.getBlockHeaderByHeight latest with
    | error e => exact .inr ⟨.remote e,rfl,nofun⟩
    | ok header => exact .inl ⟨header.block,rfl⟩

theorem local_reload (here : Local E M config cs seen latest b) (serves : Serves E node chain) (tick : Tick) :
    Local E M config cs seen latest (reloadBlockchain E M config (Remote.backend E choices node cacheChoices) tick b).2 := by
  have read : (∃ block, (Remote.backend E choices node cacheChoices).latestBlock b.storage = .ok block) ∨
    ∃ e, (Remote.backend E choices node cacheChoices).latestBlock b.storage = .error e ∧ e ≠ .notFound := local_latest here
  rcases read with ⟨block,found⟩ | ⟨e,failed,other⟩
  · rw [reload_ok tick found]
    refine local_same here rfl ?_
    show latest < block.height+1
    rw [local_latestHeight here serves found]
    exact Nat.lt_succ_self _
  · rw [reload_unconfigured tick (configureLedger_unread failed other)]
    exact here

/-- A rollback cuts the local blocks. Where the node then fails, the old pending block stays. -/
theorem local_rollback (here : Local E M config cs seen latest b) (serves : Serves E node chain) (tick : Tick) (height : Nat) :
    ∃ later known next, Local E M config later known next
      (rollbackToBlockHeight E M config (Remote.backend E choices node cacheChoices) tick height b).2 := by
  have layered : Layered E choices RollbackGuard.forkLayer (Remote.backend E choices node cacheChoices) _ :=
    RollbackGuard.layered_mode E choices (.fork node ⟨none,0,false⟩ (fun _ => Remote.noCaches) cacheChoices)
  by_cases above : height < b.storage.overlay.currentHeight
  · obtain ⟨sql,rolled,run⟩ := rollback_passed M config layered (b := b) tick above
    have cut : Local E M config (cs.filter fun c => c.block.height ≤ height) seen height
        { b with storage := RollbackGuard.forkLayer.put sql b.storage } := by
      refine ⟨Sqlite.archived_rolledBack here.archived rolled,here.ascending.filter _,
        Sqlite.tip_upsert here.tip (rolled.table .global),rolled.currentHeight.le,fun c member => ?_,?_⟩
      · exact of_decide_eq_true (List.mem_filter.mp member).2
      · exact Nat.lt_of_lt_of_le above (here.current.trans here.pending.le)
    rw [run]
    exact ⟨_,seen,height,local_reload cut serves tick⟩
  · rw [rollback_guarded M config layered tick (Nat.le_of_not_lt above)]
    exact ⟨cs,seen,latest,here⟩

/-- An emulator starts on a store that was just opened, and has no local blocks then. -/
theorem local_new (serves : Serves E node chain) {url : Sqlite.Url} {caches : Remote.Caches} {s : Remote.Store}
    (opened : Remote.new E choices node options caches (Sqlite.fresh url) = .ok s) (tick : Tick) (autoMine : Bool) :
    ∃ header, node.getBlockHeaderByHeight s.forkHeight = .ok header ∧
      newBlockchain E M config (Remote.backend E choices node cacheChoices) tick autoMine s =
        .ok ⟨s,newPendingBlock E tick header.block,zeroID,autoMine⟩ ∧
      Local E M config [] [] s.forkHeight ⟨s,newPendingBlock E tick header.block,zeroID,autoMine⟩ := by
  have start := Remote.new_ok (Remote.global_fresh E url) opened
  obtain ⟨header,asked,_⟩ := start.header
  have answer := Remote.asked_ok.mp asked
  have overlay : s.overlay = Remote.forkedAt E s.forkHeight (Sqlite.fresh url) := by
    rcases start.start with ⟨_,absent⟩ | ⟨marked,_⟩
    · cases absent
    · exact marked
  obtain ⟨origin,_,height,same⟩ := serves.byHeight _ header answer
  have first : Local E M config [] [] s.forkHeight ⟨s,newPendingBlock E tick header.block,zeroID,autoMine⟩ := by
    refine ⟨Sqlite.archived_empty (fun name proper => ?_),List.Pairwise.nil,?_,?_,fun _ none => absurd none List.not_mem_nil,?_⟩
    · rw [overlay,Remote.forkedAt_table _ _ proper]
      exact Sqlite.fresh_database url name
    · rw [overlay]
      exact Remote.global_tip (Remote.forkedAt_global (Remote.global_fresh E url) _)
    · rw [overlay]
      exact Nat.le_refl _
    · show s.forkHeight < header.block.height+1
      rw [same,headerOf_block]
      exact Nat.lt_succ_of_le height.ge
  have latest : (Remote.backend E choices node cacheChoices).latestBlock s = .ok header.block := by
    refine (local_latestBlock first).trans ?_
    rw [blockByHeight_asked first (local_none first _),if_neg (Nat.lt_irrefl _),answer]
    rfl
  exact ⟨header,answer,new_existing tick autoMine latest,first⟩

theorem local_started (serves : Serves E node chain) (started : Started E M config choices node options cacheChoices b) :
    ∃ latest, Local E M config [] [] latest b ∧ Anchored E node [] latest b := by
  obtain ⟨url,caches,s,tick,autoMine,opened,started⟩ := started
  obtain ⟨header,answer,run,first⟩ := local_new serves opened tick autoMine
  rw [run] at started
  cases started
  exact ⟨s.forkHeight,first,fun _ => ⟨rfl,header,answer,rfl⟩⟩

theorem local_step (serves : Serves E node chain) (b : Blockchain Remote.Store) (next : Step)
    (before : ∃ cs seen latest, Local E M config cs seen latest b) (_ : True) :
    ∃ cs seen latest, Local E M config cs seen latest (step E M config choices node cacheChoices next b) := by
  obtain ⟨cs,seen,latest,here⟩ := before
  cases next with
  | request r =>
    obtain ⟨later,known,next,after,_⟩ := local_request here serves r
    exact ⟨later,known,next,after⟩
  | rollback tick height => exact local_rollback here serves tick height

theorem reached_local (serves : Serves E node chain)
    (reached : Reached E M config choices node options cacheChoices (fun _ _ => True) b) :
    ∃ cs seen latest, Local E M config cs seen latest b := by
  have first (b : Blockchain Remote.Store) (started : Started E M config choices node options cacheChoices b) :
      ∃ cs seen latest, Local E M config cs seen latest b := by
    obtain ⟨latest,here,_⟩ := local_started serves started
    exact ⟨_,_,latest,here⟩
  have kept := reachable_keeps first (local_step serves) reached
  exact kept

theorem anchored_step (serves : Serves E node chain) (b : Blockchain Remote.Store) (next : Step)
    (before : ∃ cs seen latest, Local E M config cs seen latest b ∧ Anchored E node cs latest b)
    (requested : Requested b next) : ∃ cs seen latest,
      Local E M config cs seen latest (step E M config choices node cacheChoices next b) ∧
        Anchored E node cs latest (step E M config choices node cacheChoices next b) := by
  obtain ⟨cs,seen,latest,here,anchored⟩ := before
  cases next with
  | request r =>
    obtain ⟨later,known,next,after,kept⟩ := local_request here serves r
    exact ⟨later,known,next,after,kept anchored⟩
  | rollback tick height => cases requested

theorem reached_anchored (serves : Serves E node chain)
    (reached : Reached E M config choices node options cacheChoices Requested b) :
    ∃ cs seen latest, Local E M config cs seen latest b ∧ Anchored E node cs latest b := by
  have first (b : Blockchain Remote.Store) (started : Started E M config choices node options cacheChoices b) :
      ∃ cs seen latest, Local E M config cs seen latest b ∧ Anchored E node cs latest b := by
    obtain ⟨latest,here,anchored⟩ := local_started serves started
    exact ⟨_,_,latest,here,anchored⟩
  have kept := reachable_keeps first (anchored_step serves) reached
  exact kept

/-- A block is committed with the parent of the pending block. -/
theorem commitBlock_parentID {σ : Type} {B : Backend σ} {b after : Blockchain σ} {tick : Tick} {block : Block}
    (run : commitBlock E M config B tick b = (.ok block,after)) : block.parentID = b.pendingBlock.parentID := by
  have commits : Commits E M config B tick b _ := commitBlock_commits tick b
  generalize commitBlock E M config B tick b = out at commits run
  cases commits with
  | committed ready c made sealed storage saved =>
    cases run
    exact (sealed_placed sealed).parentID
  | _ => cases run

/-- A block that is found by an identifier has the identifier exactly if it is
    local, or remote without a payload at a height without a local block. And the
    first local block names the remote block of the fork height as its parent
    exactly if that block has no payload. -/
theorem fork_identity_iff (serves : Serves E node chain) (collisionFree : CollisionFree E chain) :
    (∀ b, Reached E M config choices node options cacheChoices (fun _ _ => True) b → ∀ id block,
      (Remote.backend E choices node cacheChoices).blockByID id b.storage = .ok block →
        (E.blockID block = id ↔ Identified E choices chain b.storage id)) ∧
    (∀ b, Reached E M config choices node options cacheChoices Requested b →
      (∀ height own, ownBlock E choices height b.storage ≠ .ok own) → ∀ tick block after,
      commitBlock E M config (Remote.backend E choices node cacheChoices) tick b = (.ok block,after) →
      ∀ origin ∈ chain, origin.height = b.storage.forkHeight → (block.parentID = E.blockID origin ↔ Bare origin)) := by
  refine ⟨fun b reached id block found => ?_,fun b reached none tick block after run origin here height => ?_⟩
  · obtain ⟨cs,seen,latest,held⟩ := reached_local serves reached
    exact local_blockByID held serves collisionFree found
  · obtain ⟨cs,seen,latest,held,anchored⟩ := reached_anchored serves reached
    have empty : cs = [] := by
      refine List.eq_nil_iff_forall_not_mem.mpr (fun c member => ?_)
      exact none c.block.height c.block (local_ownBlock held member)
    obtain ⟨_,header,answer,parentID⟩ := anchored empty
    obtain ⟨other,there,sameHeight,rfl⟩ := serves.byHeight _ header answer
    obtain rfl := serves.heights other there origin here (sameHeight.trans height.symm)
    rw [commitBlock_parentID run,parentID,headerOf_block]
    exact rebuilt_blockID collisionFree here

end

section
open FlowEmulator.Samples

/-- The node that has the blocks of a chain. -/
def nodeOf (E : Encoding) (chain : List Block) : Node where
  getNetworkParameters := .ok .emulator
  getLatestBlockHeader := match chain.getLast? with
    | some block => .ok (headerOf E block)
    | none => .error .notFound
  getBlockHeaderByHeight height := match chain.find? fun block => block.height = height with
    | some block => .ok (headerOf E block)
    | none => .error .notFound
  getBlockHeaderByID id := match chain.find? fun block => E.blockID block = id with
    | some block => .ok (headerOf E block)
    | none => .error .notFound
  getRegisterValues _ _ := .ok []

theorem serves_nodeOf {E : Encoding} {chain : List Block}
    (heights : ∀ left ∈ chain, ∀ right ∈ chain, left.height = right.height → left = right) : Serves E (nodeOf E chain) chain := by
  have found {test : Block → Bool} {header : HeaderMessage} (answer : (match chain.find? test with
      | some block => Except.ok (headerOf E block)
      | none => Except.error NodeError.notFound) = .ok header) :
      ∃ block ∈ chain, test block = true ∧ header = headerOf E block := by
    rcases search : chain.find? test with _ | block
    · rw [search] at answer
      cases answer
    · rw [search] at answer
      cases answer
      exact ⟨block,List.mem_of_find?_eq_some search,List.find?_some search,rfl⟩
  refine ⟨heights,fun height header answer => ?_,fun id header answer => ?_⟩
  · obtain ⟨block,here,meets,same⟩ := found answer
    exact ⟨block,here,of_decide_eq_true meets,same⟩
  · obtain ⟨block,here,meets,same⟩ := found answer
    exact ⟨block,here,of_decide_eq_true meets,same⟩

/-- The encoding that tells blocks apart by their heights, views and numbers of guarantees. -/
def payloadEncoding : Encoding :=
  { heightEncoding with blockID := fun b => digest (b.height + 256 * b.view + 65536 * b.guarantees.length) }

/-- A block below the fork height, the one of the fork height, which has a payload, and one above it. -/
def lowBlock : Block := ⟨.emulator,4,4,zeroID,1,[],[],[]⟩
def forkBlock : Block := ⟨.emulator,5,5,zeroID,1,[],[digest 1],[]⟩
def highBlock : Block := ⟨.emulator,6,7,zeroID,1,[],[],[]⟩
def sampleChain : List Block := [lowBlock,forkBlock,highBlock]

def chainNode : Node := nodeOf payloadEncoding sampleChain

theorem sample_serves : Serves payloadEncoding chainNode sampleChain := serves_nodeOf (by decide)

theorem sample_collisionFree : CollisionFree payloadEncoding sampleChain := ⟨by decide,by decide⟩

/-- An emulator that was just started at the fork height, and its first commit. -/
theorem sample_forked : ∃ b c after,
    Started payloadEncoding machine config .earliest chainNode Remote.sampleOptions .earliest b ∧
    Local payloadEncoding machine config [] [] 5 b ∧
    commitBlock payloadEncoding machine config (Remote.backend payloadEncoding .earliest chainNode .earliest) tick b =
      (.ok c.block,after) ∧
    c.block = (newPendingBlock payloadEncoding tick (rebuilt forkBlock)).block payloadEncoding ∧
    Local payloadEncoding machine config [c] [c] 6 after := by
  obtain ⟨s,opened,fork⟩ : ∃ s, Remote.new payloadEncoding .earliest chainNode Remote.sampleOptions Remote.noCaches
      (Sqlite.fresh .inMemory) = .ok s ∧ s.forkHeight = 5 := ⟨_,rfl,rfl⟩
  have new : ∃ header, chainNode.getBlockHeaderByHeight s.forkHeight = .ok header ∧
      newBlockchain payloadEncoding machine config (Remote.backend payloadEncoding .earliest chainNode .earliest) tick false s =
        .ok ⟨s,newPendingBlock payloadEncoding tick header.block,zeroID,false⟩ ∧
      Local payloadEncoding machine config [] [] s.forkHeight
        ⟨s,newPendingBlock payloadEncoding tick header.block,zeroID,false⟩ := local_new sample_serves opened tick false
  obtain ⟨header,answer,started,first⟩ := new
  rw [fork] at answer first
  have same : headerOf payloadEncoding forkBlock = header := Except.ok.inj answer
  subst same
  obtain ⟨c,middle,sealed,counted,storage,block⟩ := sealBlock_ok payloadEncoding
    (Remote.backend payloadEncoding .earliest chainNode .earliest)
    (b := ⟨s,newPendingBlock payloadEncoding tick (headerOf payloadEncoding forkBlock).block,zeroID,false⟩) rfl rfl rfl
  obtain ⟨after,committed,longer⟩ := local_commit first tick rfl sealed storage counted
  have height : c.block.height = 6 := by rw [block]; rfl
  rw [height] at longer
  exact ⟨_,c,after,⟨.inMemory,Remote.noCaches,s,tick,false,opened,started⟩,first,committed,block,longer⟩

/-- The block of the fork height is found by its identifier with another one, the
    first local block has this other one as its parent, and by the identifier of the
    remote block above the fork height the local block is found. -/
theorem payload_changes_identity : ∃ b after found block own,
    Reached payloadEncoding machine config .earliest chainNode Remote.sampleOptions .earliest Requested b ∧
    (Remote.backend payloadEncoding .earliest chainNode .earliest).blockByID (payloadEncoding.blockID forkBlock) b.storage =
      .ok found ∧ payloadEncoding.blockID found ≠ payloadEncoding.blockID forkBlock ∧
    commitBlock payloadEncoding machine config (Remote.backend payloadEncoding .earliest chainNode .earliest) tick b =
      (.ok block,after) ∧ block.parentID ≠ payloadEncoding.blockID forkBlock ∧
    (Remote.backend payloadEncoding .earliest chainNode .earliest).blockByID (payloadEncoding.blockID highBlock)
      after.storage = .ok own ∧ payloadEncoding.blockID own ≠ payloadEncoding.blockID highBlock := by
  obtain ⟨b,c,after,started,first,run,block,longer⟩ := sample_forked
  have found : Remote.blockByID payloadEncoding .earliest chainNode (payloadEncoding.blockID forkBlock) b.storage =
    .ok (rebuilt forkBlock) := blockByID_rebuilt first (Nat.le_refl 5) rfl rfl
  have covered : Remote.blockByID payloadEncoding .earliest chainNode (payloadEncoding.blockID highBlock) after.storage =
      .ok c.block := by
    have height : c.block.height = 6 := by rw [block]; rfl
    have own : ownBlock payloadEncoding .earliest c.block.height after.storage = .ok c.block :=
      local_ownBlock longer List.mem_cons_self
    rw [height] at own
    rw [blockByID_asked longer (fun d only => by rw [List.mem_singleton.mp only,block]; decide)]
    exact blockByHeight_own own
  refine ⟨b,after,_,_,_,reachable_initial started,found,by decide,run,?_,covered,?_⟩
  · rw [block]
    decide
  · rw [block]
    decide

theorem fork_identity_iff_bare : Serves payloadEncoding chainNode sampleChain ∧ CollisionFree payloadEncoding sampleChain ∧
    ∃ b block, Reached payloadEncoding machine config .earliest chainNode Remote.sampleOptions .earliest (fun _ _ => True) b ∧
      (Remote.backend payloadEncoding .earliest chainNode .earliest).blockByID (payloadEncoding.blockID lowBlock) b.storage =
        .ok block ∧ payloadEncoding.blockID block = payloadEncoding.blockID lowBlock := by
  obtain ⟨b,_,_,started,first,_⟩ := sample_forked
  have found : Remote.blockByID payloadEncoding .earliest chainNode (payloadEncoding.blockID lowBlock) b.storage =
    .ok (rebuilt lowBlock) := blockByID_rebuilt first (Nat.le_succ 4) rfl rfl
  have reached : Reached payloadEncoding machine config .earliest chainNode Remote.sampleOptions .earliest (fun _ _ => True) b :=
    reachable_initial started
  refine ⟨sample_serves,sample_collisionFree,b,_,reached,found,?_⟩
  exact ((fork_identity_iff sample_serves sample_collisionFree).1 b reached _ _ found).mpr
    (.inr ⟨lowBlock,List.mem_cons_self,rfl,⟨rfl,rfl⟩,local_none first 4⟩)

end
end FlowEmulator.ForkIdentity
