import FlowEmulator.Memstore
import FlowEmulator.Samples
import FlowEmulator.Shape

/-!
The store in memory and the store over SQL agree. After a chain of blocks of the
shape the emulator produces, each map in memory is the list of all records of its
kind (`Kept`), each table holds the same records (`Files`), and both ledgers
read the last write up to a height; so every read answers the same.
-/
namespace FlowEmulator.Memstore
open FlowEmulator.Text FlowEmulator.Keys FlowEmulator.Fallible FlowEmulator.VersionedTable FlowEmulator.Run

section
variable {τ : Type} (E : Encoding) (T : SnapshotTree τ) (static : Identifier → Bool)

/-- The store in memory after some blocks. -/
def run (cs : List BlockContents) : Store τ := play (fun c s => ((store E T).saveBlock E static c s).2) cs new

/-- The maps hold the records of the blocks and nothing else. -/
structure Kept (cs : List BlockContents) (s : Store τ) : Prop where
  blockIDToHeight : s.blockIDToHeight = assign (fun _ => none) (cs.flatMap (blockIndexRecords E))
  blocks : s.blocks = assign (fun _ => none) (cs.flatMap blockRecords)
  collections : s.collections = assign (fun _ => none) (cs.flatMap (collectionRecords E))
  transactions : s.transactions = assign (fun _ => none) (cs.flatMap transactionRecords)
  systemTransactions : s.systemTransactions = assign (fun _ => none) (cs.flatMap (systemRecords E))
  scheduledTransactionIndex : s.scheduledTransactionIndex = assign (fun _ => none) (cs.flatMap (scheduledRecords E))
  scheduledTransactionBlockIndex : s.scheduledTransactionBlockIndex =
    assign (fun _ => none) (cs.flatMap (scheduledBlockRecords E static))
  transactionResults : s.transactionResults = assign (fun _ => none) (cs.flatMap resultRecords)
  systemTransactionResults : s.systemTransactionResults = assign (fun _ => none) (cs.flatMap (systemResultRecords E))
  eventsByBlockHeight : s.eventsByBlockHeight = assign (fun _ => none) (cs.flatMap eventRecords)
  blockHeight : s.blockHeight = cs.length-1
  unwritten : ∀ height, cs.length ≤ height → s.ledger height = none
  ledger : ∀ height, height < cs.length →
    ∃ tree, s.ledger height = some tree ∧ ∀ r, T.get tree r = (lastWrite (writesAt cs r) height).getD []

private theorem kept_new : Kept E T static [] new := by
  refine ⟨rfl,rfl,rfl,rfl,rfl,rfl,rfl,rfl,rfl,rfl,rfl,fun _ _ => rfl,fun _ low => ?_⟩
  cases low

private theorem assign_snoc {K V : Type} [DecidableEq K] {f : K → Option V} {records : BlockContents → List (K × V)}
    {cs : List BlockContents} (kept : f = assign (fun _ => none) (cs.flatMap records)) (c : BlockContents) :
    assign f (records c) = assign (fun _ => none) ((cs ++ [c]).flatMap records) := by
  rw [List.flatMap_append,assign_append,← kept,List.flatMap_singleton]

theorem writesAt_append_left {cs : List BlockContents} {height : Nat} (low : height < cs.length) (c : BlockContents)
    (r : RegisterID) : writesAt (cs ++ [c]) r height = writesAt cs r height := by
  unfold writesAt
  rw [List.getElem?_append_left low]

theorem writesAt_append_right (cs : List BlockContents) (c : BlockContents) (r : RegisterID) :
    writesAt (cs ++ [c]) r cs.length = c.executionSnapshot.lookup r := by
  unfold writesAt
  rw [List.getElem?_concat_length]
  rfl

/-- The tree at the next height reads the last write up to it. -/
private theorem ledger_next {cs : List BlockContents} {s : Store τ} (kept : Kept E T static cs s) (c : BlockContents)
    (r : RegisterID) :
    T.get (T.append ((s.ledger (before cs.length)).getD T.empty) c.executionSnapshot) r =
      (lastWrite (writesAt (cs ++ [c]) r) cs.length).getD [] := by
  rw [T.get_append,← writesAt_append_right cs c r]
  cases length : cs.length with
  | zero =>
    have none : s.ledger (before 0) = none := kept.unwritten _ (by omega)
    rw [none,Option.getD_none,T.get_empty]
    rfl
  | succ n =>
    obtain ⟨tree,here,reads⟩ := kept.ledger n (by omega)
    have previous : before (n+1) = n := rfl
    have same : lastWrite (writesAt (cs ++ [c]) r) n = lastWrite (writesAt cs r) n :=
      lastWrite_congr (fun m low => writesAt_append_left (by omega) c r)
    rw [previous,here,Option.getD_some,reads,lastWrite,same]
    cases writesAt (cs ++ [c]) r (n+1) <;> rfl

private theorem kept_saved {cs : List BlockContents} {s : Store τ} (kept : Kept E T static cs s) {c : BlockContents}
    (next : c.block.height = cs.length) (low : ∀ d ∈ cs, d.block.height < cs.length) :
    Kept E T static (cs ++ [c]) (saved E T static c s) := by
  have noEvents : s.eventsByBlockHeight c.block.height = none := by
    rw [kept.eventsByBlockHeight,assign_fresh]
    intro events member
    obtain ⟨d,here,same⟩ := List.mem_flatMap.mp member
    have below := low d here
    have height : c.block.height = d.block.height := congrArg Prod.fst (List.mem_singleton.mp same)
    omega
  refine ⟨assign_snoc kept.blockIDToHeight c,assign_snoc kept.blocks c,assign_snoc kept.collections c,
    assign_snoc kept.transactions c,assign_snoc kept.systemTransactions c,assign_snoc kept.scheduledTransactionIndex c,
    assign_snoc kept.scheduledTransactionBlockIndex c,assign_snoc kept.transactionResults c,
    assign_snoc kept.systemTransactionResults c,?_,?_,?_,?_⟩
  · show Function.update s.eventsByBlockHeight c.block.height (some (addEvents _ c.events)) = _
    rw [noEvents]
    exact assign_snoc kept.eventsByBlockHeight c
  · show (if s.blockHeight < c.block.height then c.block.height else s.blockHeight) = _
    rw [kept.blockHeight,List.length_append,List.length_singleton]
    split <;> omega
  · intro height above
    rw [List.length_append,List.length_singleton] at above
    show Function.update s.ledger c.block.height _ height = none
    rw [Function.update_of_ne (by omega)]
    exact kept.unwritten height (by omega)
  · intro height inside
    rw [List.length_append,List.length_singleton] at inside
    show ∃ tree, Function.update s.ledger c.block.height _ height = some tree ∧ _
    by_cases last : height = cs.length
    · subst last
      rw [next,Function.update_self]
      exact ⟨_,rfl,ledger_next E T static kept c⟩
    · obtain ⟨tree,here,reads⟩ := kept.ledger height (by omega)
      refine ⟨tree,by rw [Function.update_of_ne (by omega)]; exact here,fun r => ?_⟩
      rw [reads]
      congr 1
      exact lastWrite_congr (fun m below => (writesAt_append_left (by omega) c r).symm)

/-- After a chain of blocks the maps hold their records. -/
theorem kept_run {cs : List BlockContents} (chain : Chain 0 cs) : Kept E T static cs (run E T static cs) := by
  induction cs using List.reverseRecOn with
  | nil => exact kept_new E T static
  | append_singleton front c ih =>
    obtain ⟨frontChain,height,counted,_⟩ := chain_append.mp chain
    rw [Nat.zero_add] at height
    unfold run at ih ⊢
    rw [play_append]
    show Kept E T static _ ((store E T).saveBlock E static c (play _ front new)).2
    rw [saveBlock_run E T static c counted]
    refine kept_saved E T static (ih frontChain) height (fun d member => ?_)
    obtain ⟨i,here⟩ := List.mem_iff_getElem?.mp member
    have position := (chain_getElem frontChain here).1
    obtain ⟨inside,_⟩ := List.getElem?_eq_some_iff.mp here
    omega

end
end FlowEmulator.Memstore

namespace FlowEmulator.DefaultStore
open FlowEmulator.Text FlowEmulator.Keys FlowEmulator.VersionedTable

/-- Every key of a store has the last value that some blocks wrote under it. The
    versions of the ledger and the global entries are not meant. -/
def Files {σ : Type} (E : Encoding) (static : Identifier → Bool) (cs : List BlockContents) (D : DataStore σ) (s : σ) : Prop :=
  ∀ name, name ≠ .ledger → name ≠ .global → ∀ key, D.getBytes name key s =
    found (assign (fun _ => none) (cs.flatMap fun c => (savedTo E static 0 c name).map fun w => (w.key,w.value)) key)

section
variable {σ : Type} {E : Encoding} {static : Identifier → Bool} {cs : List BlockContents} {D : DataStore σ} {s : σ}
  (files : Files E static cs D s)
include files

/-- A value read through its decoder is the last record under its key. -/
theorem files_read {ι α : Type} [DecidableEq ι] {name : StoreName} (plain : name ≠ .ledger) (proper : name ≠ .global)
    {key : Bytes} {encode : α → Bytes} {decode : Bytes → Except StoreError α} (decode_encode : ∀ a, decode (encode a) = .ok a)
    {records : BlockContents → List (ι × α)} {i : ι}
    (writes : ∀ c, ((savedTo E static 0 c name).filter fun w => decide (w.key = key)).map Write.value =
      ((records c).filter fun entry => decide (entry.1 = i)).map fun entry => encode entry.2) :
    (D.getBytes name key s).bind decode = found (assign (fun _ => none) (cs.flatMap records) i) := by
  have image : assign (fun _ => none) (cs.flatMap fun c => (savedTo E static 0 c name).map fun w => (w.key,w.value)) key =
      (assign (fun _ => none) (cs.flatMap records) i).map encode := by
    refine assign_image ?_
    rw [List.filter_flatMap,List.filter_flatMap,List.map_flatMap,List.map_flatMap]
    refine List.flatMap_congr fun c _ => ?_
    rw [List.filter_map,List.map_map]
    exact writes c
  rw [files name plain proper,image]
  cases assign (fun _ => none) (cs.flatMap records) i with
  | none => rfl
  | some a => exact decode_encode a

/-- The same where each block writes its records under keys of their own. -/
theorem files_read_map {ι α : Type} [DecidableEq ι] {name : StoreName} (plain : name ≠ .ledger) (proper : name ≠ .global)
    {key : ι → Bytes} (injective : Function.Injective key) {encode : α → Bytes} {decode : Bytes → Except StoreError α}
    (decode_encode : ∀ a, decode (encode a) = .ok a) {records : BlockContents → List (ι × α)}
    (writes : ∀ c, savedTo E static 0 c name = (records c).map fun entry => .plain name (key entry.1) (encode entry.2)) (i : ι) :
    (D.getBytes name (key i) s).bind decode = found (assign (fun _ => none) (cs.flatMap records) i) := by
  refine files_read files plain proper decode_encode fun c => ?_
  rw [writes,List.filter_map,List.map_map]
  simp [Function.comp_def,Write.key,Write.value,injective.eq_iff]

theorem files_blocks (height : Nat) : blockByHeight E D height s =
    found (assign (fun _ => none) (cs.flatMap Memstore.blockRecords) height) :=
  files_read_map files (by decide) (by decide) blockHeight_injective (decode_encode E.block) (fun _ => rfl) height

theorem files_blockIndex (id : Identifier) : (D.getBytes .blockIndex (identifier id) s).bind (decode E.uint64) =
    found (assign (fun _ => none) (cs.flatMap (Memstore.blockIndexRecords E)) id) :=
  files_read_map files (by decide) (by decide) identifier_injective (decode_encode E.uint64) (fun _ => rfl) id

theorem files_transactions (id : Identifier) : transactionByID E D id s =
    found (assign (fun _ => none) (cs.flatMap Memstore.transactionRecords) id) := by
  refine files_read_map files (by decide) (by decide) identifier_injective (decode_encode E.transaction) (fun c => ?_) id
  rw [Memstore.transactionRecords,List.map_append,Memstore.pairs,Memstore.pairs,List.map_map,List.map_map]
  rfl

theorem files_collections (id : Identifier) : collectionByID E D id s =
    found (assign (fun _ => none) (cs.flatMap (Memstore.collectionRecords E)) id) := by
  refine files_read_map files (by decide) (by decide) identifier_injective (decode_encode E.collection) (fun c => ?_) id
  simp [savedTo,committedTo,collectionWrites,Memstore.collectionRecords]

theorem files_systemTransactions (id : Identifier) : systemTransactionsForBlockID E D id s =
    found (assign (fun _ => none) (cs.flatMap (Memstore.systemRecords E)) id) := by
  refine files_read_map files (by decide) (by decide) identifier_injective (decode_encode E.systemTransactions) (fun c => ?_) id
  show systemWrites E c = _
  unfold systemWrites Memstore.systemRecords
  split <;> rfl

theorem files_scheduled (scheduledTxID : Nat) : blockIDByScheduledTransactionID D scheduledTxID s =
    found (assign (fun _ => none) (cs.flatMap (Memstore.scheduledRecords E)) scheduledTxID) := by
  refine files_read_map files (by decide) (by decide) scheduledTransactionID_injective blockIDOfBytes_bytes (fun c => ?_) _
  simp [savedTo,scheduledIndexWrites,Memstore.scheduledRecords]

theorem files_scheduledBlock (id : Identifier) : scheduledTransactionBlockIDByTxID D id s =
    found (assign (fun _ => none) (cs.flatMap (Memstore.scheduledBlockRecords E static)) id) := by
  refine files_read_map files (by decide) (by decide) identifier_injective blockIDOfBytes_bytes (fun c => ?_) id
  simp [savedTo,scheduledBlockIndexWrites,Memstore.scheduledBlockRecords]

/-- The results of users and of the system share a store, under keys of two kinds. -/
theorem files_results (id : Identifier) : transactionResultByID E D id s =
    found (assign (fun _ => none) (cs.flatMap Memstore.resultRecords) id) := by
  refine files_read files (by decide) (by decide) (decode_encode E.transactionResult) fun c => ?_
  have system (entry : Sigma fun _ : Identifier => StorableTransactionResult) :
      ¬ systemTransactionResult (E.blockID c.block) entry.1 = identifier id :=
    (identifier_ne_systemTransactionResult id _ _).symm
  simp [savedTo,committedTo,resultWrites,systemResultWrites,Memstore.resultRecords,Memstore.pairs,List.filter_map,
    Function.comp_def,Write.key,Write.value,identifier_injective.eq_iff,system]

theorem files_systemResults (blockID txID : Identifier) : systemTransactionResultByID E D blockID txID s =
    found (assign (fun _ => none) (cs.flatMap (Memstore.systemResultRecords E)) (systemTransactionResult blockID txID)) := by
  refine files_read files (by decide) (by decide) (decode_encode E.transactionResult) fun c => ?_
  have user (entry : Sigma fun _ : Identifier => StorableTransactionResult) :
      ¬ identifier entry.1 = systemTransactionResult blockID txID := identifier_ne_systemTransactionResult _ _ _
  simp [savedTo,committedTo,resultWrites,systemResultWrites,Memstore.systemResultRecords,List.filter_map,
    Function.comp_def,Write.key,Write.value,user]
  rfl

theorem files_events (height : Nat) (eventType : String) : eventsByHeight E D height eventType s =
    .ok (eventsOfType eventType ((assign (fun _ => none) (cs.flatMap Memstore.eventRecords) height).getD [])) :=
  eventsByHeight_read (files_read_map files (by decide) (by decide) blockHeight_injective (decode_encode E.events)
    (fun _ => rfl) height) eventType

end
end FlowEmulator.DefaultStore

namespace FlowEmulator.Sqlite
open FlowEmulator.Text FlowEmulator.Keys FlowEmulator.Fallible FlowEmulator.VersionedTable FlowEmulator.DefaultStore

/-- Tables that hold the blocks of a chain of the shape have their values under every key. -/
theorem held_files {E : Encoding} {static : Identifier → Bool} {first : Nat} {cs : List BlockContents} {s : Store}
    (chain : Chain first cs) (shaped : Shaped E static cs)
    (held : ∀ name, name ≠ .global → Held (fun c => savedTo E static 0 c name) cs (s.database name)) (choices : Choices) :
    Files E static cs (dataStore choices) s := by
  intro name plain proper key
  have unversioned {c : BlockContents} {w : Write} (written : w ∈ savedTo E static 0 c name) : w.version = 0 :=
    savedTo_version plain written
  show selectAtVersion choices name key 0 s = _
  rcases assign_cases (fun _ => none) (cs.flatMap fun c => (savedTo E static 0 c name).map fun w => (w.key,w.value)) key with
    ⟨value,member,read⟩ | ⟨absent,read⟩
  · obtain ⟨c,here,inside⟩ := List.mem_flatMap.mp member
    obtain ⟨w,written,same⟩ := List.mem_map.mp inside
    cases same
    rw [read,held_written (held name proper) (shaped_agreeing shaped chain proper) here written (unversioned written).le
      (fun d there v other _ _ => (unversioned other).le.trans (Nat.zero_le _))]
    rfl
  · rw [read,held_unwritten (held name proper) fun c here w written same => ?_]
    · rfl
    · exact absurd (List.mem_flatMap.mpr ⟨c,here,List.mem_map.mpr ⟨w,written,congrArg (·,w.value) same⟩⟩) (absent w.value)

section
variable {E : Encoding} {static : Identifier → Bool} {cs : List BlockContents} (chain : Chain 0 cs)
  (shaped : Shaped E static cs) (choices : Choices) (url : Url)
include chain

theorem saved_held {name : StoreName} (proper : name ≠ .global) :
    Held (fun c => savedTo E static 0 c name) cs
      ((run ((store E choices).saveBlock E static) cs (fresh url)).database name) :=
  run_held (commits_saveBlock E choices static) (writesTo_saveWrites_fixed E proper static) chain url

include shaped in
theorem saved_files : Files E static cs (dataStore choices) (run ((store E choices).saveBlock E static) cs (fresh url)) :=
  held_files chain shaped (fun _ proper => saved_held chain choices url proper) choices

theorem ledger_read (height : Nat) (r : RegisterID) :
    ledgerByHeight E (dataStore choices) height r (run ((store E choices).saveBlock E static) cs (fresh url)) =
      .ok ((lastWrite (writesAt cs r) height).getD []) := by
  have held : Held (fun c => savedTo E static 0 c .ledger) cs _ := saved_held chain choices url (by decide)
  exact held_ledger held chain height r

end
end FlowEmulator.Sqlite

namespace FlowEmulator
open FlowEmulator.Text FlowEmulator.Keys FlowEmulator.Fallible FlowEmulator.VersionedTable FlowEmulator.DefaultStore

/-- Ledgers are asked for heights of blocks; other reads are not restricted. -/
def Query.UpTo (count : Nat) : Query → Prop
  | .ledgerByHeight height _ => height < count
  | _ => True

section
variable {E : Encoding} {static : Identifier → Bool} {cs : List BlockContents} (chain : Chain 0 cs) (choices : Sqlite.Choices)
  (url : Sqlite.Url)

theorem block_of_height {height : Nat} {block : Block}
    (stored : assign (fun _ => none) (cs.flatMap Memstore.blockRecords) height = some block) : block.height = height := by
  rcases assign_cases (fun _ => none) (cs.flatMap Memstore.blockRecords) height with ⟨other,member,read⟩ | ⟨_,read⟩
  · obtain ⟨c,_,inside⟩ := List.mem_flatMap.mp member
    rw [read] at stored
    cases stored
    cases List.mem_singleton.mp inside
    rfl
  · rw [read] at stored
    cases stored

/-- There is a block at the height of each block. -/
theorem block_recorded {c : BlockContents} (here : c ∈ cs) :
    ∃ block, assign (fun _ => none) (cs.flatMap Memstore.blockRecords) c.block.height = some block := by
  rcases assign_cases (fun _ => none) (cs.flatMap Memstore.blockRecords) c.block.height with ⟨block,_,read⟩ | ⟨absent,_⟩
  · exact ⟨block,read⟩
  · exact absurd (List.mem_flatMap.mpr ⟨c,here,List.mem_singleton_self _⟩) (absent c.block)

include chain

theorem top_recorded (begun : cs ≠ []) :
    (found (assign (fun _ => none) (cs.flatMap Memstore.blockRecords) (cs.length-1))).map Block.height = .ok (cs.length-1) := by
  have positive : 0 < cs.length := List.length_pos_iff.mpr begun
  have last : cs[cs.length-1]? = some cs[cs.length-1] := List.getElem?_eq_getElem (by omega)
  have height := (chain_getElem chain last).1
  rw [Nat.zero_add] at height
  obtain ⟨block,stored⟩ := block_recorded (List.mem_of_getElem? last)
  rw [height] at stored
  rw [stored]
  exact congrArg Except.ok (block_of_height stored)

theorem latestHeight_agree :
    latestBlockHeight E (Sqlite.dataStore choices)
        (Sqlite.run ((Sqlite.store E choices).saveBlock E static) cs (Sqlite.fresh url)) =
      (found (assign (fun _ => none) (cs.flatMap Memstore.blockRecords) (cs.length-1))).map Block.height := by
  by_cases none : cs = []
  · subst none
    exact Sqlite.tip_latestBlockHeight (Sqlite.fresh_tip E url) choices
  · obtain ⟨tip,_⟩ := Sqlite.run_tip (Sqlite.commits_saveBlock E choices static) chain (Sqlite.fresh_tip E url)
      (Nat.le_refl 0) none
    rw [Nat.zero_add] at tip
    rw [Sqlite.tip_latestBlockHeight tip choices,top_recorded chain none]
    rfl

end

/-- Ledgers are asked for at the latest height only; other reads are not restricted. -/
def Query.Current (latest : Nat) : Query → Prop
  | .ledgerByHeight height _ => height = latest
  | _ => True

/-- A store with the values of some blocks is read as the store in memory with
    their records, where its latest height and its ledger are. -/
theorem kept_answers {τ σ : Type} {E : Encoding} {T : Memstore.SnapshotTree τ} {static : Identifier → Bool}
    {cs : List BlockContents} {m : Memstore.Store τ} (kept : Memstore.Kept E T static cs m) {D : DataStore σ} {s : σ}
    (files : Files E static cs D s) (latest : latestBlockHeight E D s =
      (found (assign (fun _ => none) (cs.flatMap Memstore.blockRecords) (cs.length-1))).map Block.height) {query : Query}
    (ledger : ∀ height r, query = .ledgerByHeight height r → height < cs.length ∧
      ledgerByHeight E D height r s = .ok ((lastWrite (writesAt cs r) height).getD [])) :
    (Memstore.store E T).answer query m = (store E D).answer query s := by
  have blocks : (fun height => blockByHeight E D height s) = fun height => found (m.blocks height) := by
    funext height
    rw [kept.blocks]
    exact files_blocks files height
  cases query with
  | latestBlockHeight =>
    show (found (m.blocks m.blockHeight)).map Block.height = latestBlockHeight E D s
    rw [latest,kept.blockHeight,kept.blocks]
  | latestBlock =>
    show found (m.blocks m.blockHeight) = (latestBlockHeight E D s).bind fun height => blockByHeight E D height s
    rw [latest,blocks,kept.blockHeight,kept.blocks]
    cases stored : assign (fun _ => none) (cs.flatMap Memstore.blockRecords) (cs.length-1) with
    | none => rfl
    | some block =>
      show found (some block) = found (assign (fun _ => none) (cs.flatMap Memstore.blockRecords) block.height)
      rw [block_of_height stored,stored]
  | blockByID id =>
    show (found (m.blockIDToHeight id)).bind (fun height => found (m.blocks height)) =
      (Except.bind _ _).bind fun height => blockByHeight E D height s
    rw [files_blockIndex files,kept.blockIDToHeight,blocks]
  | blockByHeight height => exact (congrFun blocks height).symm
  | systemTransactionsForBlockID id =>
    exact (congrArg (fun map => found (map id)) kept.systemTransactions).trans (files_systemTransactions files id).symm
  | blockIDByScheduledTransactionID id =>
    exact (congrArg (fun map => found (map id)) kept.scheduledTransactionIndex).trans (files_scheduled files id).symm
  | scheduledTransactionBlockIDByTxID id =>
    exact (congrArg (fun map => found (map id)) kept.scheduledTransactionBlockIndex).trans (files_scheduledBlock files id).symm
  | collectionByID id => exact (congrArg (fun map => found (map id)) kept.collections).trans (files_collections files id).symm
  | fullCollectionByID id =>
    show (found (m.collections id)).bind (fun light => light.transactions.mapM fun txID => found (m.transactions txID)) =
      (collectionByID E D id s).bind fun light => light.transactions.mapM fun txID => transactionByID E D txID s
    rw [files_collections files,kept.collections,kept.transactions,funext (files_transactions files)]
  | transactionByID id => exact (congrArg (fun map => found (map id)) kept.transactions).trans (files_transactions files id).symm
  | transactionResultByID id =>
    exact (congrArg (fun map => found (map id)) kept.transactionResults).trans (files_results files id).symm
  | systemTransactionResultByID blockID txID =>
    exact (congrArg (fun map => found (map (systemTransactionResult blockID txID))) kept.systemTransactionResults).trans
      (files_systemResults files blockID txID).symm
  | ledgerByHeight height r =>
    obtain ⟨low,read⟩ := ledger height r rfl
    obtain ⟨tree,here,value⟩ := kept.ledger height low
    refine Eq.trans ?_ read.symm
    show Except.ok (T.get ((m.ledger height).getD T.empty) r) = _
    rw [here,Option.getD_some,value]
  | eventsByHeight height eventType =>
    exact (congrArg (fun map => Except.ok (eventsOfType eventType ((map height).getD []))) kept.eventsByBlockHeight).trans
      (files_events files height eventType).symm

/-- After any chain of blocks of the shape the emulator produces, every read
    answers the same in memory and over SQL, whichever rows are taken, and the
    value of a register is that of the last write up to the height. -/
theorem memstore_agrees {τ : Type} (E : Encoding) (T : Memstore.SnapshotTree τ) (static : Identifier → Bool)
    (choices : Sqlite.Choices) (url : Sqlite.Url) (cs : List BlockContents) (chain : Chain 0 cs)
    (shaped : Shaped E static cs) :
    (∀ query, query.UpTo cs.length → (Memstore.store E T).answer query (Memstore.run E T static cs) =
      (Sqlite.store E choices).answer query
        (Sqlite.run ((Sqlite.store E choices).saveBlock E static) cs (Sqlite.fresh url))) ∧
    ∀ height r, height < cs.length → (Memstore.store E T).ledgerByHeight height r (Memstore.run E T static cs) =
      .ok ((lastWrite (writesAt cs r) height).getD []) := by
  have kept := Memstore.kept_run E T static chain
  have ledger (height : Nat) (r : RegisterID) (inside : height < cs.length) :
      (Memstore.store E T).ledgerByHeight height r (Memstore.run E T static cs) =
        .ok ((lastWrite (writesAt cs r) height).getD []) := by
    obtain ⟨tree,here,reads⟩ := kept.ledger height inside
    show Except.ok (T.get (((Memstore.run E T static cs).ledger height).getD T.empty) r) = _
    rw [here,Option.getD_some,reads]
  refine ⟨fun query inside => ?_,ledger⟩
  refine kept_answers kept (Sqlite.saved_files chain shaped choices url) (latestHeight_agree chain choices url) fun height r same => ?_
  subst same
  exact ⟨inside,Sqlite.ledger_read chain choices url height r⟩

theorem memstore_agrees_two_blocks :
    (Memstore.store Samples.encoding .ofLists).latestBlock (Memstore.run Samples.encoding .ofLists (fun _ => true)
        [Samples.systemContents 0,Samples.systemContents 1]) =
      (Sqlite.store Samples.encoding .earliest).latestBlock (Sqlite.run
        ((Sqlite.store Samples.encoding .earliest).saveBlock Samples.encoding (fun _ => true))
        [Samples.systemContents 0,Samples.systemContents 1] (Sqlite.fresh .inMemory)) := by
  refine (memstore_agrees Samples.encoding .ofLists (fun _ => true) .earliest .inMemory
    [Samples.systemContents 0,Samples.systemContents 1] ⟨rfl,by decide,rfl,by decide,trivial⟩ ?_).1 .latestBlock trivial
  refine ⟨by decide,by decide,by decide,by decide,by decide,by decide,?_⟩
  intro c here d _ entry member
  have empty : c.systemTransactionBodies.entries = [] := by
    rcases List.mem_cons.mp here with rfl | later
    · rfl
    · rw [List.mem_singleton.mp later]; rfl
  rw [empty] at member
  cases member

end FlowEmulator
