import FlowEmulator.Emulator
import FlowEmulator.Recorded
import FlowEmulator.Samples
import Mathlib.Data.List.Chain

/-!
The chain of an emulator over the SQL store, in whole runs of requests,
rollbacks and restarts. The blocks are recorded by height and by identifier, each
follows the one before it, and the pending block comes next.
-/
namespace FlowEmulator
open FlowEmulator.Fallible FlowEmulator.DefaultStore FlowEmulator.Run

/-- The emulator's view of the SQL store. -/
def Sqlite.backend (E : Encoding) (choices : Sqlite.Choices) : Backend Sqlite.Store :=
  { Sqlite.store E choices with
    rollbackProvider := some (Sqlite.rollbackToBlockHeight E choices)
    supportSnapshots := Sqlite.supportSnapshotsWithCurrentConfig
    createSnapshot := Sqlite.createSnapshot
    loadSnapshot := Sqlite.loadSnapshot }

namespace LinkedChain
open FlowEmulator.Blockchain
open FlowEmulator.Sqlite (Choices Recorded)

/-- A block is built on another one. -/
structure Follows (E : Encoding) (prev next : Block) : Prop where
  parentID : next.parentID = E.blockID prev
  later : prev.view < next.view
  bounded : next.view ≤ prev.view+maxViewIncrease

/-- The pending block is built on a block. -/
structure Next (E : Encoding) (prev : Block) (p : PendingBlock) : Prop where
  height : p.height = prev.height+1
  parentID : p.parentID = E.blockID prev
  later : prev.view < p.view
  bounded : p.view ≤ prev.view+maxViewIncrease

theorem next_new (E : Encoding) (tick : Tick) (prev : Block) : Next E prev (newPendingBlock E tick prev) := by
  have small := tick.view.isLt
  refine ⟨rfl,rfl,?_,?_⟩
  · show prev.view < prev.view+(tick.view+1)
    omega
  · show prev.view+(tick.view+1) ≤ prev.view+maxViewIncrease
    omega

theorem next_same {E : Encoding} {prev : Block} {p q : PendingBlock} (next : Next E prev p) (place : SamePlace p q) :
    Next E prev q := by
  refine ⟨?_,?_,?_,?_⟩
  · rw [place.height]; exact next.height
  · rw [place.parentID]; exact next.parentID
  · rw [place.view]; exact next.later
  · rw [place.view]; exact next.bounded

/-- A block at the place of a pending block follows what the pending block is built on. -/
theorem follows_placed {E : Encoding} {prev block : Block} {p : PendingBlock} (next : Next E prev p)
    (placed : Placed block p) : Follows E prev block := by
  refine ⟨?_,?_,?_⟩
  · rw [placed.parentID]; exact next.parentID
  · rw [placed.view]; exact next.later
  · rw [placed.view]; exact next.bounded

/-- The store of an emulator records a chain whose blocks follow each other, and
    the pending block comes next. -/
structure Grounded (E : Encoding) (cs : List BlockContents) (latest : Nat) (b : Blockchain Sqlite.Store) : Prop where
  recorded : Recorded E 0 none cs latest b.storage.database
  main : b.storage.db = .main
  current : b.storage.currentHeight ≤ latest
  linked : cs.IsChain fun c d => Follows E c.block d.block
  pending : ∃ last ∈ cs, last.block.height = latest ∧ Next E last.block b.pendingBlock

section
variable {E : Encoding} {M : Machine} {config : Config} {choices : Choices} {cs : List BlockContents} {latest : Nat}
  {b after : Blockchain Sqlite.Store}

theorem grounded_still (grounded : Grounded E cs latest b) (storage : after.storage = b.storage)
    (place : SamePlace b.pendingBlock after.pendingBlock) : Grounded E cs latest after := by
  obtain ⟨last,here,height,next⟩ := grounded.pending
  refine ⟨?_,?_,?_,grounded.linked,last,here,height,next_same next place⟩
  · rw [storage]; exact grounded.recorded
  · rw [storage]; exact grounded.main
  · rw [storage]; exact grounded.current

variable (choices) in
/-- The latest block of the store is the last of the chain. -/
theorem grounded_latestBlock (grounded : Grounded E cs latest b) :
    ∃ last ∈ cs, last.block.height = latest ∧ (Sqlite.backend E choices).latestBlock b.storage = .ok last.block :=
  Sqlite.recorded_latestBlock choices grounded.recorded (Nat.zero_le latest)

theorem grounded_new (grounded : Grounded E cs latest b) (tick : Tick) {block : Block}
    (found : (Sqlite.backend E choices).latestBlock b.storage = .ok block) (storage : after.storage = b.storage)
    (pending : after.pendingBlock = newPendingBlock E tick block) : Grounded E cs latest after := by
  obtain ⟨last,here,height,read⟩ := grounded_latestBlock choices grounded
  rw [found] at read
  cases read
  refine ⟨?_,?_,?_,grounded.linked,last,here,height,?_⟩
  · rw [storage]; exact grounded.recorded
  · rw [storage]; exact grounded.main
  · rw [storage]; exact grounded.current
  · rw [pending]; exact next_new E tick last.block

/-- A block saved at the place of the pending block is the next of the chain. -/
theorem grounded_saved (grounded : Grounded E cs latest b) {static : Identifier → Bool} {c : BlockContents}
    (placed : Placed c.block b.pendingBlock)
    (run : (Sqlite.store E choices).saveBlock E static c b.storage = (.ok (),after.storage)) (tick : Tick)
    (pending : after.pendingBlock = newPendingBlock E tick c.block) : Grounded E (cs ++ [c]) (latest+1) after := by
  obtain ⟨last,here,lastHeight,next⟩ := grounded.pending
  have height : c.block.height = latest+1 := by rw [placed.height,next.height,lastHeight]
  obtain ⟨counted,wrote⟩ := Sqlite.saved_wrote (Sqlite.recorded_tip grounded.recorded) run
  refine ⟨Sqlite.recorded_saved grounded.recorded counted height wrote,wrote.db.trans grounded.main,?_,?_,?_⟩
  · rw [wrote.currentHeight,height]
  · refine grounded.linked.append (List.isChain_singleton c) (fun before ends new only => ?_)
    cases only
    have beforeHeight := Sqlite.recorded_last grounded.recorded ends
    rw [chain_height_inj grounded.recorded.chain (List.mem_of_mem_getLast? ends) here (beforeHeight.trans lastHeight.symm)]
    exact follows_placed next placed
  · refine ⟨c,List.mem_append_right _ List.mem_cons_self,height,?_⟩
    rw [pending]
    exact next_new E tick c.block

/-- The emulator has a chain of blocks it had before, up to the latest one. -/
def Continues (E : Encoding) (cs : List BlockContents) (b : Blockchain Sqlite.Store) : Prop :=
  ∃ later latest, Grounded E later latest b ∧ ∀ c ∈ later, c ∈ cs ∨ c.block.height = latest

theorem continues_same (grounded : Grounded E cs latest b) : Continues E cs b :=
  ⟨cs,latest,grounded,fun _ here => .inl here⟩

/-- Every request keeps the chain or adds a block to it. -/
theorem continues_request (grounded : Grounded E cs latest b) (r : Request) :
    Continues E cs (request E M config (Sqlite.backend E choices) r b) := by
  cases request_effect r b with
  | still still => exact continues_same (grounded_still grounded still.storage still.place)
  | refused c e run place =>
    have storage := Sqlite.refused_same (Sqlite.recorded_tip grounded.recorded) run
    exact continues_same (grounded_still grounded storage place)
  | saved c tick placed run pending =>
    have longer := grounded_saved grounded placed run tick pending
    refine ⟨_,_,longer,fun d there => (List.mem_append.mp there).imp id (fun only => ?_)⟩
    exact Sqlite.recorded_last longer.recorded (by rw [List.mem_singleton.mp only]; simp)
  | reset tick block storage found pending => exact continues_same (grounded_new grounded tick found storage pending)

/-- A rollback cuts the chain, or changes nothing. -/
theorem continues_rollback (grounded : Grounded E cs latest b) (tick : Tick) (height : Nat) :
    Continues E cs (rollbackToBlockHeight E M config (Sqlite.backend E choices) tick height b).2 := by
  by_cases above : height < b.storage.currentHeight
  · obtain ⟨storage,run,rolled⟩ := Sqlite.rollback_run E choices above
    have below : height ≤ latest := by have := grounded.current; omega
    have recorded := Sqlite.recorded_rolledBack grounded.recorded rolled (Nat.zero_le _) below
    obtain ⟨last,here,lastHeight,found⟩ := Sqlite.recorded_latestBlock choices recorded (Nat.zero_le height)
    rw [rollback_ok tick rfl run found]
    refine ⟨_,height,⟨recorded,rolled.db.trans grounded.main,rolled.currentHeight.le,grounded.linked.take _,
      last,here,lastHeight,next_new E tick _⟩,fun c inside => .inl (List.mem_of_mem_take inside)⟩
  · rw [rollback_error tick rfl (Sqlite.rollback_refused (Nat.le_of_not_lt above))]
    exact continues_same grounded

variable (choices) in
theorem empty_latestBlock {s : Sqlite.Store} (tip : Sqlite.Tip E s none) :
    (Sqlite.backend E choices).latestBlock s = .error .notFound := by
  show DefaultStore.latestBlock E _ s = _
  unfold DefaultStore.latestBlock
  rw [Sqlite.tip_latestBlockHeight tip]
  rfl

/-- The first start on a store without blocks writes the first one. -/
theorem first_wrote {tick : Tick} {autoMine : Bool} {s : Sqlite.Store} (tip : Sqlite.Tip E s none)
    (started : newBlockchain E M config (Sqlite.backend E choices) tick autoMine s = .ok b) : ∃ writes events,
      M.bootstrap config.getChainID (fun id => (Sqlite.backend E choices).ledgerByHeight 0 id s) = .ok (writes,events) ∧
      Sqlite.Wrote (genesisContents M config writes events).block.height (commitWrites E 0 (genesisContents M config writes events)) s
        b.storage ∧
      b.pendingBlock = newPendingBlock E tick (genesis M config.getChainID) := by
  obtain ⟨writes,events,bootstrapped,run,pending⟩ := new_first (empty_latestBlock choices tip) started
  obtain ⟨after,done,wrote⟩ := (Sqlite.commits_commitBlock E choices).wrote (genesisContents M config writes events) s .none
    ⟨rfl,rfl⟩ tip
  have same : after = b.storage := (congrArg Prod.snd (done.symm.trans run) :)
  exact ⟨writes,events,bootstrapped,same ▸ wrote,pending⟩

/-- The first start on an empty store. -/
theorem continues_first {tick : Tick} {autoMine : Bool} {s : Sqlite.Store} (empty : ∀ name, s.database name = .empty)
    (main : s.db = .main) (started : newBlockchain E M config (Sqlite.backend E choices) tick autoMine s = .ok b) :
    Continues E cs b := by
  have tip : Sqlite.Tip E s none := ⟨fun _ => none,by rw [empty]; exact Sqlite.cells_empty,rfl⟩
  obtain ⟨writes,events,_,wrote,pending⟩ := first_wrote tip started
  refine ⟨_,0,⟨Sqlite.recorded_first empty ⟨rfl,rfl⟩ rfl wrote,wrote.db.trans main,wrote.currentHeight.le,
    List.isChain_singleton _,_,List.mem_cons_self,rfl,?_⟩,fun c only => .inr ?_⟩
  · rw [pending]
    exact next_new E tick _
  · rw [List.mem_singleton.mp only]
    rfl

/-- A restart finds the chain again, or begins a new one when the store was in memory. -/
theorem continues_restart (grounded : Grounded E cs latest b) (tick : Tick) (autoMine : Bool) :
    Continues E cs
      (restart E M config (Sqlite.backend E choices) (fun s => .ok (Sqlite.reopen s)) tick autoMine b) := by
  unfold restart
  dsimp only
  by_cases memory : b.storage.url = .inMemory
  · split
    · next started done =>
      rw [Sqlite.reopen_memory memory] at done
      exact continues_first (Sqlite.fresh_database b.storage.url) rfl done
    · exact continues_same grounded
  · have same := Sqlite.reopen_database grounded.main memory
    have recorded : Recorded E 0 none cs latest (Sqlite.reopen b.storage).database := by
      rw [same]
      exact grounded.recorded
    obtain ⟨last,here,height,found⟩ := Sqlite.recorded_latestBlock choices recorded (Nat.zero_le latest)
    rw [new_existing tick autoMine found]
    exact continues_same ⟨recorded,rfl,Nat.zero_le _,grounded.linked,last,here,height,next_new E tick _⟩

theorem continues_act (grounded : Grounded E cs latest b) {action : Action} (plain : action.plain = true) :
    Continues E cs (act E M config (Sqlite.backend E choices) (fun s => .ok (Sqlite.reopen s)) action b) := by
  cases action with
  | request r => exact continues_request grounded r
  | rollback tick height => exact continues_rollback grounded tick height
  | createSnapshot tick name => cases plain
  | loadSnapshot tick name => cases plain
  | restart tick autoMine => exact continues_restart grounded tick autoMine

end

/-! ### Whole runs -/

/-- An emulator, and the blocks that were the latest after its start or after an action. -/
structure Session where
  emulator : Blockchain Sqlite.Store
  history : List Block

section
variable (E : Encoding) (M : Machine) (config : Config) (choices : Choices)

def latestBlocks (b : Blockchain Sqlite.Store) : List Block :=
  match (Sqlite.backend E choices).latestBlock b.storage with
  | .ok block => [block]
  | .error _ => []

def begun (b : Blockchain Sqlite.Store) : Session := ⟨b,latestBlocks E choices b⟩

def step (action : Action) (x : Session) : Session :=
  let after := act E M config (Sqlite.backend E choices) (fun s => .ok (Sqlite.reopen s)) action x.emulator
  ⟨after,x.history ++ latestBlocks E choices after⟩

/-- The sessions that runs without snapshots reach from a first start on an empty store. -/
def Reached (x : Session) : Prop :=
  ∃ url tick autoMine b actions,
    newBlockchain E M config (Sqlite.backend E choices) tick autoMine (Sqlite.fresh url) = .ok b ∧
    (∀ action ∈ actions, Action.plain action = true) ∧ play (step E M config choices) actions (begun E choices b) = x

/-- The session has a chain, all blocks of which were once the latest. -/
def Kept (x : Session) : Prop :=
  ∃ cs latest, Grounded E cs latest x.emulator ∧ ∀ c ∈ cs, c.block ∈ x.history

end

section
variable {E : Encoding} {M : Machine} {config : Config} {choices : Choices}

theorem kept_continues {cs : List BlockContents} {history : List Block} {b : Blockchain Sqlite.Store}
    (continues : Continues E cs b) (known : ∀ c ∈ cs, c.block ∈ history) :
    Kept E ⟨b,history ++ latestBlocks E choices b⟩ := by
  obtain ⟨later,latest,grounded,parts⟩ := continues
  refine ⟨later,latest,grounded,fun c here => ?_⟩
  rcases parts c here with old | height
  · exact List.mem_append_left _ (known c old)
  · obtain ⟨last,there,lastHeight,found⟩ := grounded_latestBlock choices grounded
    obtain rfl := chain_height_inj grounded.recorded.chain here there (height.trans lastHeight.symm)
    refine List.mem_append_right _ ?_
    unfold latestBlocks
    rw [found]
    exact List.mem_cons_self

theorem kept_begun {url : Sqlite.Url} {tick : Tick} {autoMine : Bool} {b : Blockchain Sqlite.Store}
    (started : newBlockchain E M config (Sqlite.backend E choices) tick autoMine (Sqlite.fresh url) = .ok b) :
    Kept E (begun E choices b) := by
  have continues : Continues E [] b := continues_first (Sqlite.fresh_database url) rfl started
  show Kept E ⟨b,[] ++ latestBlocks E choices b⟩
  exact kept_continues continues (fun _ absent => absurd absent List.not_mem_nil)

theorem kept_step (x : Session) (action : Action) (kept : Kept E x) (plain : action.plain = true) :
    Kept E (step E M config choices action x) := by
  obtain ⟨cs,latest,grounded,known⟩ := kept
  exact kept_continues (continues_act grounded plain) known

theorem reached_kept {x : Session} (reached : Reached E M config choices x) : Kept E x := by
  obtain ⟨url,tick,autoMine,b,actions,started,plain,rfl⟩ := reached
  have throughout : Throughout (step E M config choices) (fun _ action => action.plain = true) actions
      (begun E choices b) := throughout_all plain
  exact play_keeps kept_step (kept_begun started) throughout

/-- The stored blocks have all heights up to the latest, each follows the one
    before it and is found by its identifier, blocks that were removed are not
    found, and the pending block is built on the latest block. -/
structure WellFormed {σ : Type} (E : Encoding) (B : Backend σ) (history : List Block) (b : Blockchain σ)
    (latest : Nat) : Prop where
  latestBlockHeight : B.latestBlockHeight b.storage = .ok latest
  present : ∀ height ≤ latest, ∃ block, B.blockByHeight height b.storage = .ok block ∧ block.height = height
  absent : ∀ height, latest < height → B.blockByHeight height b.storage = .error .notFound
  linked : ∀ height prev next, B.blockByHeight height b.storage = .ok prev →
    B.blockByHeight (height+1) b.storage = .ok next → Follows E prev next
  byID : ∀ height block, B.blockByHeight height b.storage = .ok block →
    B.blockByID (E.blockID block) b.storage = .ok block
  removed : ∀ block ∈ history, (∀ height, B.blockByHeight height b.storage ≠ .ok block) →
    B.blockByID (E.blockID block) b.storage = .error .notFound
  tip : ∃ block, B.latestBlock b.storage = .ok block ∧ B.blockByHeight latest b.storage = .ok block ∧
    b.pendingBlock.height = latest+1 ∧ b.pendingBlock.parentID = E.blockID block

/-- Consecutive blocks that are found follow each other. -/
theorem recorded_linked {cs : List BlockContents} {latest : Nat} {s : Sqlite.Store}
    (recorded : Recorded E 0 none cs latest s.database) (linked : cs.IsChain fun c d => Follows E c.block d.block) {height : Nat}
    {prev next : Block} (first : (Sqlite.backend E choices).blockByHeight height s = .ok prev)
    (second : (Sqlite.backend E choices).blockByHeight (height+1) s = .ok next) : Follows E prev next := by
  obtain ⟨c,here,rfl,cHeight⟩ := Sqlite.recorded_found choices recorded first
  obtain ⟨d,there,rfl,dHeight⟩ := Sqlite.recorded_found choices recorded second
  obtain ⟨i,atI⟩ := List.mem_iff_getElem?.mp here
  obtain ⟨j,atJ⟩ := List.mem_iff_getElem?.mp there
  have iHeight := (chain_getElem recorded.chain atI).1
  have jHeight := (chain_getElem recorded.chain atJ).1
  obtain rfl : j = i+1 := by omega
  obtain ⟨inside,rfl⟩ := List.getElem?_eq_some_iff.mp atJ
  obtain ⟨_,rfl⟩ := List.getElem?_eq_some_iff.mp atI
  exact linked.getElem i inside

/-- In every session that is reached the chain is well formed, when no two
    different blocks that were committed have one identifier. -/
theorem chain_wellFormed {x : Session} (reached : Reached E M config choices x)
    (collisionFree : ∀ left ∈ x.history, ∀ right ∈ x.history, E.blockID left = E.blockID right → left = right) :
    ∃ latest, WellFormed E (Sqlite.backend E choices) x.history x.emulator latest := by
  obtain ⟨cs,latest,grounded,known⟩ := reached_kept reached
  have recorded := grounded.recorded
  refine ⟨latest,Sqlite.recorded_latestBlockHeight choices recorded,?_,?_,?_,?_,?_,?_⟩
  · intro height low
    obtain ⟨c,here,rfl⟩ := Sqlite.recorded_at recorded (Nat.zero_le height) low
    exact ⟨c.block,Sqlite.recorded_blockByHeight choices recorded here,rfl⟩
  · exact fun height high => Sqlite.recorded_noBlock choices recorded (.inr high)
  · exact fun height prev next first second => recorded_linked recorded grounded.linked first second
  · intro height block found
    obtain ⟨c,here,rfl,_⟩ := Sqlite.recorded_found choices recorded found
    exact Sqlite.recorded_blockByID choices recorded
      (fun c here d there => collisionFree _ (known c here) _ (known d there)) here
  · intro block committed gone
    refine Sqlite.recorded_noID choices recorded (fun c here same => ?_)
    have equal := collisionFree _ (known c here) _ committed same
    exact gone c.block.height (equal ▸ Sqlite.recorded_blockByHeight choices recorded here)
  · obtain ⟨last,here,height,next⟩ := grounded.pending
    obtain ⟨tip,there,tipHeight,found⟩ := grounded_latestBlock choices grounded
    obtain rfl := chain_height_inj recorded.chain here there (height.trans tipHeight.symm)
    refine ⟨last.block,found,?_,by rw [next.height,height],next.parentID⟩
    have read := Sqlite.recorded_blockByHeight choices recorded here
    rw [height] at read
    exact read

variable (choices) in
theorem latestBlocks_grounded {cs : List BlockContents} {latest : Nat} {b : Blockchain Sqlite.Store}
    (grounded : Grounded E cs latest b) : ∃ block, latestBlocks E choices b = [block] ∧ block.height = latest := by
  obtain ⟨last,_,height,found⟩ := grounded_latestBlock choices grounded
  refine ⟨last.block,?_,height⟩
  unfold latestBlocks
  rw [found]

end

section
open FlowEmulator.Samples

/-- An emulator that has just started. -/
theorem sample_started (url : Sqlite.Url) : ∃ b,
    newBlockchain heightEncoding machine config (Sqlite.backend heightEncoding .earliest) tick false (Sqlite.fresh url) =
      .ok b ∧ b.storage.url = url ∧ b.pendingBlock = newPendingBlock heightEncoding tick (genesis machine .emulator) ∧
    ∃ cs, Grounded heightEncoding cs 0 b := by
  have tip := Sqlite.fresh_tip heightEncoding url
  have counted : (genesisContents machine config ∅ []).Counted := ⟨rfl,rfl⟩
  obtain ⟨after,run,wrote⟩ := (Sqlite.commits_commitBlock heightEncoding .earliest).wrote _ _ none counted tip
  have started := new_bootstrapped (B := Sqlite.backend heightEncoding .earliest) (E := heightEncoding) tick false
    (empty_latestBlock .earliest tip) rfl run
  have continues : Continues heightEncoding [] _ := continues_first (Sqlite.fresh_database url) rfl started
  obtain ⟨cs,latest,grounded,only⟩ := continues
  obtain ⟨c,here,first⟩ := Sqlite.recorded_at grounded.recorded (Nat.le_refl 0) (Nat.zero_le latest)
  obtain rfl : latest = 0 := by
    rcases only c here with absent | height
    · cases absent
    · exact height.symm.trans first
  exact ⟨_,started,wrote.url,rfl,cs,grounded⟩

/-- An emulator that has committed one block after its start. -/
theorem sample_committed (url : Sqlite.Url) : ∃ b after,
    newBlockchain heightEncoding machine config (Sqlite.backend heightEncoding .earliest) tick false (Sqlite.fresh url) =
      .ok b ∧
    request heightEncoding machine config (Sqlite.backend heightEncoding .earliest) (.commitBlock tick) b = after ∧
    after.storage.url = url ∧ (∃ cs, Grounded heightEncoding cs 0 b) ∧ ∃ cs, Grounded heightEncoding cs 1 after := by
  obtain ⟨b,started,place,pending,cs,grounded⟩ := sample_started url
  obtain ⟨c,middle,sealed,counted,storage,_⟩ := sealBlock_ok heightEncoding (Sqlite.backend heightEncoding .earliest) (b := b)
    (by rw [pending]; rfl) (by rw [pending]; rfl) (by rw [pending]; rfl)
  have tip := Sqlite.recorded_tip grounded.recorded
  obtain ⟨saved,run,wrote⟩ := (Sqlite.commits_saveBlock heightEncoding .earliest (static heightEncoding machine config)).wrote
    c b.storage (some 0) counted tip
  have done := commitBlock_ok tick (by rw [pending]; rfl) sealed (storage ▸ run)
  refine ⟨b,_,started,congrArg Prod.snd done,wrote.url.trans place,⟨cs,grounded⟩,cs ++ [c],?_⟩
  exact grounded_saved grounded (sealBlock_placed sealed) run tick rfl

theorem chain_wellFormed_one_block : ∃ x, Reached heightEncoding machine config .earliest x ∧ x.history.length = 2 ∧
    ∃ latest, WellFormed heightEncoding (Sqlite.backend heightEncoding .earliest) x.history x.emulator latest := by
  obtain ⟨b,after,started,committed,_,⟨_,grounded⟩,_,longer⟩ := sample_committed .inMemory
  obtain ⟨first,before,firstHeight⟩ := latestBlocks_grounded .earliest grounded
  obtain ⟨second,afterwards,secondHeight⟩ := latestBlocks_grounded .earliest longer
  have history : latestBlocks heightEncoding .earliest b ++ latestBlocks heightEncoding .earliest after = [first,second] := by
    rw [before,afterwards]
    rfl
  have reached : Reached heightEncoding machine config .earliest
      ⟨after,latestBlocks heightEncoding .earliest b ++ latestBlocks heightEncoding .earliest after⟩ := by
    refine ⟨.inMemory,tick,false,b,[.request (.commitBlock tick)],started,by simp [Action.plain],?_⟩
    rw [← committed]
    rfl
  have apart : heightEncoding.blockID first ≠ heightEncoding.blockID second := by
    show digest first.height ≠ digest second.height
    rw [firstHeight,secondHeight]
    decide
  refine ⟨_,reached,congrArg List.length history,chain_wellFormed reached ?_⟩
  show ∀ left ∈ _ ++ _,∀ right ∈ _ ++ _,_
  rw [history]
  intro left leftHere right rightHere same
  simp only [List.mem_cons,List.not_mem_nil,or_false] at leftHere rightHere
  rcases leftHere with rfl | rfl <;> rcases rightHere with rfl | rfl
  · rfl
  · exact absurd same apart
  · exact absurd same.symm apart
  · rfl

end
end LinkedChain
end FlowEmulator
