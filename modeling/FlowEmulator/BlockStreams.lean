import FlowEmulator.BlockTimes
import FlowEmulator.Chronicle
import FlowEmulator.HistoricalReads
import FlowEmulator.Streaming

/-!
Streams of blocks, of headers and of digests. A streamer asks for one height after
the other, and the response looks at the emulator twice: first for the latest
block, then for the block at the height, with the emulator free to do something in
between. Without rollbacks the responses follow the chain, whatever is asked for
and whenever (`responses_follow_chain`). A commit that has stored its block
notifies the streamers while it still holds the emulator.
-/
namespace FlowEmulator
open FlowEmulator.Fallible FlowEmulator.Logged FlowEmulator.Run

/-! ### The blocks of a store that commits -/

namespace Local
variable {τ : Type} {E : Encoding} {M : Machine} {config : Config} {store : Local τ}
  {b after : Blockchain (store.Storage × Log)} {static : Identifier → Bool} {c : BlockContents}

/-- A block that is saved comes behind the others, in the same database. -/
theorem blocks_saved (exact : store.Exact) (followed : store.Followed E M config b)
    (run : (store.logged E).saveBlock E static c b.storage = (.ok (),after.storage)) :
    store.blocks after = store.blocks b ++ [c] := by
  have noted := run.symm.trans (saveBlock_run b.storage)
  rcases save : (store.backend E).saveBlock E static c b.storage.1 with ⟨e | _,middle⟩
  · rw [save] at noted
    cases noted
  obtain ⟨_,commit⟩ := saveBlock_commits save
  rw [save,commit] at noted
  have storage : after.storage = (middle,committed store.places c b.storage.1 b.storage.2) := congrArg Prod.snd noted
  have place : store.places.current middle = store.places.current b.storage.1 := by
    cases store with
    | sqlite choices =>
      obtain ⟨_,⟨holds,_⟩,_⟩ := reachedFrom_grown (growing_logged (Sqlite.keeping_backend E choices)) followed
      exact (Sqlite.saved_wrote (Sqlite.filed_tip holds.chained.filed) save).2.db
    | redis choice => exact absurd exact id
    | memory tree => rfl
  unfold blocks
  rw [storage]
  dsimp only
  rw [place,committed,Function.update_self]

/-- A block that is not saved leaves the blocks. -/
theorem blocks_refused (exact : store.Exact) (followed : store.Followed E M config b) {e : StoreError}
    (run : (store.logged E).saveBlock E static c b.storage = (.error e,after.storage)) :
    store.blocks after = store.blocks b := by
  have noted := run.symm.trans (saveBlock_run b.storage)
  rcases save : (store.backend E).saveBlock E static c b.storage.1 with ⟨e' | _,middle⟩
  · have kept : middle = b.storage.1 ∧ ∀ other, (store.backend E).commitBlock c b.storage.1 ≠ (.ok (),other) := by
      cases store with
      | sqlite choices =>
        obtain ⟨_,⟨holds,_⟩,_⟩ := reachedFrom_grown (growing_logged (Sqlite.keeping_backend E choices)) followed
        exact (Sqlite.keeping_backend E choices).refused holds save
      | redis choice => exact absurd exact id
      | memory tree =>
        obtain ⟨_,⟨holds,_⟩,_⟩ := reachedFrom_grown (growing_logged (Memstore.keeping_backend E tree)) followed
        exact (Memstore.keeping_backend E tree).refused holds save
    rcases commit : (store.backend E).commitBlock c b.storage.1 with ⟨e'' | _,other⟩
    · rw [save,commit] at noted
      have storage : after.storage = (middle,b.storage.2) := congrArg Prod.snd noted
      unfold blocks
      rw [storage,kept.1]
    · exact absurd commit (kept.2 other)
  · rw [save] at noted
    cases noted

end Local

namespace BlockStreams
open FlowEmulator.Blockchain FlowEmulator.Streaming
open FlowEmulator.BlockTimes (BlockDigest timeUnix getBlockHeader getBlockDigestResponse)
open FlowEmulator.EventQueries (unixMilli)
open FlowEmulator.StatusStream (StreamError validateHeight)

/-- Whether a call notifies the subscribers: a commit does, after the block is stored. -/
def publishes {σ : Type} (E : Encoding) (M : Machine) (config : Config) (B : Backend σ) : Call → Blockchain σ → Bool
  | .commitBlock tick, b => (commitBlock E M config B tick b).1.isOk
  | _, _ => false

section
variable {σ α : Type} (E : Encoding) (B : Backend σ)

/-- An error says that the block is not ready, or it is a failure. -/
def answerOf : Except StreamError α → Answer α
  | .ok a => .item a
  | .error (.blockNotReady _) => .notReady
  | .error _ => .failed

/-- Any failure to get the block counts as not ready. -/
def blockAnswer (shown : Block → α) (height : Nat) (b : Blockchain σ) : Answer α :=
  match b.getBlockByHeight B height with
  | .error _ => answerOf (.error (.blockNotReady height))
  | .ok block => .item (shown block)

/-- The response for a height, with two looks at the emulator. -/
def response (shown : Block → α) (height : Nat) : Reading (Blockchain σ) (Answer α) :=
  .look fun b => match validateHeight B height b with
    | .error e => .done (answerOf (.error e))
    | .ok _ => .once (blockAnswer B shown height)

/-- What a digest shows of a block. -/
def digest (block : Block) : BlockDigest := ⟨E.blockID block,block.height,timeUnix (unixMilli block.timestamp)⟩

def blockResponse : Nat → Reading (Blockchain σ) (Answer Block) := response B id
def digestResponse : Nat → Reading (Blockchain σ) (Answer BlockDigest) := response B (digest E)

end

section
variable {σ α : Type} {E : Encoding} {B : Backend σ} {b : Blockchain σ}

theorem response_run (shown : Block → α) (height : Nat) :
    (response B shown height).run b = answerOf ((getBlockHeader B height b).map shown) := by
  unfold response getBlockHeader
  rw [Reading.run]
  rcases validateHeight B height b with e | _
  · rfl
  · show blockAnswer B shown height b = _
    unfold blockAnswer
    cases b.getBlockByHeight B height <;> rfl

/-- Where the emulator does nothing in between, the looks give what the functions give. -/
theorem digestResponse_run (height : Nat) :
    (digestResponse E B height).run b = answerOf (getBlockDigestResponse E B height b) := response_run (digest E) height

end

/-! ### The emulator as a source -/

section
variable {τ α : Type} {E : Encoding} {M : Machine} {config : Config} {store : Local τ}

/-- The call as a request. -/
def requestOf : Call → Request
  | .addTransaction tx => .addTransaction tx
  | .executeNextTransaction => .executeNextTransaction
  | .commitBlock tick => .commitBlock tick
  | .resetPendingBlock tick => .resetPendingBlock tick
  | .setClock now => .setClock now
  | .setAutoMine on => .setAutoMine on

theorem request_call {σ : Type} {B : Backend σ} (c : Call) (b : Blockchain σ) :
    request E M config B (requestOf c) b = call E M config B c b := by cases c <;> rfl

theorem followed_call {b : Blockchain (store.Storage × Log)} (followed : store.Followed E M config b) (c : Call) :
    store.Followed E M config (call E M config (store.logged E) c b) := by
  rw [← request_call]
  exact reachable_step followed (a := .request (requestOf c)) trivial

/-- A commit leaves the blocks, or adds one with the transactions of the pending block. -/
theorem blocks_commit (exact : store.Exact) {b : Blockchain (store.Storage × Log)} (followed : store.Followed E M config b)
    (tick : Tick) :
    (∃ e after, commitBlock E M config (store.logged E) tick b = (.error e,after) ∧ store.blocks after = store.blocks b) ∨
      ∃ c after, commitBlock E M config (store.logged E) tick b = (.ok c.block,after) ∧
        store.blocks after = store.blocks b ++ [c] ∧ c.userTransactions = b.pendingBlock.transactionIDs ∧
        after.pendingBlock = newPendingBlock E tick c.block := by
  have commits : Commits E M config (store.logged E) tick b (commitBlock E M config (store.logged E) tick b) :=
    commitBlock_commits tick b
  generalize commitBlock E M config (store.logged E) tick b = out at commits ⊢
  cases commits with
  | refused waiting => exact .inl ⟨_,_,rfl,rfl⟩
  | unsealed ready e failed => exact .inl ⟨_,_,rfl,rfl⟩
  | unsaved ready c sealed e storage run => exact .inl ⟨_,_,rfl,Local.blocks_refused exact followed run⟩
  | committed ready c made sealed storage run =>
    exact .inr ⟨c,_,rfl,Local.blocks_saved exact followed run,Chronicle.sealed_userTransactions sealed,rfl⟩

/-- A call leaves the blocks, or commits one and publishes it. -/
theorem blocks_call (exact : store.Exact) {b : Blockchain (store.Storage × Log)} (followed : store.Followed E M config b)
    (c : Call) : store.blocks (call E M config (store.logged E) c b) = store.blocks b ∨
      publishes E M config (store.logged E) c b = true ∧
        ∃ contents, store.blocks (call E M config (store.logged E) c b) = store.blocks b ++ [contents] := by
  -- all but a commit leave the store as it is
  have same (storage : (call E M config (store.logged E) c b).storage = b.storage) :
      store.blocks (call E M config (store.logged E) c b) = store.blocks b := by
    unfold Local.blocks
    rw [storage]
  cases c with
  | addTransaction tx => exact .inl (same (keeps_addTransaction b tx b (still_refl b)).storage)
  | executeNextTransaction => exact .inl (same (keeps_executeNextTransaction b b (still_refl b)).storage)
  | resetPendingBlock tick =>
    refine .inl (same ?_)
    show (resetPendingBlock E (store.logged E) tick b).2.storage = b.storage
    rcases resetPendingBlock_run (E := E) tick b with left | ⟨block,_,left⟩ <;> rw [left]
  | setClock now => exact .inl (same rfl)
  | setAutoMine on => exact .inl (same rfl)
  | commitBlock tick =>
    show store.blocks (commitBlock E M config (store.logged E) tick b).2 = _ ∨
      (commitBlock E M config (store.logged E) tick b).1.isOk = true ∧ ∃ contents,
        store.blocks (commitBlock E M config (store.logged E) tick b).2 = _
    rcases blocks_commit exact followed tick with ⟨e,after,run,left⟩ | ⟨c,after,run,more,_⟩
    · rw [run]
      exact .inl left
    · rw [run]
      exact .inr ⟨rfl,c,more⟩

theorem followed_hasChain (exact : store.Exact) {b : Blockchain (store.Storage × Log)} (followed : store.Followed E M config b) :
    ∃ latest, HasChain (store.logged E).toStore latest b.storage := by
  cases store with
  | sqlite choices => exact reachedFrom_hasChain (growing_logged (Sqlite.keeping_backend E choices)) followed
  | redis choice => exact absurd exact id
  | memory tree => exact reachedFrom_hasChain (growing_logged (Memstore.keeping_backend E tree)) followed

/-- The latest block is as high as there are blocks before it. -/
theorem followed_latest (exact : store.Exact) {b : Blockchain (store.Storage × Log)} (followed : store.Followed E M config b) :
    ∃ block, (store.logged E).latestBlock b.storage = .ok block ∧ block.height+1 = (store.blocks b).length := by
  obtain ⟨latest,⟨block,read,height⟩,there,above,_⟩ := followed_hasChain exact followed
  have blocks := (Local.followed_answers exact followed).blocks
  refine ⟨block,read,?_⟩
  have high : (store.blocks b)[latest+1]? = none := by
    have none := (blocks (latest+1)).symm.trans (above (latest+1) (Nat.lt_succ_self latest))
    cases here : (store.blocks b)[latest+1]? with
    | none => rfl
    | some c =>
      rw [here] at none
      cases none
  have low : latest < (store.blocks b).length := by
    obtain ⟨tip,found,_⟩ := there latest (Nat.le_refl latest)
    have some := (blocks latest).symm.trans found
    by_contra outside
    rw [List.getElem?_eq_none (by omega)] at some
    cases some
  have length := List.getElem?_eq_none_iff.mp high
  omega

/-- The latest block is found at its height. -/
theorem latestBlock_byHeight {latest : Nat} {b : Blockchain (store.Storage × Log)} (exact : store.Exact)
    (chain : HasChain (store.logged E).toStore latest b.storage) {block : Block}
    (read : (store.logged E).latestBlock b.storage = .ok block) :
    (store.logged E).blockByHeight block.height b.storage = .ok block := by
  have somewhere : ∃ height, (store.logged E).blockByHeight height b.storage = .ok block := by
    cases store with
    | sqlite choices =>
      have read : DefaultStore.latestBlock E (Sqlite.dataStore choices) b.storage.1 = .ok block := read
      unfold DefaultStore.latestBlock at read
      rcases tip : DefaultStore.latestBlockHeight E (Sqlite.dataStore choices) b.storage.1 with e | height
      · rw [tip] at read
        cases read
      · rw [tip] at read
        exact ⟨height,read⟩
    | redis choice => exact absurd exact id
    | memory tree => exact ⟨_,read⟩
  obtain ⟨height,found⟩ := somewhere
  by_cases low : height ≤ latest
  · obtain ⟨same,there,own⟩ := chain.found height low
    cases found.symm.trans there
    rw [own]
    exact found
  · cases found.symm.trans (chain.above height (Nat.not_le.mp low))

/-- The latest block is the last one that was committed. -/
theorem followed_tip (exact : store.Exact) {b : Blockchain (store.Storage × Log)} (followed : store.Followed E M config b) :
    ∃ last, (store.blocks b).getLast? = some last ∧ (store.logged E).latestBlock b.storage = .ok last.block := by
  obtain ⟨latest,chain⟩ := followed_hasChain exact followed
  obtain ⟨block,read,length⟩ := followed_latest exact followed
  have found := latestBlock_byHeight exact chain read
  rw [(Local.followed_answers exact followed).blocks] at found
  rw [List.getLast?_eq_getElem?,← length,Nat.add_sub_cancel]
  cases here : (store.blocks b)[block.height]? with
  | none =>
    rw [here] at found
    cases found
  | some last =>
    rw [here] at found
    cases found
    exact ⟨last,rfl,read⟩

/-- What responses show of the blocks of the store, by height. -/
def shownBlocks (store : Local τ) (shown : Block → α) (b : Blockchain (store.Storage × Log)) : List α :=
  (store.blocks b).map fun c => shown c.block

section
variable (exact : store.Exact) {b : Blockchain (store.Storage × Log)} (followed : store.Followed E M config b) {height : Nat}
include exact followed

theorem validateHeight_ok (low : height < (store.blocks b).length) : validateHeight (store.logged E) height b = .ok () := by
  obtain ⟨block,read,length⟩ := followed_latest exact followed
  rw [validateHeight,read]
  exact if_neg (by omega)

theorem validateHeight_unready (high : (store.blocks b).length ≤ height) :
    validateHeight (store.logged E) height b = .error (.blockNotReady height) := by
  obtain ⟨block,read,length⟩ := followed_latest exact followed
  rw [validateHeight,read]
  exact if_pos (by omega)

theorem blockAnswer_shown {shown : Block → α} {a : α} (here : (shownBlocks store shown b)[height]? = some a) :
    blockAnswer (store.logged E) shown height b = .item a := by
  rw [shownBlocks,List.getElem?_map] at here
  obtain ⟨c,there,rfl⟩ := Option.map_eq_some_iff.mp here
  have read : getBlockByHeight (store.logged E) height b = .ok c.block := by
    rw [getBlockByHeight,(Local.followed_answers exact followed).blocks height,there]
    rfl
  rw [blockAnswer,read]

end

/-- An emulator with all the blocks of another, and perhaps more. -/
def Later (E : Encoding) (M : Machine) (config : Config) (store : Local τ) (b later : Blockchain (store.Storage × Log)) :
    Prop :=
  store.Followed E M config later ∧ store.blocks b <+: store.blocks later

variable (E M config) in
/-- The emulator adds blocks only, and the response for a height gives the block of that height. -/
theorem feeds_blocks (exact : store.Exact) (shown : Block → α) :
    Feeds (store.Followed E M config) (Later E M config store) (shownBlocks store shown) (fun _ _ => True)
      (call E M config (store.logged E)) (response (store.logged E) shown) where
  trans := fun ⟨_,first⟩ ⟨good,second⟩ => ⟨good,first.trans second⟩
  steps c b followed _ := by
    refine ⟨followed_call followed c,?_⟩
    rcases blocks_call exact followed c with same | ⟨_,contents,more⟩
    · rw [same]
    · rw [more]
      exact List.prefix_append ..
  good _ after := after.1
  grows _ after := after.2.map _
  present {b height a} followed here := by
    have ready {later : Blockchain (store.Storage × Log)} (good : store.Followed E M config later)
        (there : (shownBlocks store shown later)[height]? = some a) : validateHeight (store.logged E) height later = .ok () := by
      have low := (List.getElem?_eq_some_iff.mp there).1
      rw [shownBlocks,List.length_map] at low
      exact validateHeight_ok exact good low
    have there {later : Blockchain (store.Storage × Log)} (after : Later E M config store b later) :
        (shownBlocks store shown later)[height]? = some a := item_stays (after.2.map _) here
    refine .look (fun later after => ?_) ?_
    · rw [ready followed here,ready after.1 (there after)]
    · rw [ready followed here]
      exact settles_once (blockAnswer_shown exact followed here)
        fun later after => blockAnswer_shown exact after.1 (there after)
  absent {b height} followed high := by
    rw [shownBlocks,List.length_map] at high
    refine ⟨_,rfl,?_⟩
    rw [validateHeight_unready exact followed high]
    rfl

end

section
open FlowEmulator.Samples

/-- A new emulator over a store in memory commits its first block. -/
theorem memory_commits {b : Blockchain ((Local.memory .ofLists).Storage × Log)}
    (started : newBlockchain numberEncoding machine config ((Local.memory .ofLists).logged numberEncoding) tick false
      (Memstore.new,fun _ => []) = .ok b) :
    ∃ block after, commitBlock numberEncoding machine config ((Local.memory .ofLists).logged numberEncoding) tick b =
      (.ok block,after) := by
  obtain ⟨_,block,pending⟩ := new_renewed started
  obtain ⟨c,middle,sealed,counted,storage,_⟩ := sealBlock_ok numberEncoding ((Local.memory .ofLists).logged numberEncoding) (b := b)
    (by rw [pending]; rfl) (by rw [pending]; rfl) (by rw [pending]; rfl)
  have saved := Memstore.saveBlock_run numberEncoding .ofLists (static numberEncoding machine config) c counted middle.storage.1
  have noted : ((Local.memory .ofLists).logged numberEncoding).saveBlock numberEncoding (static numberEncoding machine config) c
      middle.storage = _ := saveBlock_run middle.storage
  have answer := congrArg Prod.fst saved
  exact ⟨_,_,commitBlock_ok tick (by rw [pending]; rfl) sealed (noted.trans (Prod.ext answer rfl))⟩

end
end BlockStreams
end FlowEmulator
