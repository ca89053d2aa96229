import FlowEmulator.Lookups

/-!
Clients and the block ticker at one emulator. The ticker executes and commits in
two separate turns, and any requests of clients can come in between. Without
rollbacks and resets no transaction that was accepted is lost, duplicated or
moved: the collections of the chain followed by the pending block are the
transactions that were accepted, in order.
-/
namespace FlowEmulator.Submissions
open FlowEmulator.Blockchain FlowEmulator.Chronicle FlowEmulator.Run
open FlowEmulator.Sqlite (Choices)

/-- The request drops the pending block. -/
def drops : Request → Bool
  | .resetPendingBlock _ => true
  | _ => false

/-- Who takes a turn at the emulator: a client with a request, or the ticker. -/
inductive Turn where
  | client (name : Nat) (r : Request) (keeps : drops r = false)
  | ticker (tick : Tick)

/-- A session, and whether the ticker has executed the block and commits next. -/
structure Traffic where
  session : Session
  executed : Bool

section
variable (E : Encoding) (M : Machine) (config : Config) (choices : Choices)

/-- The traffic after a turn. The errors of the ticker's requests are ignored. -/
def turn : Turn → Traffic → Traffic
  | .client _ r _, x => { x with session := step E M config choices (.request r) x.session }
  | .ticker tick, x =>
    if x.executed then ⟨step E M config choices (.request (.commitBlock tick)) x.session,false⟩
    else ⟨step E M config choices (.request .executeBlock) x.session,true⟩

/-- The traffic that turns in any order reach from a start on an empty store. -/
def Reached (x : Traffic) : Prop :=
  ∃ start turns, Started E M config choices start ∧ play (turn E M config choices) turns ⟨start,false⟩ = x

end

/-- The transactions in the collections of the stored blocks, in the order of the heights. -/
def committedTransactions {σ : Type} (B : Backend σ) (s : σ) : Except StoreError (List Identifier) := do
  let latest ← B.latestBlockHeight s
  let blocks ← traverse (fun _ height => do
    let block ← B.blockByHeight height s
    let collections ← traverse (fun _ id => B.collectionByID id s) 0 block.guarantees
    pure (collections.flatMap LightCollection.transactions)) 0 (List.range (latest+1))
  pure blocks.flatten

section
variable {E : Encoding} {M : Machine} {config : Config} {choices : Choices}

/-- Only a request that drops the pending block makes a call that does. -/
theorem callsOf_keep {σ : Type} {B : Backend σ} {r : Request} (keeps : drops r = false) (b : Blockchain σ) :
    ∀ c ∈ callsOf E M B r b, c.resets = false := by
  intro c member
  cases r with
  | resetPendingBlock tick => cases keeps
  | executeBlock =>
    rw [callsOfExecuteBlock_next member]
    rfl
  | executeAndCommitBlock tick => rcases callsOfExecuteAndCommitBlock_next member with rfl | rfl <;> rfl
  | sendTransaction tick tx => rcases callsOfSendTransaction_next member with rfl | rfl | rfl <;> rfl
  | addTransaction tx => rw [List.mem_singleton.mp member]; rfl
  | executeNextTransaction => rw [List.mem_singleton.mp member]; rfl
  | commitBlock tick => rw [List.mem_singleton.mp member]; rfl
  | setClock now => rw [List.mem_singleton.mp member]; rfl
  | setAutoMine on => rw [List.mem_singleton.mp member]; rfl

/-- The chain and the pending block hold what was accepted, in order. -/
def Ordered (E : Encoding) (M : Machine) (config : Config) (x : Session) : Prop :=
  ∃ cs latest, Accounted E M config cs x.seen latest x.emulator ∧ transactionsOf cs x.emulator.pendingBlock = x.accepted

theorem ordered_started {x : Session} (started : Started E M config choices x) : Ordered E M config x := by
  obtain ⟨_,_,_,seen,pending,accounted⟩ := started_accounted started
  obtain ⟨_,_,_,_,_,_,_,_,accepted,_⟩ := started
  refine ⟨x.seen,0,accounted,?_⟩
  rw [seen,accepted,pending]
  rfl

theorem ordered_take (x : Session) (c : Call) (ordered : Ordered E M config x) (keeps : c.resets = false) :
    Ordered E M config (take E M config choices c x) := by
  obtain ⟨cs,latest,accounted,accepted⟩ := ordered
  obtain ⟨height,longer,transactions⟩ := accounted_take choices accounted c
  refine ⟨_,height,longer,?_⟩
  rw [transactions keeps,accepted]
  rfl

theorem ordered_request {r : Request} (keeps : drops r = false) {x : Session} (ordered : Ordered E M config x) :
    Ordered E M config (step E M config choices (.request r) x) :=
  play_keeps ordered_take ordered (throughout_all (callsOf_keep keeps x.emulator))

theorem ordered_turn (t : Turn) (x : Traffic) (ordered : Ordered E M config x.session) :
    Ordered E M config (turn E M config choices t x).session := by
  cases t with
  | client name r keeps => exact ordered_request keeps ordered
  | ticker tick =>
    by_cases executed : x.executed = true
    · have next : turn E M config choices (.ticker tick) x =
          ⟨step E M config choices (.request (.commitBlock tick)) x.session,false⟩ := if_pos executed
      rw [next]
      exact ordered_request (r := .commitBlock tick) rfl ordered
    · have next : turn E M config choices (.ticker tick) x =
          ⟨step E M config choices (.request .executeBlock) x.session,true⟩ := if_neg executed
      rw [next]
      exact ordered_request (r := .executeBlock) rfl ordered

theorem reached_ordered {x : Traffic} (reached : Reached E M config choices x) : Ordered E M config x.session := by
  obtain ⟨start,turns,started,rfl⟩ := reached
  have kept (x : Traffic) (t : Turn) (ordered : Ordered E M config x.session) (_ : True) :
      Ordered E M config (turn E M config choices t x).session := ordered_turn t x ordered
  exact play_keeps kept (ordered_started started) (throughout_all fun _ _ => trivial)

/-! ### Reading the chain -/

section
variable (choices) {cs seen : List BlockContents} {latest : Nat} {s : Sqlite.Store} (stored : Stored E M config cs seen latest s)
  (collisionFree : CollisionFree E seen)
include stored collisionFree

/-- The collections of a block hold its transactions of users. -/
theorem stored_collections {c : BlockContents} (here : c ∈ cs) : ∃ collections,
    traverse (fun _ id => (Sqlite.backend E choices).collectionByID id s) 0 c.block.guarantees = .ok collections ∧
      collections.flatMap LightCollection.transactions = c.userTransactions := by
  refine ⟨_,traverse_ok (g := fun _ => ⟨c.userTransactions⟩) (fun _ id guaranteed =>
    (stored_guarantee choices stored collisionFree here guaranteed).2.2.2) 0,?_⟩
  have filled := stored_filled stored here
  have parts := filled.collections
  rw [filled.guarantees,parts]
  split
  · next empty => rw [empty]; rfl
  · exact List.flatMap_singleton ..

theorem stored_committedTransactions : committedTransactions (Sqlite.backend E choices) s =
    .ok (cs.flatMap BlockContents.userTransactions) := by
  have count : cs.length = latest+1 := by have := stored.recorded.count; omega
  have height : (Sqlite.backend E choices).latestBlockHeight s = .ok latest :=
    Sqlite.recorded_latestBlockHeight choices stored.recorded
  have each (i height : Nat) (low : height ∈ List.range (latest+1)) : (do
      let block ← (Sqlite.backend E choices).blockByHeight height s
      let collections ← traverse (fun _ id => (Sqlite.backend E choices).collectionByID id s) 0 block.guarantees
      pure (collections.flatMap LightCollection.transactions) : Except StoreError (List Identifier)) =
        .ok ((cs[height]?).elim [] BlockContents.userTransactions) := by
    have inside : height < cs.length := by rw [count]; exact List.mem_range.mp low
    have here : cs[height]? = some cs[height] := List.getElem?_eq_getElem inside
    have place : cs[height].block.height = height := by
      rw [(chain_getElem stored.recorded.chain here).1,Nat.zero_add]
    have found : (Sqlite.backend E choices).blockByHeight height s = .ok cs[height].block := by
      have read := Sqlite.recorded_blockByHeight choices stored.recorded (List.mem_of_getElem? here)
      rw [place] at read
      exact read
    obtain ⟨collections,read,transactions⟩ := stored_collections choices stored collisionFree (List.mem_of_getElem? here)
    rw [found,here]
    show (traverse _ 0 cs[height].block.guarantees >>= _) = _
    rw [read]
    show Except.ok _ = Except.ok _
    rw [transactions]
    rfl
  have whole : (List.range (latest+1)).map (fun height => (cs[height]?).elim [] BlockContents.userTransactions) =
      cs.map BlockContents.userTransactions := by
    apply List.ext_getElem
    · simp [count]
    · intro i left right
      have inside : i < cs.length := by simpa using right
      simp [List.getElem?_eq_getElem inside]
  unfold committedTransactions
  rw [height]
  show (traverse _ 0 (List.range (latest+1)) >>= _) = _
  rw [traverse_ok each,whole]
  rfl

end

/-- In every interleaving the collections of the committed blocks, followed by
    the pending block, are the transactions that were accepted, in the order in
    which they were accepted, and no transaction is there twice. -/
theorem accepted_in_order {x : Traffic} (reached : Reached E M config choices x)
    (collisionFree : CollisionFree E x.session.seen) : ∃ committed,
      committedTransactions (Sqlite.backend E choices) x.session.emulator.storage = .ok committed ∧
      committed ++ x.session.emulator.pendingBlock.transactionIDs = x.session.accepted ∧ x.session.accepted.Nodup := by
  obtain ⟨cs,latest,accounted,accepted⟩ := reached_ordered reached
  refine ⟨_,stored_committedTransactions choices accounted.stored collisionFree,accepted,?_⟩
  rw [← accepted]
  exact accounted_distinct accounted

end

open FlowEmulator.Samples in
theorem accepted_in_order_sample : ∃ x, Reached numberEncoding scheduler scheduledConfig .earliest x ∧
    CollisionFree numberEncoding x.session.seen ∧ x.session.accepted = [digest 10] ∧ ∃ committed,
      committedTransactions (Sqlite.backend numberEncoding .earliest) x.session.emulator.storage = .ok committed ∧
      committed ++ x.session.emulator.pendingBlock.transactionIDs = x.session.accepted ∧ x.session.accepted.Nodup := by
  obtain ⟨start,c,sample⟩ := sample_committed
  -- one client adds and another executes, so that the ticker's first turn finds nothing left to execute
  have idle : calls numberEncoding scheduler .earliest (sampleExecuted start) .executeBlock = [] := by
    show callsOfExecuteBlock _ _ _ _ = []
    unfold callsOfExecuteBlock
    rw [sample.executed]
    rfl
  have reached : Reached numberEncoding scheduler scheduledConfig .earliest ⟨sampleCommitted start,false⟩ := by
    refine ⟨start,[.client 0 (.addTransaction (numbered 10)) rfl,.client 1 .executeNextTransaction rfl,.ticker tick,.ticker tick],
      sample.started,?_⟩
    show turn _ _ _ _ (.ticker tick) ⟨play _ (calls _ _ _ (sampleExecuted start) .executeBlock) (sampleExecuted start),true⟩ = _
    rw [idle]
    rfl
  have collisionFree := sample_collisionFree sample
  exact ⟨_,reached,collisionFree,sample.accepted,accepted_in_order reached collisionFree⟩

end FlowEmulator.Submissions
