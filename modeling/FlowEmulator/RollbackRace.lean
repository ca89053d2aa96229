import FlowEmulator.Integrity

/-!
Rollbacks with requests in between. A rollback is two steps that hold no lock,
one in the store and one that begins a new pending block. Between them the
pending block still extends a block that was removed, and a commit stores it
above a gap. As long as no commit begins in that time, the chain stays whole and
nothing of the removed blocks and of the old pending block comes back.
-/
namespace FlowEmulator.RollbackRace
open FlowEmulator.Fallible FlowEmulator.Blockchain FlowEmulator.Chronicle FlowEmulator.Integrity FlowEmulator.Run
open FlowEmulator.Sqlite (Choices)

/-- The first step of a rollback. -/
def storeRollback {σ : Type} (B : Backend σ) (height : Nat) : EmulatorM σ Unit :=
  match B.rollbackProvider with
  | none => fail .rollbackUnsupported
  | some rollback => inStorage (rollback height)

/-- A rollback is its two steps one after the other. -/
theorem rollback_steps {σ : Type} (E : Encoding) (M : Machine) (config : Config) (B : Backend σ) (tick : Tick) (height : Nat) :
    rollbackToBlockHeight E M config B tick height =
      storeRollback B height >>= fun _ => reloadBlockchain E M config B tick := by
  unfold rollbackToBlockHeight storeRollback
  cases B.rollbackProvider <;> rfl

/-- A session with rollbacks in progress: the contents of the blocks that are
    stored, whether the pending block was begun before blocks were removed, how many
    rollbacks are between their steps, the transactions that were only in the blocks
    these removed or in the pending block they found, and the transactions that went
    with the rollbacks that have returned. -/
structure Race where
  session : Session
  chain : List BlockContents
  stale : Bool
  inProgress : Nat
  removed : List Identifier
  gone : List Identifier

/-- What is done next, by anyone: a request, the first or the second step of a rollback. -/
inductive Move where
  | request (r : Request)
  | storeRollback (height : Nat)
  | reload (tick : Tick)

section
variable (E : Encoding) (M : Machine) (config : Config) (choices : Choices)

/-- The call begins a new pending block. -/
def renews (b : Blockchain Sqlite.Store) : Call → Bool
  | .commitBlock tick => (commitBlock E M config (Sqlite.backend E choices) tick b).1.isOk
  | .resetPendingBlock tick => (resetPendingBlock E (Sqlite.backend E choices) tick b).1.isOk
  | _ => false

/-- A transaction that is accepted was submitted again. -/
def answer (c : Call) (x : Race) : Race where
  session := take E M config choices c x.session
  chain := x.chain ++ committedBy E M config choices x.session.emulator c
  stale := x.stale && !renews E M config choices x.session.emulator c
  inProgress := x.inProgress
  removed := x.removed.filter fun id => id ∉ acceptedBy E M choices x.session.emulator c
  gone := x.gone.filter fun id => id ∉ acceptedBy E M choices x.session.emulator c

def onEmulator (x : Session) (b : Blockchain Sqlite.Store) : Session := { x with emulator := b }

/-- The transactions that no block up to the height has. -/
def onlyAbove (height : Nat) (x : Race) : List Identifier :=
  ((x.chain.filter fun c => height < c.block.height).flatMap BlockContents.userTransactions ++
    x.session.emulator.pendingBlock.transactionIDs).filter fun id =>
      id ∉ (x.chain.filter fun c => c.block.height ≤ height).flatMap BlockContents.userTransactions

def rollStore (height : Nat) (x : Race) : Race :=
  match storeRollback (Sqlite.backend E choices) height x.session.emulator with
  | (.error _,b) => { x with session := onEmulator x.session b }
  | (.ok _,b) =>
    { x with
      session := onEmulator x.session b
      chain := x.chain.filter fun c => c.block.height ≤ height
      stale := true
      inProgress := x.inProgress+1
      removed := x.removed ++ onlyAbove height x }

/-- The second step of a rollback that is in progress. What was only in the
    removed blocks or in the pending block is gone from then on. -/
def reload (tick : Tick) (x : Race) : Race :=
  if x.inProgress = 0 then x else
    { session := onEmulator x.session (reloadBlockchain E M config (Sqlite.backend E choices) tick x.session.emulator).2
      chain := x.chain
      stale := false
      inProgress := x.inProgress-1
      removed := []
      gone := x.gone ++ x.removed ++ x.session.emulator.pendingBlock.transactionIDs.filter fun id =>
        id ∉ x.chain.flatMap BlockContents.userTransactions }

def move : Move → Race → Race
  | .request r, x => play (answer E M config choices) (calls E M choices x.session r) x
  | .storeRollback height, x => rollStore E choices height x
  | .reload tick, x => reload E M config choices tick x

/-- Before any move. -/
def begin (start : Session) : Race := ⟨start,start.seen,false,0,[],[]⟩

/-- While the pending block is stale, no commit gets past its guards. -/
def Guarded (x : Race) : Call → Prop
  | .commitBlock _ => x.stale = true → x.session.emulator.pendingBlock.index < x.session.emulator.pendingBlock.size
  | _ => True

/-- Every call of a move is guarded. -/
def GuardedMove (x : Race) : Move → Prop
  | .request r => Throughout (answer E M config choices) Guarded (calls E M choices x.session r) x
  | _ => True

/-- The states that moves in any order, each under a condition, reach from a start. -/
def Reached (condition : Race → Move → Prop) (x : Race) : Prop :=
  Reachable (move E M config choices) condition (fun first => ∃ start, Started E M config choices start ∧ first = begin start) x

end

/-- The stored blocks are at the heights up to the latest one, each of them names
    the one below it as its parent, and what went with a rollback is in none of them. -/
structure Safe {σ : Type} (E : Encoding) (B : Backend σ) (b : Blockchain σ) (gone : List Identifier) : Prop where
  heights : ∃ latest, B.latestBlockHeight b.storage = .ok latest ∧
    ∀ height, (∃ block, B.blockByHeight height b.storage = .ok block) ↔ height ≤ latest
  parents : ∀ height lower upper, B.blockByHeight height b.storage = .ok lower →
    B.blockByHeight (height+1) b.storage = .ok upper → upper.parentID = E.blockID lower
  gone : ∀ id ∈ gone, ¬ InCollection B b id

/-- The chain is whole, and so is the pending block unless it is stale; what went
    with a rollback, or goes with one that is in progress, is in neither of them. -/
structure Sound (E : Encoding) (M : Machine) (config : Config) (latest : Nat) (x : Race) : Prop where
  stored : Stored E M config x.chain x.session.seen latest x.session.emulator.storage
  underway : x.stale = false → Underway E x.chain latest x.session.emulator.pendingBlock
  gone : ∀ id ∈ x.gone ++ x.removed, id ∉ x.chain.flatMap BlockContents.userTransactions
  pending : x.stale = false → ∀ id ∈ x.gone ++ x.removed, id ∉ x.session.emulator.pendingBlock.transactionIDs

section
variable {E : Encoding} {M : Machine} {config : Config} {choices : Choices} {latest : Nat} {x : Race}

/-- Requests do in a race what they do in its session. -/
theorem move_request_session (r : Request) (x : Race) :
    (move E M config choices (.request r) x).session = step E M config choices (.request r) x.session := by
  have each (c : Call) (x : Race) : (answer E M config choices c x).session = take E M config choices c x.session := rfl
  exact play_project each _ x

/-- Before any rollback a race is its session. -/
theorem move_begin (r : Request) (s : Session) :
    move E M config choices (.request r) (begin s) = begin (step E M config choices (.request r) s) ∧
      GuardedMove E M config choices (begin s) (.request r) := by
  have each (list : List Call) (s : Session) :
      play (answer E M config choices) list (begin s) = begin (play (take E M config choices) list s) ∧
        Throughout (answer E M config choices) Guarded list (begin s) := by
    induction list generalizing s with
    | nil => exact ⟨rfl,trivial⟩
    | cons c rest ih =>
      refine ⟨(ih (take E M config choices c s)).1,?_,(ih (take E M config choices c s)).2⟩
      cases c with
      | commitBlock tick => exact nofun
      | _ => trivial
  exact each _ s

theorem reached_begin {s : Session} (reached : Reached E M config choices (GuardedMove E M config choices) (begin s))
    (r : Request) :
    Reached E M config choices (GuardedMove E M config choices) (begin (step E M config choices (.request r) s)) := by
  rw [← (move_begin r s).1]
  exact reachable_step reached (move_begin r s).2

theorem sound_begin (first : ∃ start, Started E M config choices start ∧ x = begin start) :
    ∃ latest, Sound E M config latest x := by
  obtain ⟨start,started,rfl⟩ := first
  obtain ⟨latest,accounted⟩ := served_accounted ⟨start,[],started,rfl⟩
  exact ⟨latest,accounted.stored,fun _ => accounted.underway,fun _ none => absurd none List.not_mem_nil,
    fun _ _ none => absurd none List.not_mem_nil⟩

/-- What is lost after a call was lost before it and is not accepted by it. -/
theorem mem_answer_lost {c : Call} {id : Identifier}
    (member : id ∈ (answer E M config choices c x).gone ++ (answer E M config choices c x).removed) :
    id ∈ x.gone ++ x.removed ∧ id ∉ acceptedBy E M choices x.session.emulator c := by
  have filtered : id ∈ (x.gone ++ x.removed).filter fun id => id ∉ acceptedBy E M choices x.session.emulator c := by
    rw [List.filter_append]
    exact member
  obtain ⟨before,new⟩ := List.mem_filter.mp filtered
  exact ⟨before,of_decide_eq_true new⟩

/-- A call on a pending block that is not stale. -/
theorem sound_answer_fresh (sound : Sound E M config latest x) (fresh : x.stale = false) (c : Call) :
    ∃ height, Sound E M config height (answer E M config choices c x) := by
  obtain ⟨height,accounted,transactions⟩ := accounted_take choices ⟨sound.stored,sound.underway fresh⟩ c
  have apart (id : Identifier)
      (member : id ∈ (answer E M config choices c x).gone ++ (answer E M config choices c x).removed) :
      id ∉ transactionsOf (answer E M config choices c x).chain
        (answer E M config choices c x).session.emulator.pendingBlock := by
    obtain ⟨before,new⟩ := mem_answer_lost member
    by_cases keeps : c.resets = false
    · have whole : transactionsOf (answer E M config choices c x).chain
          (answer E M config choices c x).session.emulator.pendingBlock = _ := transactions keeps
      rw [whole,transactionsOf,List.mem_append,List.mem_append]
      exact not_or.mpr ⟨not_or.mpr ⟨sound.gone id before,sound.pending fresh id before⟩,new⟩
    · cases c with
      | resetPendingBlock tick =>
        have done : ∃ block, _ ∧ resetPendingBlock E (Sqlite.backend E choices) tick x.session.emulator =
          (.ok (),{ x.session.emulator with pendingBlock := newPendingBlock E tick block }) := reset_succeeds sound.stored tick
        obtain ⟨block,_,done⟩ := done
        show id ∉ transactionsOf (x.chain ++ [])
          (resetPendingBlock E (Sqlite.backend E choices) tick x.session.emulator).2.pendingBlock
        rw [done,List.append_nil,transactionsOf,List.mem_append]
        exact not_or.mpr ⟨sound.gone id before,List.not_mem_nil⟩
      | _ => exact absurd rfl keeps
  exact ⟨height,accounted.stored,fun _ => accounted.underway,
    fun id member inChain => apart id member (List.mem_append_left _ inChain),
    fun _ id member pending => apart id member (List.mem_append_right _ pending)⟩

/-- A call that neither writes to the store nor begins a new pending block. -/
theorem sound_answer_still (sound : Sound E M config latest x) (stale : x.stale = true) {c : Call}
    (storage : (call E M config (Sqlite.backend E choices) c x.session.emulator).storage = x.session.emulator.storage)
    (none : committedBy E M config choices x.session.emulator c = [])
    (old : renews E M config choices x.session.emulator c = false) :
    Sound E M config latest (answer E M config choices c x) := by
  have chain : (answer E M config choices c x).chain = x.chain := by
    show x.chain ++ committedBy E M config choices x.session.emulator c = x.chain
    rw [none,List.append_nil]
  have seen : (answer E M config choices c x).session.seen = x.session.seen := by
    show x.session.seen ++ committedBy E M config choices x.session.emulator c = x.session.seen
    rw [none,List.append_nil]
  have still : (answer E M config choices c x).stale = true := by
    show (x.stale && !renews E M config choices x.session.emulator c) = true
    rw [stale,old]
    rfl
  refine ⟨?_,fun fresh => ?_,fun id member => ?_,fun fresh => ?_⟩
  · rw [chain,seen]
    show Stored E M config x.chain x.session.seen latest
      (call E M config (Sqlite.backend E choices) c x.session.emulator).storage
    rw [storage]
    exact sound.stored
  · rw [still] at fresh
    cases fresh
  · rw [chain]
    exact sound.gone id (mem_answer_lost member).1
  · rw [still] at fresh
    cases fresh

/-- A call on a stale pending block, under the condition. -/
theorem sound_answer_stale (sound : Sound E M config latest x) (stale : x.stale = true) (c : Call) (guarded : Guarded x c) :
    ∃ height, Sound E M config height (answer E M config choices c x) := by
  cases c with
  | addTransaction tx =>
    refine ⟨latest,sound_answer_still sound stale ?_ rfl rfl⟩
    have adds := addTransaction_adds E M (Sqlite.backend E choices) tx x.session.emulator
    show (addTransaction E M (Sqlite.backend E choices) tx x.session.emulator).2.storage = _
    generalize addTransaction E M (Sqlite.backend E choices) tx x.session.emulator = out at adds ⊢
    cases adds <;> rfl
  | executeNextTransaction =>
    refine ⟨latest,sound_answer_still sound stale ?_ rfl rfl⟩
    have executes := executeNextTransaction_executes E M (Sqlite.backend E choices) x.session.emulator
    show (executeNextTransaction E M (Sqlite.backend E choices) x.session.emulator).2.storage = _
    generalize executeNextTransaction E M (Sqlite.backend E choices) x.session.emulator = out at executes ⊢
    cases executes <;> rfl
  | commitBlock tick =>
    have waiting := guarded stale
    have refused : ∃ e, commitBlock E M config (Sqlite.backend E choices) tick x.session.emulator =
        (.error e,x.session.emulator) := by
      have commits : Commits E M config (Sqlite.backend E choices) tick x.session.emulator _ := commitBlock_commits tick _
      generalize commitBlock E M config (Sqlite.backend E choices) tick x.session.emulator = out at commits ⊢
      cases commits with
      | refused _ => exact ⟨_,rfl⟩
      | unsealed ready _ _ => omega
      | unsaved ready _ _ _ _ _ => omega
      | committed ready _ _ _ _ _ => omega
    obtain ⟨e,refused⟩ := refused
    refine ⟨latest,sound_answer_still sound stale ?_ (committedBy_failed refused) ?_⟩
    · show (commitBlock E M config (Sqlite.backend E choices) tick x.session.emulator).2.storage = _
      rw [refused]
    · show (commitBlock E M config (Sqlite.backend E choices) tick x.session.emulator).1.isOk = false
      rw [refused]
      rfl
  | resetPendingBlock tick =>
    have accounted : Accounted E M config x.chain x.session.seen latest
      (resetPendingBlock E (Sqlite.backend E choices) tick x.session.emulator).2 := accounted_reset sound.stored tick
    have done : ∃ block, _ ∧ resetPendingBlock E (Sqlite.backend E choices) tick x.session.emulator =
      (.ok (),{ x.session.emulator with pendingBlock := newPendingBlock E tick block }) := reset_succeeds sound.stored tick
    obtain ⟨block,_,done⟩ := done
    have chain : (answer E M config choices (.resetPendingBlock tick) x).chain = x.chain := List.append_nil _
    have seen : (answer E M config choices (.resetPendingBlock tick) x).session.seen = x.session.seen := List.append_nil _
    refine ⟨latest,?_,fun _ => ?_,fun id member => ?_,fun _ id member => ?_⟩
    · rw [chain,seen]
      exact accounted.stored
    · rw [chain]
      exact accounted.underway
    · rw [chain]
      exact sound.gone id (mem_answer_lost member).1
    · show id ∉ (resetPendingBlock E (Sqlite.backend E choices) tick x.session.emulator).2.pendingBlock.transactionIDs
      rw [done]
      exact List.not_mem_nil
  | setClock now => exact ⟨latest,sound_answer_still sound stale rfl rfl rfl⟩
  | setAutoMine on => exact ⟨latest,sound_answer_still sound stale rfl rfl rfl⟩

theorem sound_answer (x : Race) (c : Call) (sound : ∃ latest, Sound E M config latest x) (guarded : Guarded x c) :
    ∃ latest, Sound E M config latest (answer E M config choices c x) := by
  obtain ⟨latest,sound⟩ := sound
  cases stale : x.stale with
  | false => exact sound_answer_fresh sound stale c
  | true => exact sound_answer_stale sound stale c guarded

theorem storeRollback_run {height : Nat} {b : Blockchain Sqlite.Store} (above : height < b.storage.currentHeight) :
    ∃ storage, storeRollback (Sqlite.backend E choices) height b = (.ok (),{ b with storage := storage }) ∧
      Sqlite.RolledBack E height b.storage storage := by
  obtain ⟨storage,run,rolled⟩ := Sqlite.rollback_run E choices above
  have run : inStorage (Sqlite.rollbackToBlockHeight E choices height) b = _ := inStorage_ok run
  exact ⟨storage,run,rolled⟩

theorem storeRollback_refused {height : Nat} {b : Blockchain Sqlite.Store} (low : b.storage.currentHeight ≤ height) :
    storeRollback (Sqlite.backend E choices) height b = (.error (.storage .rollbackHeight),b) := by
  have run : inStorage (Sqlite.rollbackToBlockHeight E choices height) b = _ := inStorage_error (Sqlite.rollback_refused low)
  exact run

theorem rollStore_ok {height : Nat} {b : Blockchain Sqlite.Store}
    (run : storeRollback (Sqlite.backend E choices) height x.session.emulator = (.ok (),b)) :
    rollStore E choices height x =
      { x with
        session := onEmulator x.session b
        chain := x.chain.filter fun c => c.block.height ≤ height
        stale := true
        inProgress := x.inProgress+1
        removed := x.removed ++ onlyAbove height x } := by
  unfold rollStore
  rw [run]

/-- The first step of a rollback cuts the chain and makes the pending block stale, or does nothing. -/
theorem sound_rollStore (sound : Sound E M config latest x) (height : Nat) :
    ∃ latest, Sound E M config latest (rollStore E choices height x) := by
  by_cases above : height < x.session.emulator.storage.currentHeight
  · have run : ∃ storage, storeRollback (Sqlite.backend E choices) height x.session.emulator =
        (.ok (),{ x.session.emulator with storage := storage }) ∧
      Sqlite.RolledBack E height x.session.emulator.storage storage := storeRollback_run above
    obtain ⟨storage,run,rolled⟩ := run
    have below : height ≤ latest := by have := sound.stored.current; omega
    have cut := stored_rolledBack sound.stored rolled below
    have filtered := chain_filter sound.stored.recorded.chain height
    rw [Nat.sub_zero] at filtered
    rw [rollStore_ok run]
    refine ⟨height,?_,nofun,fun id member inChain => ?_,nofun⟩
    · show Stored E M config (x.chain.filter fun c => c.block.height ≤ height) x.session.seen height storage
      rw [filtered]
      exact cut
    · have member : id ∈ x.gone ++ (x.removed ++ onlyAbove height x) := member
      rw [← List.append_assoc] at member
      rcases List.mem_append.mp member with before | above
      · obtain ⟨c,here,user⟩ := List.mem_flatMap.mp inChain
        exact sound.gone id before (List.mem_flatMap.mpr ⟨c,List.mem_of_mem_filter here,user⟩)
      · exact of_decide_eq_true (List.mem_filter.mp above).2 inChain
  · unfold rollStore
    rw [storeRollback_refused (Nat.le_of_not_lt above)]
    exact ⟨latest,sound⟩

/-- The second step of a rollback begins a pending block on the latest block. -/
theorem sound_reload (sound : Sound E M config latest x) (tick : Tick) :
    ∃ latest, Sound E M config latest (reload E M config choices tick x) := by
  unfold reload
  split
  · exact ⟨latest,sound⟩
  · obtain ⟨last,_,_,found⟩ := Sqlite.recorded_latestBlock choices sound.stored.recorded (Nat.zero_le latest)
    have found : (Sqlite.backend E choices).latestBlock x.session.emulator.storage = .ok last.block := found
    rw [reload_ok tick found]
    have accounted : Accounted E M config x.chain x.session.seen latest
      { x.session.emulator with pendingBlock := newPendingBlock E tick last.block } :=
        accounted_new sound.stored tick found rfl rfl
    refine ⟨latest,accounted.stored,fun _ => accounted.underway,fun id member => ?_,fun _ id _ => List.not_mem_nil⟩
    rcases List.mem_append.mp member with before | none
    · rcases List.mem_append.mp before with lost | pending
      · exact sound.gone id lost
      · exact of_decide_eq_true (List.mem_filter.mp pending).2
    · exact absurd none List.not_mem_nil

theorem sound_move (x : Race) (m : Move) (sound : ∃ latest, Sound E M config latest x)
    (guarded : GuardedMove E M config choices x m) : ∃ latest, Sound E M config latest (move E M config choices m x) := by
  cases m with
  | request r => exact play_keeps sound_answer sound guarded
  | storeRollback height =>
    obtain ⟨latest,sound⟩ := sound
    exact sound_rollStore sound height
  | reload tick =>
    obtain ⟨latest,sound⟩ := sound
    exact sound_reload sound tick

/-- A transaction in a collection of a stored block is in the chain. -/
theorem stored_inCollection {cs seen : List BlockContents} {b : Blockchain Sqlite.Store}
    (stored : Stored E M config cs seen latest b.storage) {id : Identifier} (inside : InCollection (Sqlite.backend E choices) b id) :
    id ∈ cs.flatMap BlockContents.userTransactions := by
  obtain ⟨height,block,guarantee,collection,found,guaranteed,read,member⟩ := inside
  obtain ⟨c,here,rfl,_⟩ := Sqlite.recorded_found choices stored.recorded found
  rw [(stored_filled stored here).guarantees] at guaranteed
  obtain ⟨own,ofBlock,rfl⟩ := List.mem_map.mp guaranteed
  obtain ⟨d,there,other,ofOther,_,again⟩ := Sqlite.archived_someCollection choices stored.archived here ofBlock
  have same : other = collection := Except.ok.inj (again.symm.trans read)
  subst same
  exact List.mem_flatMap.mpr ⟨d,there,List.mem_flatMap.mpr ⟨other,ofOther,member⟩⟩

theorem sound_safe (sound : Sound E M config latest x) :
    Safe E (Sqlite.backend E choices) x.session.emulator x.gone := by
  have recorded := sound.stored.recorded
  refine ⟨⟨latest,Sqlite.recorded_latestBlockHeight choices recorded,fun height => ⟨fun ⟨block,found⟩ => ?_,fun low => ?_⟩⟩,
    fun height lower upper first second => ?_,fun id member inside => ?_⟩
  · by_contra high
    have missing : (Sqlite.backend E choices).blockByHeight height x.session.emulator.storage = .error .notFound :=
      Sqlite.recorded_noBlock choices recorded (.inr (Nat.lt_of_not_le high))
    rw [found] at missing
    cases missing
  · obtain ⟨c,here,rfl⟩ := Sqlite.recorded_at recorded (Nat.zero_le height) low
    exact ⟨c.block,Sqlite.recorded_blockByHeight choices recorded here⟩
  · exact (LinkedChain.recorded_linked recorded sound.stored.linked first second).parentID
  · exact sound.gone id (List.mem_append_left _ member) (stored_inCollection sound.stored inside)

/-- In every interleaving in which no commit gets past its guards while the
    pending block is stale, every state is safe. -/
theorem rollback_safe (reached : Reached E M config choices (GuardedMove E M config choices) x) :
    Safe E (Sqlite.backend E choices) x.session.emulator x.gone := by
  obtain ⟨latest,sound⟩ := reachable_keeps (fun _ => sound_begin) sound_move reached
  exact sound_safe sound

section
open Samples

/-- One transaction is submitted, executed and committed, and then the store is
    rolled back to the first block: only this block is stored, and the pending block
    extends the second one. -/
theorem sample_rolled : ∃ session b, Reached numberEncoding scheduler scheduledConfig .earliest
      (GuardedMove numberEncoding scheduler scheduledConfig .earliest)
      ⟨onEmulator session b,[genesisContents scheduler scheduledConfig ∅ []],true,1,[digest 10],[]⟩ ∧
    b.pendingBlock = newPendingBlock numberEncoding tick (samplePending.block numberEncoding) ∧
    ∃ seen, Stored numberEncoding scheduler scheduledConfig [genesisContents scheduler scheduledConfig ∅ []] seen 0 b.storage := by
  obtain ⟨start,c,sample⟩ := sample_committed
  have run : ∃ storage, storeRollback (Sqlite.backend numberEncoding .earliest) 0 (sampleCommitted start).emulator =
      (.ok (),{ (sampleCommitted start).emulator with storage := storage }) ∧
    Sqlite.RolledBack numberEncoding 0 (sampleCommitted start).emulator.storage storage :=
      storeRollback_run (by rw [sample.currentHeight]; exact Nat.one_pos)
  obtain ⟨storage,run,rolled⟩ := run
  have height := sample_height sample
  have kept : [genesisContents scheduler scheduledConfig ∅ [],c].filter (fun c => c.block.height ≤ 0) =
      [genesisContents scheduler scheduledConfig ∅ []] := by
    rw [List.filter_cons_of_pos rfl,List.filter_cons_of_neg (by rw [height]; decide)]
    rfl
  have upper : ([genesisContents scheduler scheduledConfig ∅ [],c].filter (fun c => 0 < c.block.height)).flatMap
      BlockContents.userTransactions = [digest 10] := by
    rw [List.filter_cons_of_neg (by decide),List.filter_cons_of_pos (by rw [height]; decide)]
    show c.userTransactions ++ [] = _
    rw [sample_userTransactions sample]
    rfl
  have removed : onlyAbove 0 (begin (sampleCommitted start)) = [digest 10] := by
    have chain : (begin (sampleCommitted start)).chain = _ := sample.seen
    have new : (begin (sampleCommitted start)).session.emulator.pendingBlock.transactionIDs = [] :=
      congrArg PendingBlock.transactionIDs sample.pending
    unfold onlyAbove
    rw [chain,upper,kept,new]
    rfl
  have begun : Reached numberEncoding scheduler scheduledConfig .earliest
    (GuardedMove numberEncoding scheduler scheduledConfig .earliest) (begin start) := reachable_initial ⟨start,sample.started,rfl⟩
  have added : Reached numberEncoding scheduler scheduledConfig .earliest
    (GuardedMove numberEncoding scheduler scheduledConfig .earliest) (begin (sampleAdded start)) :=
      reached_begin begun (.addTransaction (numbered 10))
  have executed : Reached numberEncoding scheduler scheduledConfig .earliest
    (GuardedMove numberEncoding scheduler scheduledConfig .earliest) (begin (sampleExecuted start)) :=
      reached_begin added .executeNextTransaction
  have committed : Reached numberEncoding scheduler scheduledConfig .earliest
    (GuardedMove numberEncoding scheduler scheduledConfig .earliest) (begin (sampleCommitted start)) :=
      reached_begin executed (.commitBlock tick)
  have after := reachable_step (a := .storeRollback 0) committed trivial
  have cut : rollStore numberEncoding .earliest 0 (begin (sampleCommitted start)) =
      ⟨onEmulator (sampleCommitted start) { (sampleCommitted start).emulator with storage := storage },
        [genesisContents scheduler scheduledConfig ∅ []],true,1,[digest 10],[]⟩ := by
    rw [rollStore_ok (x := begin (sampleCommitted start)) run]
    show (⟨onEmulator (sampleCommitted start) _,(sampleCommitted start).seen.filter (fun c => c.block.height ≤ 0),true,1,
      onlyAbove 0 (begin (sampleCommitted start)),[]⟩ : Race) = _
    rw [sample.seen,kept,removed]
  exact ⟨sampleCommitted start,{ (sampleCommitted start).emulator with storage := storage },cut ▸ after,
    sample.block ▸ sample.pending,_,stored_rolledBack sample.accounted.stored rolled (Nat.zero_le 1)⟩

/-- A commit between the two steps of a rollback stores a block above a gap. -/
theorem commit_before_reload_gap : ∃ x block,
    Reached numberEncoding scheduler scheduledConfig .earliest (fun _ _ => True) x ∧
    (Sqlite.backend numberEncoding .earliest).blockByHeight 1 x.session.emulator.storage = .error .notFound ∧
    (Sqlite.backend numberEncoding .earliest).blockByHeight 2 x.session.emulator.storage = .ok block ∧
    ¬ Safe numberEncoding (Sqlite.backend numberEncoding .earliest) x.session.emulator x.gone := by
  obtain ⟨session,b,rolled,pending,seen,stored⟩ := sample_rolled
  obtain ⟨c,made,counted,height⟩ : ∃ c, (sealBlock numberEncoding scheduler scheduledConfig
      (Sqlite.backend numberEncoding .earliest) b).1 = .ok c ∧ c.Counted ∧ c.block.height = 2 := by
    obtain ⟨storage,_,entropy,autoMine⟩ := b
    cases pending
    have ended : (attempted numberEncoding scheduler scheduledConfig (Sqlite.backend numberEncoding .earliest)
      ⟨storage,newPendingBlock numberEncoding tick (samplePending.block numberEncoding),entropy,autoMine⟩).2 = .ok (_,_) := rfl
    have distinct : [digest 1,digest 2,digest 3].Nodup := by decide
    exact ⟨_,rfl,(sealed_counted (listed_new ..) (sealed_attempted ended)).mpr ⟨rfl,distinct⟩,rfl⟩
  have ready : b.pendingBlock.index = b.pendingBlock.size := by rw [pending]; rfl
  obtain ⟨after,run,wrote⟩ := commit_succeeds stored tick ready made counted
  have archived := Sqlite.archived_saved stored.archived wrote (fun d only => by
    rw [List.mem_singleton.mp only,height]
    decide)
  have missing : (Sqlite.backend numberEncoding .earliest).blockByHeight 1 after.storage = .error .notFound := by
    refine Sqlite.archived_noBlock .earliest archived (fun d there => ?_)
    rcases List.mem_append.mp there with only | only
    · rw [List.mem_singleton.mp only]
      decide
    · rw [List.mem_singleton.mp only,height]
      decide
  have found : (Sqlite.backend numberEncoding .earliest).blockByHeight 2 after.storage = .ok c.block := by
    rw [← height]
    refine Sqlite.archived_block .earliest archived (List.mem_append_right _ List.mem_cons_self) (fun d there same => ?_)
    rcases List.mem_append.mp there with only | only
    · rw [List.mem_singleton.mp only,height] at same
      cases same
    · rw [List.mem_singleton.mp only]
  have next := reachable_step (a := .request (.commitBlock tick)) (reachable_any rolled) trivial
  have last : (move numberEncoding scheduler scheduledConfig .earliest (.request (.commitBlock tick))
      ⟨onEmulator session b,[genesisContents scheduler scheduledConfig ∅ []],true,1,[digest 10],[]⟩).session.emulator = after := by
    rw [move_request_session]
    exact congrArg Prod.snd run
  rw [← last] at missing found
  refine ⟨_,c.block,next,missing,found,fun safe => ?_⟩
  obtain ⟨latest,_,whole⟩ := safe.heights
  have two : 2 ≤ latest := (whole 2).mp ⟨c.block,found⟩
  obtain ⟨block,one⟩ := (whole 1).mpr (by omega)
  rw [missing] at one
  cases one

/-- A rollback between whose steps nothing is committed. -/
theorem rollback_safe_sample : ∃ x, Reached numberEncoding scheduler scheduledConfig .earliest
      (GuardedMove numberEncoding scheduler scheduledConfig .earliest) x ∧ x.gone = [digest 10] ∧
    Safe numberEncoding (Sqlite.backend numberEncoding .earliest) x.session.emulator x.gone := by
  obtain ⟨session,b,reached,pending,_⟩ := sample_rolled
  have after := reachable_step (a := .reload tick) reached trivial
  refine ⟨_,after,?_,rollback_safe after⟩
  have empty : b.pendingBlock.transactionIDs = [] := by rw [pending]; rfl
  show [digest 10] ++ b.pendingBlock.transactionIDs.filter (fun id =>
    id ∉ [genesisContents scheduler scheduledConfig ∅ []].flatMap BlockContents.userTransactions) = _
  rw [empty]
  rfl

end
end
end FlowEmulator.RollbackRace
