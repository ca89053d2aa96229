import FlowEmulator.Submissions

/-!
How far a transaction that was accepted is. Clients see it as pending or as
sealed, and what is sealed stays as it is. On a machine that never fails it is
sealed after three more turns of the ticker at the latest, whatever requests of
clients come between them: once the ticker has executed the pending block nothing
can be added to it, so that the next commit takes it, the ticker's or that of a
client before it.
-/
namespace FlowEmulator.Submissions
open FlowEmulator.Fallible FlowEmulator.Blockchain FlowEmulator.Chronicle FlowEmulator.Run
open FlowEmulator.Sqlite (Choices)

/-- All that is asked of the virtual machine succeeds, and the system transactions
    of a block have different identifiers. -/
structure Dependable (E : Encoding) (M : Machine) (config : Config) (choices : Choices) : Prop extends Machine.Steady M where
  seals : ∀ b : Blockchain Sqlite.Store, b.pendingBlock.finalized = false →
    ∃ ended, (attempted E M config (Sqlite.backend E choices) b).2 = .ok ended ∧
      (transactionIDs E (attempted E M config (Sqlite.backend E choices) b).1).Nodup

/-- The chain, from which no block was removed, and the pending block hold what was accepted. -/
structure Sound (E : Encoding) (M : Machine) (config : Config) (x : Session) : Prop where
  accounted : ∃ latest, Accounted E M config x.seen x.seen latest x.emulator
  ordered : transactionsOf x.seen x.emulator.pendingBlock = x.accepted

/-- The pending block has a result for each transaction that was executed, and its ledger is open. -/
structure Whole (E : Encoding) (M : Machine) (config : Config) (x : Session) : Prop extends Sound E M config x where
  tallied : ∃ runs, Tallied E x.emulator.pendingBlock runs
  opened : x.emulator.pendingBlock.finalized = false

/-- The transaction is in a block of the chain. -/
def Committed (id : Identifier) (x : Session) : Prop := ∃ c ∈ x.seen, id ∈ c.userTransactions

/-- The transaction is in the pending block, and all of the block is executed. -/
def Executed (id : Identifier) (x : Session) : Prop :=
  id ∈ x.emulator.pendingBlock.transactionIDs ∧ x.emulator.pendingBlock.index = x.emulator.pendingBlock.size

/-- How many turns of the ticker there are. -/
def ticks : List Turn → Nat
  | [] => 0
  | .client _ _ _ :: rest => ticks rest
  | .ticker _ :: rest => ticks rest+1

section
variable {E : Encoding} {M : Machine} {config : Config} {choices : Choices} {x : Session} {id : Identifier}

theorem sound_listed (sound : Sound E M config x) : Listed E x.emulator.pendingBlock := by
  obtain ⟨_,accounted⟩ := sound.accounted
  exact accounted.underway.tracked.listed

theorem sound_accepted (sound : Sound E M config x) (accepted : id ∈ x.accepted) :
    Committed id x ∨ id ∈ x.emulator.pendingBlock.transactionIDs := by
  rw [← sound.ordered] at accepted
  exact (List.mem_append.mp accepted).imp_left List.mem_flatMap.mp

theorem whole_started (started : Started E M config choices x) : Whole E M config x := by
  obtain ⟨_,_,_,seen,pending,accounted⟩ := started_accounted started
  obtain ⟨_,_,_,_,_,_,_,_,accepted,_⟩ := started
  refine ⟨⟨⟨0,accounted⟩,?_⟩,⟨[],?_⟩,?_⟩
  · rw [seen,accepted,pending]
    rfl
  · rw [pending]
    exact ⟨rfl,rfl⟩
  · rw [pending]
    rfl

theorem sound_take (x : Session) (c : Call) (sound : Sound E M config x) (keeps : c.resets = false) :
    Sound E M config (take E M config choices c x) := by
  obtain ⟨latest,accounted⟩ := sound.accounted
  obtain ⟨height,longer,transactions⟩ := accounted_take choices accounted c
  refine ⟨⟨height,longer⟩,?_⟩
  show transactionsOf (x.seen ++ committedBy E M config choices x.emulator c) _ = _
  rw [transactions keeps,sound.ordered]
  rfl

theorem committed_take (c : Call) (committed : Committed id x) : Committed id (take E M config choices c x) := by
  obtain ⟨block,here,member⟩ := committed
  exact ⟨block,List.mem_append_left _ here,member⟩

/-- A turn is a request that does not drop the pending block. -/
theorem turn_request (E : Encoding) (M : Machine) (config : Config) (choices : Choices) (t : Turn) (x : Traffic) :
    ∃ r, drops r = false ∧ (turn E M config choices t x).session = step E M config choices (.request r) x.session := by
  cases t with
  | client name r keeps => exact ⟨r,keeps,rfl⟩
  | ticker tick =>
    rw [turn]
    split
    · exact ⟨.commitBlock tick,rfl,rfl⟩
    · exact ⟨.executeBlock,rfl,rfl⟩

/-- What the calls of a request keep, the turns keep. -/
theorem turns_keep {kept : Session → Prop} (each : ∀ x c, kept x → c.resets = false → kept (take E M config choices c x))
    (turns : List Turn) (x : Traffic) (now : kept x.session) : kept (play (turn E M config choices) turns x).session := by
  have one (x : Traffic) (t : Turn) (now : kept x.session) (_ : True) : kept (turn E M config choices t x).session := by
    obtain ⟨r,keeps,same⟩ := turn_request E M config choices t x
    rw [same]
    exact play_keeps each now (throughout_all (callsOf_keep keeps x.session.emulator))
  exact play_keeps one now (throughout_all fun _ _ => trivial)

/-! ### What is sealed stays -/

/-- A block of the chain stays. -/
theorem seen_turns {c : BlockContents} (turns : List Turn) (x : Traffic) (here : c ∈ x.session.seen) :
    c ∈ (play (turn E M config choices) turns x).session.seen := by
  have each (x : Session) (call : Call) (here : c ∈ x.seen) (_ : call.resets = false) :
      c ∈ (take E M config choices call x).seen := List.mem_append_left _ here
  exact turns_keep each turns x here

theorem reached_sound {x : Traffic} (reached : Reached E M config choices x) : Sound E M config x.session := by
  obtain ⟨start,turns,started,rfl⟩ := reached
  exact turns_keep sound_take turns _ (whole_started started).toSound

/-- A transaction of the chain is sealed, with the result that its block has. -/
theorem committed_sealed (choices : Choices) (sound : Sound E M config x) (committed : Committed id x) : ∃ c ∈ x.seen, ∃ result,
    c.transactionResults.lookup id = some result ∧
      getTransactionResult (Sqlite.backend E choices) id x.emulator = .ok (sealedResult id result) := by
  obtain ⟨latest,accounted⟩ := sound.accounted
  obtain ⟨c,here,user⟩ := committed
  obtain ⟨result,found⟩ := Option.isSome_iff_exists.mp
    (AList.lookup_isSome.mpr (((stored_filled accounted.stored here).results id).mpr user))
  exact ⟨c,here,result,found,accounted_sealed choices accounted here found⟩

/-- In every interleaving a transaction that was accepted is pending or sealed, and
    a result that clients have seen as sealed is the one they see from then on. -/
theorem status_only_advances {x : Traffic} (reached : Reached E M config choices x) (accepted : id ∈ x.session.accepted)
    (turns : List Turn) : ∃ result, getTransactionResult (Sqlite.backend E choices) id x.session.emulator = .ok result ∧
      (result.status = .pending ∨ result.status = .sealed ∧
        getTransactionResult (Sqlite.backend E choices) id (play (turn E M config choices) turns x).session.emulator =
          .ok result) := by
  have sound := reached_sound reached
  rcases sound_accepted sound accepted with committed | pending
  · obtain ⟨c,here,result,found,answer⟩ := committed_sealed choices sound committed
    obtain ⟨latest,later⟩ := (turns_keep sound_take turns x sound).accounted
    exact ⟨_,answer,.inr ⟨rfl,accounted_sealed choices later (seen_turns turns x here) found⟩⟩
  · obtain ⟨latest,accounted⟩ := sound.accounted
    exact ⟨_,accounted_pending choices accounted pending,.inl rfl⟩

end

section
open FlowEmulator.Samples

/-- A transaction is accepted after the ticker has executed, so that its next turn commits an empty block. -/
theorem sample_late : ∃ x, Reached numberEncoding machine config .earliest x ∧ x.executed = true ∧
    digest 10 ∈ x.session.accepted := by
  have bootstrapped (registers : Registers) : machine.bootstrap config.getChainID registers = .ok (∅,[]) := rfl
  obtain ⟨storage,created,_,missing⟩ := sample_begun (E := numberEncoding) bootstrapped false
  let start : Session := ⟨⟨storage,newPendingBlock numberEncoding tick (genesis machine .emulator),zeroID,false⟩,
    [genesisContents machine config ∅ []],[],false⟩
  have started : Started numberEncoding machine config .earliest start :=
    ⟨.inMemory,tick,false,∅,[],created,bootstrapped _,rfl,rfl,rfl⟩
  have added : addTransaction numberEncoding machine (Sqlite.backend numberEncoding .earliest) (numbered 10) start.emulator =
      (.ok (),{ start.emulator with pendingBlock := start.emulator.pendingBlock.addTransaction numberEncoding (numbered 10) }) :=
    addTransaction_ok rfl rfl (missing _) rfl
  have reached : Reached numberEncoding machine config .earliest
      ⟨take numberEncoding machine config .earliest (.addTransaction (numbered 10)) start,true⟩ :=
    ⟨start,[.ticker tick,.client 0 (.addTransaction (numbered 10)) rfl],started,rfl⟩
  refine ⟨_,reached,rfl,?_⟩
  show digest 10 ∈ [] ++ acceptedBy numberEncoding machine .earliest start.emulator (.addTransaction (numbered 10))
  rw [acceptedBy,added]
  exact List.mem_singleton_self _

theorem status_only_advances_late : ∃ x, Reached numberEncoding machine config .earliest x ∧
    digest 10 ∈ x.session.accepted ∧ ∃ result,
      getTransactionResult (Sqlite.backend numberEncoding .earliest) (digest 10) x.session.emulator = .ok result ∧
        (result.status = .pending ∨ result.status = .sealed ∧
          getTransactionResult (Sqlite.backend numberEncoding .earliest) (digest 10)
            (play (turn numberEncoding machine config .earliest) [.ticker tick,.ticker tick] x).session.emulator =
              .ok result) := by
  obtain ⟨x,reached,_,accepted⟩ := sample_late
  exact ⟨x,reached,accepted,status_only_advances reached accepted _⟩

end

section
variable {E : Encoding} {M : Machine} {config : Config} {choices : Choices} {x : Session} {id : Identifier}

/-- There is nothing to execute in a block that is complete. -/
theorem complete_executes {b : Blockchain Sqlite.Store} (complete : b.pendingBlock.executionComplete = true) :
    (executeNextTransaction E M (Sqlite.backend E choices) b).2 = b := by
  rw [executeNextTransaction,bind_ok (view_run _ b),complete]
  rfl

/-! ### What the machine makes possible -/

section
variable (dependable : Dependable E M config choices)
include dependable

/-- A block that is executed can be committed, and holds the transactions of the pending block. -/
theorem dependable_commits (whole : Whole E M config x) (tick : Tick)
    (ready : x.emulator.pendingBlock.index = x.emulator.pendingBlock.size) : ∃ c after,
      commitBlock E M config (Sqlite.backend E choices) tick x.emulator = (.ok c.block,after) ∧
      (sealBlock E M config (Sqlite.backend E choices) x.emulator).1 = .ok c ∧
      after.pendingBlock = newPendingBlock E tick c.block ∧ c.userTransactions = x.emulator.pendingBlock.transactionIDs := by
  obtain ⟨latest,accounted⟩ := whole.accounted
  obtain ⟨runs,tallied⟩ := whole.tallied
  have listed := sound_listed whole.toSound
  obtain ⟨⟨system,chunk⟩,ended,distinct⟩ := dependable.seals x.emulator whole.opened
  have sealed := sealed_attempted ended
  have counted := (sealed_counted listed sealed).mpr ⟨by rw [tallied_count tallied listed,ready],distinct⟩
  have made : (sealBlock E M config (Sqlite.backend E choices) x.emulator).1 = .ok (sealedContents E x.emulator.pendingBlock
      (attempted E M config (Sqlite.backend E choices) x.emulator).1 system chunk) := by
    rw [sealBlock_attempt,ended]
    rfl
  obtain ⟨after,done,pending,_⟩ := accounted_commit_succeeds accounted tick ready made counted
  exact ⟨_,after,done,made,pending,sealed_userTransactions sealed⟩

theorem whole_take (x : Session) (c : Call) (whole : Whole E M config x) (keeps : c.resets = false) :
    Whole E M config (take E M config choices c x) := by
  obtain ⟨runs,tallied⟩ := whole.tallied
  have listed := sound_listed whole.toSound
  suffices still : (∃ runs, Tallied E (take E M config choices c x).emulator.pendingBlock runs) ∧
      (take E M config choices c x).emulator.pendingBlock.finalized = false from
    ⟨sound_take x c whole.toSound keeps,still.1,still.2⟩
  cases c with
  | addTransaction tx =>
    have adds := addTransaction_adds E M (Sqlite.backend E choices) tx x.emulator
    exact ⟨⟨runs,adds_tallied adds listed tallied⟩,(adds_finalized adds).trans whole.opened⟩
  | executeNextTransaction =>
    have executes := executeNextTransaction_executes E M (Sqlite.backend E choices) x.emulator
    refine ⟨?_,(executes_finalized executes).trans whole.opened⟩
    show ∃ runs, Tallied E (executeNextTransaction E M (Sqlite.backend E choices) x.emulator).2.pendingBlock runs
    cases complete : x.emulator.pendingBlock.executionComplete with
    | true =>
      rw [complete_executes complete]
      exact ⟨runs,tallied⟩
    | false =>
      obtain ⟨run,result,here,done⟩ := steady_executes (B := Sqlite.backend E choices) dependable.toSteady listed whole.opened complete
      rw [done]
      exact ⟨runs ++ [run],tallied_run tallied listed here⟩
  | commitBlock tick =>
    show (∃ runs, Tallied E (commitBlock E M config (Sqlite.backend E choices) tick x.emulator).2.pendingBlock runs) ∧
      (commitBlock E M config (Sqlite.backend E choices) tick x.emulator).2.pendingBlock.finalized = false
    by_cases ready : x.emulator.pendingBlock.index = x.emulator.pendingBlock.size
    · obtain ⟨c,after,done,_,pending,_⟩ := dependable_commits dependable whole tick ready
      rw [done,pending]
      exact ⟨⟨[],rfl,rfl⟩,rfl⟩
    · have commits : Commits E M config (Sqlite.backend E choices) tick x.emulator
        (commitBlock E M config (Sqlite.backend E choices) tick x.emulator) := commitBlock_commits tick x.emulator
      have bound := listed.bound
      generalize commitBlock E M config (Sqlite.backend E choices) tick x.emulator = out at commits ⊢
      cases commits with
      | refused => exact ⟨⟨runs,tallied⟩,whole.opened⟩
      | unsealed other => omega
      | unsaved other => omega
      | committed other => omega
  | resetPendingBlock tick => cases keeps
  | setClock now => exact ⟨⟨runs,tallied.ids,tallied.results⟩,whole.opened⟩
  | setAutoMine on => exact ⟨⟨runs,tallied⟩,whole.opened⟩

/-! ### One transaction -/

/-- A commit takes a transaction of an executed block into the chain. -/
theorem executed_commit (whole : Whole E M config x) (tick : Tick) (executed : Executed id x) :
    Committed id (take E M config choices (.commitBlock tick) x) := by
  obtain ⟨c,after,done,made,_,users⟩ := dependable_commits dependable whole tick executed.2
  rw [take_commit_saved done made]
  exact ⟨c,List.mem_append_right _ List.mem_cons_self,by rw [users]; exact executed.1⟩

/-- Nothing is added to a block that is executed. -/
theorem executed_take (whole : Whole E M config x) {c : Call} (keeps : c.resets = false) (executed : Executed id x) :
    Committed id (take E M config choices c x) ∨ Executed id (take E M config choices c x) := by
  have kept {y : Session} (same : y.emulator.pendingBlock = x.emulator.pendingBlock) : Executed id y := by
    rw [Executed,same]
    exact executed
  cases c with
  | addTransaction tx =>
    refine .inr (kept ?_)
    have some : 0 < x.emulator.pendingBlock.index := by
      rw [executed.2]
      exact List.length_pos_of_mem executed.1
    show (addTransaction E M (Sqlite.backend E choices) tx x.emulator).2.pendingBlock = _
    have adds := addTransaction_adds E M (Sqlite.backend E choices) tx x.emulator
    generalize addTransaction E M (Sqlite.backend E choices) tx x.emulator = out at adds ⊢
    cases adds with
    | added idle => omega
    | _ => rfl
  | executeNextTransaction =>
    refine .inr (kept ?_)
    have complete : x.emulator.pendingBlock.executionComplete = true := decide_eq_true executed.2.ge
    show (executeNextTransaction E M (Sqlite.backend E choices) x.emulator).2.pendingBlock = _
    rw [complete_executes complete]
  | commitBlock tick => exact .inl (executed_commit dependable whole tick executed)
  | resetPendingBlock tick => cases keeps
  | setClock now => exact .inr executed
  | setAutoMine on => exact .inr executed

/-! ### Turns -/

/-- What requests of clients leave: wholeness, and how far a transaction is. -/
structure Proceeds (E : Encoding) (M : Machine) (config : Config) (id : Identifier) (x y : Session) : Prop where
  whole : Whole E M config y
  accepted : id ∈ x.accepted → id ∈ y.accepted
  committed : Committed id x → Committed id y
  executed : Executed id x → Committed id y ∨ Executed id y

theorem proceeds_request {r : Request} (keeps : drops r = false) (whole : Whole E M config x) :
    Proceeds E M config id x (step E M config choices (.request r) x) := by
  have each (y : Session) (c : Call) (proceeds : Proceeds E M config id x y) (keeps : c.resets = false) :
      Proceeds E M config id x (take E M config choices c y) := by
    refine ⟨whole_take dependable y c proceeds.whole keeps,fun there => List.mem_append_left _ (proceeds.accepted there),
      fun there => committed_take c (proceeds.committed there),fun there => ?_⟩
    rcases proceeds.executed there with committed | executed
    · exact .inl (committed_take c committed)
    · exact executed_take dependable proceeds.whole keeps executed
  have first : Proceeds E M config id x x := ⟨whole,fun there => there,fun there => there,.inr⟩
  exact play_keeps each first (throughout_all (callsOf_keep keeps x.emulator))

/-- After the ticker has executed the pending block, a transaction that was accepted is executed or committed. -/
theorem execute_turn (whole : Whole E M config x) (accepted : id ∈ x.accepted) :
    Committed id (step E M config choices (.request .executeBlock) x) ∨
      Executed id (step E M config choices (.request .executeBlock) x) := by
  rcases sound_accepted whole.toSound accepted with committed | pending
  · exact .inl ((proceeds_request dependable rfl whole).committed committed)
  · obtain ⟨ids,complete⟩ := steady_completes (B := Sqlite.backend E choices) dependable.toSteady (sound_listed whole.toSound)
      whole.opened
    have emulator : (step E M config choices (.request .executeBlock) x).emulator =
        (executeBlock E M (Sqlite.backend E choices) x.emulator).2 := step_request_emulator .executeBlock x
    refine .inr ?_
    rw [Executed,emulator,PendingBlock.size,ids]
    exact ⟨pending,complete⟩

/-- How many turns of the ticker are enough: one after it has executed the
    transaction, two before it executes, and one more if its turn is to commit. -/
theorem committed_turns (turns : List Turn) (x : Traffic) (whole : Whole E M config x.session)
    (accepted : id ∈ x.session.accepted)
    (enough : Committed id x.session ∨ x.executed = true ∧ Executed id x.session ∧ 1 ≤ ticks turns ∨
      x.executed = false ∧ 2 ≤ ticks turns ∨ 3 ≤ ticks turns) :
    Whole E M config (play (turn E M config choices) turns x).session ∧
      Committed id (play (turn E M config choices) turns x).session := by
  induction turns generalizing x with
  | nil =>
    refine ⟨whole,?_⟩
    rcases enough with committed | ⟨_,_,few⟩ | ⟨_,few⟩ | few
    · exact committed
    all_goals exact absurd few (by simp [ticks])
  | cons t rest ih =>
    rw [play_cons]
    cases t with
    | client name r keeps =>
      have proceeds : Proceeds E M config id x.session _ := proceeds_request dependable keeps whole
      refine ih _ proceeds.whole (proceeds.accepted accepted) ?_
      rcases enough with committed | ⟨flag,executed,few⟩ | others
      · exact .inl (proceeds.committed committed)
      · exact (proceeds.executed executed).imp_right fun executed => .inl ⟨flag,executed,few⟩
      · exact .inr (.inr others)
    | ticker tick =>
      cases flag : x.executed with
      | true =>
        have next : turn E M config choices (.ticker tick) x =
            ⟨step E M config choices (.request (.commitBlock tick)) x.session,false⟩ := if_pos flag
        have proceeds : Proceeds E M config id x.session _ := proceeds_request dependable (r := .commitBlock tick) rfl whole
        rw [next]
        refine ih _ proceeds.whole (proceeds.accepted accepted) ?_
        rcases enough with committed | ⟨_,executed,_⟩ | ⟨wrong,_⟩ | few
        · exact .inl (proceeds.committed committed)
        · exact .inl (executed_commit dependable whole tick executed)
        · rw [flag] at wrong
          cases wrong
        · exact .inr (.inr (.inl ⟨rfl,by simp [ticks] at few; omega⟩))
      | false =>
        have next : turn E M config choices (.ticker tick) x =
            ⟨step E M config choices (.request .executeBlock) x.session,true⟩ := if_neg (by rw [flag]; decide)
        have proceeds : Proceeds E M config id x.session _ := proceeds_request dependable (r := .executeBlock) rfl whole
        rw [next]
        refine ih _ proceeds.whole (proceeds.accepted accepted) ?_
        rcases execute_turn dependable whole accepted with committed | executed
        · exact .inl committed
        · rcases enough with committed | ⟨wrong,_⟩ | ⟨_,few⟩ | few
          · exact .inl (proceeds.committed committed)
          · rw [flag] at wrong
            cases wrong
          · exact .inr (.inl ⟨rfl,executed,by simp [ticks] at few; omega⟩)
          · exact .inr (.inl ⟨rfl,executed,by simp [ticks] at few; omega⟩)

end

/-- In every interleaving a transaction that was accepted is sealed after three turns of the ticker at the latest. -/
theorem ticker_seals (dependable : Dependable E M config choices) {x : Traffic} (reached : Reached E M config choices x)
    (accepted : id ∈ x.session.accepted) (turns : List Turn) (enough : 3 ≤ ticks turns) : ∃ result,
      getTransactionResult (Sqlite.backend E choices) id (play (turn E M config choices) turns x).session.emulator =
        .ok result ∧ result.status = .sealed := by
  obtain ⟨start,before,started,rfl⟩ := reached
  have whole := turns_keep (whole_take dependable) before ⟨start,false⟩ (whole_started started)
  obtain ⟨after,committed⟩ := committed_turns dependable turns _ whole accepted (.inr (.inr (.inr enough)))
  obtain ⟨_,_,_,_,answer⟩ := committed_sealed choices after.toSound committed
  exact ⟨_,answer,rfl⟩

end

section
open FlowEmulator.Samples

/-- The machine on which every transaction succeeds and does nothing is dependable. -/
theorem sample_dependable (E : Encoding) : Dependable E machine config .earliest where
  runs _ _ _ _ := ⟨_,_,rfl⟩
  merges _ _ := rfl
  converts _ := rfl
  seals b opened := by
    rw [attempted_open opened]
    exact ⟨_,rfl,List.nodup_singleton _⟩

theorem ticker_seals_late : ∃ x, Reached numberEncoding machine config .earliest x ∧ x.executed = true ∧
    digest 10 ∈ x.session.accepted ∧ ∃ result,
      getTransactionResult (Sqlite.backend numberEncoding .earliest) (digest 10)
        (play (turn numberEncoding machine config .earliest) [.ticker tick,.ticker tick,.ticker tick] x).session.emulator =
          .ok result ∧ result.status = .sealed := by
  obtain ⟨x,reached,executed,accepted⟩ := sample_late
  exact ⟨x,reached,executed,accepted,ticker_seals (sample_dependable numberEncoding) reached accepted _ (by decide)⟩

end
end FlowEmulator.Submissions
