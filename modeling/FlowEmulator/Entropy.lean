import FlowEmulator.Running
import FlowEmulator.Sessions

/-!
The source of entropy of transactions, which is to be the identifier of the
latest block. A commit sets it, and nothing else does: an emulator starts without
it, and a rollback or a snapshot leaves the one of the block that was committed
last. So it is right exactly when that block is the latest one of the store.
-/
namespace FlowEmulator.Blockchain
open FlowEmulator.Fallible FlowEmulator.Run

/-- An emulator with the block it has committed last since it was started. -/
structure Watched (σ : Type) where
  emulator : Blockchain σ
  committed : Option Block

/-- The block that a commit returns, and the one before if it fails. -/
def lastBlock (before : Option Block) : Except EmulatorError Block → Option Block
  | .ok block => some block
  | .error _ => before

section
variable {σ : Type} (E : Encoding) (M : Machine) (config : Config) (B : Backend σ) (reopen : σ → Except StoreError σ)

def watchCall : Call → Watched σ → Watched σ
  | .commitBlock tick, x => ⟨(commitBlock E M config B tick x.emulator).2,
      lastBlock x.committed (commitBlock E M config B tick x.emulator).1⟩
  | c, x => { x with emulator := call E M config B c x.emulator }

/-- A start forgets what was committed. -/
def watchRestart (tick : Tick) (autoMine : Bool) (x : Watched σ) : Watched σ :=
  match reopen x.emulator.storage with
  | .error _ => x
  | .ok storage => match newBlockchain E M config B tick autoMine storage with
    | .ok started => ⟨started,none⟩
    | .error _ => x

/-- An action, with the calls it makes. -/
def watch : Action → Watched σ → Watched σ
  | .request r, x => play (watchCall E M config B) (callsOf E M B r x.emulator) x
  | .rollback tick height, x => { x with emulator := (rollbackToBlockHeight E M config B tick height x.emulator).2 }
  | .createSnapshot tick name, x => { x with emulator := (createSnapshot E M config B tick name x.emulator).2 }
  | .loadSnapshot tick name, x => { x with emulator := (loadSnapshot E M config B tick name x.emulator).2 }
  | .restart tick autoMine, x => watchRestart E M config B reopen tick autoMine x

/-- The emulators that actions reach from a start, with what they have committed. -/
def WatchedRun (x : Watched σ) : Prop :=
  Reachable (watch E M config B reopen) (fun _ _ => True) (fun x => Begun E M config B x.emulator ∧ x.committed = none) x

end

section
variable {σ : Type} {E : Encoding} {M : Machine} {config : Config} {B : Backend σ} {reopen : σ → Except StoreError σ}

theorem play_watchCall_emulator (calls : List Call) (x : Watched σ) :
    (play (watchCall E M config B) calls x).emulator = play (call E M config B) calls x.emulator :=
  play_project (fun c x => by cases c <;> rfl) calls x

/-- Watching changes nothing. -/
theorem watch_emulator (a : Action) (x : Watched σ) :
    (watch E M config B reopen a x).emulator = act E M config B reopen a x.emulator := by
  cases a with
  | request r =>
    show (play (watchCall E M config B) (callsOf E M B r x.emulator) x).emulator = request E M config B r x.emulator
    rw [play_watchCall_emulator,request_calls]
  | restart tick autoMine =>
    show (watchRestart E M config B reopen tick autoMine x).emulator = restart E M config B reopen tick autoMine x.emulator
    unfold watchRestart restart
    rcases reopen x.emulator.storage with e | storage
    · rfl
    · dsimp only
      rcases newBlockchain E M config B tick autoMine storage with e | started <;> rfl
  | _ => rfl

/-- The entropy is the identifier of the block that was committed last, and zero before. -/
def Sourced (E : Encoding) (x : Watched σ) : Prop := x.emulator.latestEntropy = (x.committed.map E.blockID).getD zeroID

theorem begun_entropy {b : Blockchain σ} (begun : Begun E M config B b) : b.latestEntropy = zeroID := by
  obtain ⟨tick,autoMine,storage,started⟩ := begun
  exact (new_renewed started).1

theorem sourced_call (x : Watched σ) (c : Call) (sourced : Sourced E x) : Sourced E (watchCall E M config B c x) := by
  cases c with
  | addTransaction tx =>
    have adds := addTransaction_adds E M B tx x.emulator
    show (addTransaction E M B tx x.emulator).2.latestEntropy = _
    generalize addTransaction E M B tx x.emulator = out at adds ⊢
    cases adds <;> exact sourced
  | executeNextTransaction =>
    have executes := executeNextTransaction_executes E M B x.emulator
    show (executeNextTransaction E M B x.emulator).2.latestEntropy = _
    generalize executeNextTransaction E M B x.emulator = out at executes ⊢
    cases executes <;> exact sourced
  | commitBlock tick =>
    have commits : Commits E M config B tick x.emulator (commitBlock E M config B tick x.emulator) :=
      commitBlock_commits tick x.emulator
    show (commitBlock E M config B tick x.emulator).2.latestEntropy = (Option.map E.blockID
      (lastBlock x.committed (commitBlock E M config B tick x.emulator).1)).getD zeroID
    generalize commitBlock E M config B tick x.emulator = out at commits ⊢
    cases commits with
    | committed ready c made sealed storage run => rfl
    | _ => exact sourced
  | resetPendingBlock tick =>
    show (resetPendingBlock E B tick x.emulator).2.latestEntropy = _
    rcases resetPendingBlock_run tick x.emulator with same | ⟨block,_,done⟩
    · rw [same]
      exact sourced
    · rw [done]
      exact sourced
  | setClock now => exact sourced
  | setAutoMine on => exact sourced

theorem sourced_watch (x : Watched σ) (a : Action) (sourced : Sourced E x) (_ : True) :
    Sourced E (watch E M config B reopen a x) := by
  cases a with
  | request r =>
    exact play_keeps (fun x c sourced (_ : True) => sourced_call x c sourced) sourced (throughout_all fun _ _ => trivial)
  | rollback tick height => exact (rollback_renewed tick height x.emulator).entropy.trans sourced
  | createSnapshot tick name => exact (createSnapshot_renewed tick name x.emulator).entropy.trans sourced
  | loadSnapshot tick name => exact (loadSnapshot_renewed tick name x.emulator).entropy.trans sourced
  | restart tick autoMine =>
    show Sourced E (watchRestart E M config B reopen tick autoMine x)
    unfold watchRestart
    rcases reopen x.emulator.storage with e | storage
    · exact sourced
    · dsimp only
      rcases started : newBlockchain E M config B tick autoMine storage with e | after
      · exact sourced
      · exact begun_entropy ⟨tick,autoMine,storage,started⟩

theorem watched_sourced {x : Watched σ} (reached : WatchedRun E M config B reopen x) : Sourced E x := by
  have first (x : Watched σ) (initial : Begun E M config B x.emulator ∧ x.committed = none) : Sourced E x := by
    unfold Sourced
    rw [begun_entropy initial.1,initial.2]
    rfl
  exact reachable_keeps first sourced_watch reached

/-- The source of entropy is the latest block of the store. -/
def EntropyFollows (E : Encoding) (B : Backend σ) (b : Blockchain σ) : Prop :=
  ∃ latest, B.latestBlock b.storage = .ok latest ∧ b.latestEntropy = E.blockID latest

/-- In every run the source of entropy is the latest block exactly when this is
    the block that was committed last since the emulator was started. The latest
    block is taken to have another identifier than zero, and than that block if
    they differ. -/
theorem entropyFollows_iff {x : Watched σ} (reached : WatchedRun E M config B reopen x) {latest : Block}
    (found : B.latestBlock x.emulator.storage = .ok latest) (proper : E.blockID latest ≠ zeroID)
    (distinct : ∀ block, x.committed = some block → E.blockID block = E.blockID latest → block = latest) :
    EntropyFollows E B x.emulator ↔ x.committed = some latest := by
  have sourced := watched_sourced reached
  constructor
  · rintro ⟨_,again,same⟩
    rw [found] at again
    cases again
    rw [sourced] at same
    cases committed : x.committed with
    | none =>
      rw [committed] at same
      exact absurd same.symm proper
    | some block =>
      rw [committed] at same
      rw [distinct block committed same]
  · intro last
    refine ⟨latest,found,sourced.trans ?_⟩
    rw [last]
    rfl

end

/-! ### A start and a rollback -/

section
open FlowEmulator.Samples FlowEmulator.Chronicle

/-- The encoding under which no block has the identifier zero. -/
def positiveEncoding : Encoding := { numberEncoding with blockID := fun b => digest (b.height+1) }

/-- An emulator that has just started, and the same emulator after it has committed a block. -/
theorem entropy_sample : ∃ first second : Watched Sqlite.Store, ∃ c : BlockContents,
    WatchedRun positiveEncoding machine config (Sqlite.backend positiveEncoding .earliest) .ok first ∧
    first.emulator.latestEntropy = zeroID ∧
    Accounted positiveEncoding machine config [genesisContents machine config ∅ []] [genesisContents machine config ∅ []] 0
      first.emulator ∧
    WatchedRun positiveEncoding machine config (Sqlite.backend positiveEncoding .earliest) .ok second ∧
    second.committed = some c.block ∧ c.block.height = 1 ∧ second.emulator.storage.currentHeight = 1 ∧
    Accounted positiveEncoding machine config [genesisContents machine config ∅ [],c] [genesisContents machine config ∅ [],c] 1
      second.emulator := by
  have bootstrapped (registers : Registers) : machine.bootstrap config.getChainID registers = .ok (∅,[]) := rfl
  obtain ⟨storage,created,accounted,_⟩ := sample_begun (E := positiveEncoding) bootstrapped false
  let first : Watched Sqlite.Store :=
    ⟨⟨storage,newPendingBlock positiveEncoding tick (genesis machine config.getChainID),zeroID,false⟩,none⟩
  have reached : WatchedRun positiveEncoding machine config (Sqlite.backend positiveEncoding .earliest) .ok first :=
    reachable_initial ⟨⟨tick,false,_,created⟩,rfl⟩
  obtain ⟨c,_,made,counted,_,block⟩ :=
    sealBlock_ok positiveEncoding (Sqlite.backend positiveEncoding .earliest) (b := first.emulator) rfl rfl rfl
  have height : c.block.height = 1 := by
    rw [block]
    rfl
  obtain ⟨after,run,_,current,longer⟩ :=
    accounted_commit_succeeds (b := first.emulator) accounted tick rfl (congrArg Prod.fst made) counted
  have step : watch positiveEncoding machine config (Sqlite.backend positiveEncoding .earliest) .ok
      (.request (.commitBlock tick)) first = ⟨after,some c.block⟩ := by
    show Watched.mk (commitBlock positiveEncoding machine config _ tick first.emulator).2
      (lastBlock none (commitBlock positiveEncoding machine config _ tick first.emulator).1) = _
    rw [run]
    rfl
  have next := reachable_step (a := .request (.commitBlock tick)) reached trivial
  rw [step] at next
  exact ⟨first,_,c,reached,rfl,accounted,next,rfl,height,current.trans height,longer⟩

/-- The latest block of a store is the one of the chain with the latest height. -/
theorem accounted_latestBlock {E : Encoding} {M : Machine} {config : Config} {choices : Sqlite.Choices}
    {cs seen : List BlockContents} {latest : Nat} {b : Blockchain Sqlite.Store} (accounted : Accounted E M config cs seen latest b)
    {c : BlockContents} (here : c ∈ cs) (height : c.block.height = latest) :
    (Sqlite.backend E choices).latestBlock b.storage = .ok c.block := by
  obtain ⟨last,there,lastHeight,found⟩ := Sqlite.recorded_latestBlock choices accounted.stored.recorded (Nat.zero_le latest)
  have same := chain_height_inj accounted.stored.recorded.chain there here (lastHeight.trans height.symm)
  rw [← same]
  exact found

theorem entropyFollows_iff_sample : ∃ (x : Watched Sqlite.Store) (latest : Block),
    WatchedRun positiveEncoding machine config (Sqlite.backend positiveEncoding .earliest) .ok x ∧
    x.committed = some latest ∧ EntropyFollows positiveEncoding (Sqlite.backend positiveEncoding .earliest) x.emulator := by
  obtain ⟨_,second,c,_,_,_,reached,committed,height,_,accounted⟩ := entropy_sample
  have found : (Sqlite.backend positiveEncoding .earliest).latestBlock second.emulator.storage = .ok c.block :=
    accounted_latestBlock accounted (List.mem_cons_of_mem _ List.mem_cons_self) height
  have proper : positiveEncoding.blockID c.block ≠ zeroID := by
    show digest (c.block.height+1) ≠ zeroID
    rw [height]
    decide
  refine ⟨second,c.block,reached,committed,(entropyFollows_iff reached found proper ?_).mpr committed⟩
  intro block other _
  rw [committed] at other
  exact (Option.some.inj other).symm

/-- A new emulator has no entropy, although the store has the first block. After
    another block was committed and rolled back, the entropy is still the one of
    the block that is gone. -/
theorem entropy_lags : ∃ first last : Watched Sqlite.Store,
    WatchedRun positiveEncoding machine config (Sqlite.backend positiveEncoding .earliest) .ok first ∧
    (Sqlite.backend positiveEncoding .earliest).latestBlock first.emulator.storage = .ok (genesis machine .emulator) ∧
    first.emulator.latestEntropy = zeroID ∧
    WatchedRun positiveEncoding machine config (Sqlite.backend positiveEncoding .earliest) .ok last ∧
    (Sqlite.backend positiveEncoding .earliest).latestBlock last.emulator.storage = .ok (genesis machine .emulator) ∧
    last.emulator.latestEntropy = digest 2 ∧ positiveEncoding.blockID (genesis machine .emulator) = digest 1 ∧
    digest 1 ≠ zeroID ∧ digest 1 ≠ digest 2 := by
  obtain ⟨first,second,c,begun,zero,start,reached,committed,height,current,accounted⟩ := entropy_sample
  obtain ⟨_,_,_,shorter⟩ := accounted_rollsBack accounted tick (current.symm ▸ Nat.zero_lt_one)
  have next := reachable_step (a := .rollback tick 0) reached trivial
  have entropy := watched_sourced next
  refine ⟨first,_,begun,accounted_latestBlock start List.mem_cons_self rfl,zero,next,?_,?_,rfl,by decide,by decide⟩
  · exact accounted_latestBlock shorter List.mem_cons_self rfl
  · refine entropy.trans ?_
    show (Option.map positiveEncoding.blockID second.committed).getD zeroID = digest 2
    rw [committed]
    show digest (c.block.height+1) = digest 2
    rw [height]

end
end FlowEmulator.Blockchain
