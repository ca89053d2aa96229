import FlowEmulator.Calls
import FlowEmulator.Emulator

/-!
Emulators over any store in whole runs of requests, rollbacks, snapshots and
restarts. Rollbacks and snapshots leave the source of entropy, and the pending
block or a new one. So what new pending blocks have and the calls keep holds in
every run.
-/
namespace FlowEmulator.Blockchain
open FlowEmulator.Fallible FlowEmulator.Run

section
variable {σ : Type} (E : Encoding) (M : Machine) (config : Config) (B : Backend σ) (reopen : σ → Except StoreError σ)

/-- The emulators that have just started, on an empty store or on an existing one. -/
def Begun (b : Blockchain σ) : Prop := ∃ tick autoMine storage, newBlockchain E M config B tick autoMine storage = .ok b

/-- The emulators that actions reach from a start. -/
def Running (b : Blockchain σ) : Prop :=
  Reachable (act E M config B reopen) (fun _ _ => True) (Begun E M config B) b

/-- The source of entropy is the same, and the pending block is the same or a new one. -/
structure Renewed (b after : Blockchain σ) : Prop where
  entropy : after.latestEntropy = b.latestEntropy
  pending : after.pendingBlock = b.pendingBlock ∨ ∃ tick block, after.pendingBlock = newPendingBlock E tick block

end

section
variable {σ : Type} {E : Encoding} {M : Machine} {config : Config} {B : Backend σ} {reopen : σ → Except StoreError σ}

/-- A commit leaves the runs of system transactions in the pending block, which may be finalized, or a new one. -/
theorem commitBlock_pending (tick : Tick) (b : Blockchain σ) :
    (∃ runs, b.pendingBlock.Left runs (commitBlock E M config B tick b).2.pendingBlock) ∨
      ∃ block, (commitBlock E M config B tick b).2.pendingBlock = newPendingBlock E tick block := by
  have commits : Commits E M config B tick b (commitBlock E M config B tick b) := commitBlock_commits tick b
  generalize commitBlock E M config B tick b = out at commits ⊢
  cases commits with
  | refused waiting => exact .inl ⟨[],.inl (PendingBlock.record_nil _).symm⟩
  | unsealed ready e failed => exact .inl ⟨_,.inl rfl⟩
  | unsaved ready c sealed e storage run => exact .inl ⟨_,.inr rfl⟩
  | committed ready c made sealed storage run => exact .inr ⟨c.block,rfl⟩

theorem resetPendingBlock_pending (tick : Tick) (b : Blockchain σ) :
    (resetPendingBlock E B tick b).2.pendingBlock = b.pendingBlock ∨
      ∃ block, (resetPendingBlock E B tick b).2.pendingBlock = newPendingBlock E tick block := by
  rcases resetPendingBlock_run tick b with same | ⟨block,_,done⟩
  · exact .inl (congrArg Blockchain.pendingBlock same)
  · exact .inr ⟨block,congrArg Blockchain.pendingBlock done⟩

theorem renewed_refl (b : Blockchain σ) : Renewed E b b := ⟨rfl,.inl rfl⟩

theorem keeps_inStorage {α : Type} (b : Blockchain σ) (op : StoreM σ α) : Keeps (Renewed E b) (inStorage op) := by
  intro middle renewed
  rcases run : op middle.storage with ⟨e | a,storage⟩
  · rw [inStorage_error run]
    exact ⟨renewed.entropy,renewed.pending⟩
  · rw [inStorage_ok run]
    exact ⟨renewed.entropy,renewed.pending⟩

theorem keeps_reload (b : Blockchain σ) (tick : Tick) : Keeps (Renewed E b) (reloadBlockchain E M config B tick) := by
  intro middle renewed
  rcases configured : configureLedger M config B middle.storage with ⟨e | block,storage⟩
  · rw [reload_unconfigured tick configured]
    exact ⟨renewed.entropy,renewed.pending⟩
  · rw [reload_configured tick configured]
    exact ⟨renewed.entropy,.inr ⟨tick,block,rfl⟩⟩

theorem rollback_renewed (tick : Tick) (height : Nat) (b : Blockchain σ) :
    Renewed E b (rollbackToBlockHeight E M config B tick height b).2 := by
  unfold rollbackToBlockHeight
  cases B.rollbackProvider with
  | none => exact renewed_refl b
  | some rollback => exact keeps_bind (keeps_inStorage b _) (fun _ => keeps_reload b tick) b (renewed_refl b)

theorem createSnapshot_renewed (tick : Tick) (name : String) (b : Blockchain σ) :
    Renewed E b (createSnapshot E M config B tick name b).2 := by
  refine keeps_bind (keeps_view _ _) (fun supported => ?_) b (renewed_refl b)
  split
  · exact keeps_bind (keeps_inStorage b _) (fun _ => keeps_reload b tick)
  · exact keeps_fail _ _

theorem loadSnapshot_renewed (tick : Tick) (name : String) (b : Blockchain σ) :
    Renewed E b (loadSnapshot E M config B tick name b).2 := by
  refine keeps_bind (keeps_view _ _) (fun supported => ?_) b (renewed_refl b)
  split
  · exact keeps_bind (keeps_inStorage b _) (fun _ => keeps_reload b tick)
  · exact keeps_fail _ _

/-- A restart leaves the emulator, or starts a new one. -/
theorem restart_begun (tick : Tick) (autoMine : Bool) (b : Blockchain σ) :
    restart E M config B reopen tick autoMine b = b ∨
      ∃ storage, newBlockchain E M config B tick autoMine storage = .ok (restart E M config B reopen tick autoMine b) := by
  unfold restart
  rcases reopen b.storage with e | storage
  · exact .inl rfl
  · rcases started : newBlockchain E M config B tick autoMine storage with e | after
    · exact .inl (by simp [started])
    · exact .inr ⟨storage,by simp [started]⟩

/-- Something that every pending block has: new ones do, and transactions that
    are added and executed, runs that are recorded, a commit that the store refuses
    and another clock keep it. -/
structure Lasting (E : Encoding) (M : Machine) (B : Backend σ) (P : PendingBlock → Prop) : Prop where
  new : ∀ tick block, P (newPendingBlock E tick block)
  adds : ∀ {b tx out}, Adds E M B tx b out → P b.pendingBlock → P out.2.pendingBlock
  executes : ∀ {b out}, Executes E M B b out → P b.pendingBlock → P out.2.pendingBlock
  record : ∀ {p}, P p → ∀ runs, P (p.record runs)
  finalize : ∀ {p}, P p → P p.finalize
  setClock : ∀ {p}, P p → ∀ now, P (p.setClock now)

section
variable {P : PendingBlock → Prop} (lasting : Lasting E M B P)
include lasting

theorem call_lasting (c : Call) (b : Blockchain σ) (holds : P b.pendingBlock) : P (call E M config B c b).pendingBlock := by
  cases c with
  | addTransaction tx => exact lasting.adds (addTransaction_adds E M B tx b) holds
  | executeNextTransaction => exact lasting.executes (executeNextTransaction_executes E M B b) holds
  | commitBlock tick =>
    show P (commitBlock E M config B tick b).2.pendingBlock
    have left : (∃ runs, b.pendingBlock.Left runs (commitBlock E M config B tick b).2.pendingBlock) ∨ _ :=
      commitBlock_pending tick b
    rcases left with ⟨runs,same | same⟩ | ⟨block,fresh⟩
    · rw [same]
      exact lasting.record holds runs
    · rw [same]
      exact lasting.finalize (lasting.record holds runs)
    · rw [fresh]
      exact lasting.new tick block
  | resetPendingBlock tick =>
    show P (resetPendingBlock E B tick b).2.pendingBlock
    have left : (resetPendingBlock E B tick b).2.pendingBlock = b.pendingBlock ∨ _ := resetPendingBlock_pending tick b
    rcases left with same | ⟨block,fresh⟩
    · rw [same]
      exact holds
    · rw [fresh]
      exact lasting.new tick block
  | setClock now => exact lasting.setClock holds now
  | setAutoMine on => exact holds

theorem begun_lasting {tick : Tick} {autoMine : Bool} {storage : σ} {b : Blockchain σ}
    (started : newBlockchain E M config B tick autoMine storage = .ok b) : P b.pendingBlock := by
  obtain ⟨_,block,fresh⟩ := new_renewed started
  rw [fresh]
  exact lasting.new tick block

theorem act_lasting (a : Action) (b : Blockchain σ) (holds : P b.pendingBlock) :
    P (act E M config B reopen a b).pendingBlock := by
  have renewed {after : Blockchain σ} (renewed : Renewed E b after) : P after.pendingBlock := by
    rcases renewed.pending with same | ⟨tick,block,fresh⟩
    · rw [same]
      exact holds
    · rw [fresh]
      exact lasting.new tick block
  cases a with
  | request r =>
    show P (request E M config B r b).pendingBlock
    rw [request_calls]
    exact play_keeps (fun b c holds (_ : True) => call_lasting lasting c b holds) holds (throughout_all fun _ _ => trivial)
  | rollback tick height => exact renewed (rollback_renewed tick height b)
  | createSnapshot tick name => exact renewed (createSnapshot_renewed tick name b)
  | loadSnapshot tick name => exact renewed (loadSnapshot_renewed tick name b)
  | restart tick autoMine =>
    show P (restart E M config B reopen tick autoMine b).pendingBlock
    have left : restart E M config B reopen tick autoMine b = b ∨ _ := restart_begun tick autoMine b
    rcases left with same | ⟨storage,started⟩
    · rw [same]
      exact holds
    · exact begun_lasting lasting started

/-- What lasts holds of the pending block in every run. -/
theorem running_lasting {b : Blockchain σ} (running : Running E M config B reopen b) : P b.pendingBlock := by
  have first (b : Blockchain σ) (begun : Begun E M config B b) : P b.pendingBlock := by
    obtain ⟨tick,autoMine,storage,started⟩ := begun
    exact begun_lasting lasting started
  have step (b : Blockchain σ) (a : Action) (holds : P b.pendingBlock) (_ : True) :
      P (act E M config B reopen a b).pendingBlock := act_lasting lasting a b holds
  have kept := reachable_keeps first step running
  exact kept

end

/-- The transactions of every pending block are listed. -/
theorem lasting_listed : Lasting E M B (Listed E) where
  new := listed_new E
  adds := adds_listed
  executes := executes_listed
  record listed _ := listed_moved listed rfl rfl listed.bound
  finalize listed := listed_moved listed rfl rfl listed.bound
  setClock listed _ := listed_moved listed rfl rfl listed.bound

end
end FlowEmulator.Blockchain
