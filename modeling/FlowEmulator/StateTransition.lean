import FlowEmulator.Production

/-!
The ledger from block to block. The ledger at a height is the ledger below it
with the writes of the block's transactions over it in order, each of which was
run on the ledger below with the writes before it over that. What is done with
the pending block, and rollbacks, leave the ledgers of the remaining heights as
they are.
-/
namespace FlowEmulator.StateTransition
open FlowEmulator.Blockchain FlowEmulator.Chronicle FlowEmulator.Run
open FlowEmulator.Sqlite (Choices)

/-- The ledger above a height is that of the height with the writes of some runs
    over it: of the transactions of users of a block, and then of its system
    transactions, each of them run on what those before it left. -/
structure Transition {σ : Type} (E : Encoding) (M : Machine) (config : Config) (B : Backend σ) (s : σ) (height : Nat)
    (c : BlockContents) (users system : List Execution) : Prop where
  collected : transactionIDs E users = c.userTransactions
  order : SystemOrder E M config system c.scheduledTransactionIDs
  trail : Trail M (fun r => B.ledgerByHeight height r s) 0 ∅ (users ++ system)
  ledger : (fun r => B.ledgerByHeight (height+1) r s) =
    withWrites (accumulate ∅ (users ++ system)) (fun r => B.ledgerByHeight height r s)

section
variable {E : Encoding} {M : Machine} {config : Config} {choices : Choices} {cs : List BlockContents} {latest : Nat} {x : Session}

theorem withWrites_reading (writes : WriteSet) (ledger : RegisterID → RegisterValue) :
    withWrites writes (reading ledger) = reading (overlay writes ledger) := by
  funext r
  unfold withWrites reading overlay
  cases writes.lookup r <;> rfl

/-- All runs of a block that was made are one trail. -/
theorem made_trail {base : Registers} {p : PendingBlock} {users system : List Execution} {c : BlockContents}
    (made : Made E M config base p users system c) : Trail M base 0 ∅ (users ++ system) := by
  have count : users.length = p.transactions.entries.length := by
    rw [tallied_length made.intact.tallied made.listed,made.complete,listed_count made.listed]
  refine trail_append.mpr ⟨made.intact.trail,?_⟩
  rw [Nat.zero_add,count,← made.intact.ledger]
  exact made.sealed.trail

theorem made_snapshot {base : Registers} {p : PendingBlock} {users system : List Execution} {c : BlockContents}
    (made : Made E M config base p users system c) : c.executionSnapshot = accumulate ∅ (users ++ system) := by
  rw [made.sealed.executionSnapshot,made.intact.ledger,accumulate_append]

theorem made_users {base : Registers} {p : PendingBlock} {users system : List Execution} {c : BlockContents}
    (made : Made E M config base p users system c) : transactionIDs E users = c.userTransactions := by
  rw [made.intact.ids,made.complete,sealed_userTransactions made.sealed]
  exact List.take_length

theorem traced_transition (traced : Traced E M config choices cs latest x) {height : Nat} {c : BlockContents}
    (here : cs[height+1]? = some c) :
    ∃ users system, Transition E M config (Sqlite.backend E choices) x.emulator.storage height c users system := by
  obtain ⟨p,users,system,made⟩ := traced.blocks height c here
  have below := stored_ledger choices traced.accounted.stored height
  refine ⟨users,system,made_users made,made.sealed.order,?_,?_⟩
  · rw [below]
    exact made_trail made
  · rw [below,stored_ledger choices traced.accounted.stored (height+1),withWrites_reading,ledgerAt_succ here,made_snapshot made]

/-- After a step one of the two chains continues the other. -/
theorem accounted_step (choices : Choices) (accounted : Accounted E M config cs x.seen latest x.emulator) (action : Step) :
    ∃ later height, Accounted E M config later (step E M config choices action x).seen height
        (step E M config choices action x).emulator ∧ (cs <+: later ∨ later <+: cs) := by
  cases action with
  | request r =>
    have grows (y : Session) (c : Call)
        (longer : ∃ later height, Accounted E M config later y.seen height y.emulator ∧ cs <+: later) (_ : True) :
        ∃ later height, Accounted E M config later (take E M config choices c y).seen height
          (take E M config choices c y).emulator ∧ cs <+: later := by
      obtain ⟨later,height,there,before⟩ := longer
      obtain ⟨next,further,_⟩ := accounted_take choices there c
      exact ⟨_,next,further,before.trans (List.prefix_append _ _)⟩
    have whole : Throughout (take E M config choices) (fun _ _ => True) (calls E M choices x r) x :=
      throughout_all fun _ _ => trivial
    obtain ⟨later,height,there,before⟩ := play_keeps grows ⟨cs,latest,accounted,List.prefix_refl cs⟩ whole
    exact ⟨later,height,there,.inl before⟩
  | rollback tick height =>
    rcases accounted_rollback accounted tick height with refused | ⟨below,_,_,cut⟩
    · refine ⟨cs,latest,?_,.inl (List.prefix_refl cs)⟩
      show Accounted E M config cs x.seen latest
        (rollbackToBlockHeight E M config (Sqlite.backend E choices) tick height x.emulator).2
      rw [refused]
      exact accounted
    · exact ⟨_,height,cut,.inr (List.take_prefix _ cs)⟩

/-- Chains of which one continues the other have the same ledgers at the heights of both. -/
theorem ledgerAt_shared {ds : List BlockContents} (shared : cs <+: ds ∨ ds <+: cs) {height : Nat} (left : height < cs.length)
    (right : height < ds.length) : ledgerAt ds height = ledgerAt cs height := by
  rcases shared with ⟨rest,rfl⟩ | ⟨rest,rfl⟩
  · exact ledgerAt_append left rest
  · exact (ledgerAt_append right rest).symm

theorem stored_latest {s : Sqlite.Store} {seen : List BlockContents} (stored : Stored E M config cs seen latest s) {found : Nat}
    (read : (Sqlite.backend E choices).latestBlockHeight s = .ok found) : found = latest ∧ cs.length = latest+1 := by
  have height : (Sqlite.backend E choices).latestBlockHeight s = .ok latest :=
    Sqlite.recorded_latestBlockHeight choices stored.recorded
  have count := stored.recorded.count
  rw [height] at read
  exact ⟨(Except.ok.inj read).symm,by omega⟩

/-- In every session without retried commits each height above the first is
    reached by the transition of its block, the ledgers of heights that remain are
    not changed by any step, and above the latest block, up to the heights that the
    driver takes, nothing else is seen. -/
theorem ledgers_follow (reached : Reached E M config choices NotRetried x) :
    (∀ height block, (Sqlite.backend E choices).blockByHeight (height+1) x.emulator.storage = .ok block →
      ∃ c ∈ x.seen, c.block = block ∧ ∃ users system,
        Transition E M config (Sqlite.backend E choices) x.emulator.storage height c users system) ∧
    (∀ action before after, (Sqlite.backend E choices).latestBlockHeight x.emulator.storage = .ok before →
      (Sqlite.backend E choices).latestBlockHeight (step E M config choices action x).emulator.storage = .ok after →
      ∀ height ≤ before, height ≤ after → ∀ r,
        (Sqlite.backend E choices).ledgerByHeight height r (step E M config choices action x).emulator.storage =
          (Sqlite.backend E choices).ledgerByHeight height r x.emulator.storage) ∧
    (∀ latest, (Sqlite.backend E choices).latestBlockHeight x.emulator.storage = .ok latest →
      ∀ height ≥ latest, height < 2^63 → ∀ r,
      (Sqlite.backend E choices).ledgerByHeight height r x.emulator.storage =
        (Sqlite.backend E choices).ledgerByHeight latest r x.emulator.storage) := by
  obtain ⟨cs,latest,traced⟩ := reached_traced reached
  have stored := traced.accounted.stored
  refine ⟨fun height block found => ?_,fun action before after left right height low alsoLow r => ?_,
    fun top read height above _ r => ?_⟩
  · obtain ⟨c,known,same,place⟩ := stored_found stored found
    exact ⟨c,known,same,traced_transition traced place⟩
  · obtain ⟨later,top,accounted,shared⟩ := accounted_step choices traced.accounted action
    obtain ⟨rfl,leftCount⟩ := stored_latest stored left
    obtain ⟨rfl,rightCount⟩ := stored_latest accounted.stored right
    have same : ledgerAt later height = ledgerAt cs height := ledgerAt_shared shared (by omega) (by omega)
    have one := congrFun (stored_ledger choices stored height) r
    have other := congrFun (stored_ledger choices accounted.stored height) r
    rw [one,other,same]
  · obtain ⟨rfl,count⟩ := stored_latest stored read
    have one := congrFun (stored_ledger choices stored height) r
    have other := congrFun (stored_ledger choices stored top) r
    rw [one,other,ledgerAt_above count above]

end

open FlowEmulator.Samples in
theorem ledgers_follow_sample : ∃ x, Reached numberEncoding scheduler scheduledConfig .earliest NotRetried x ∧
    (∃ block, (Sqlite.backend numberEncoding .earliest).blockByHeight 1 x.emulator.storage = .ok block) ∧
    ∀ height block, (Sqlite.backend numberEncoding .earliest).blockByHeight (height+1) x.emulator.storage = .ok block →
      ∃ c ∈ x.seen, c.block = block ∧ ∃ users system, Transition numberEncoding scheduler scheduledConfig
        (Sqlite.backend numberEncoding .earliest) x.emulator.storage height c users system := by
  obtain ⟨start,c,sample⟩ := sample_committed
  have reached := sample_notRetried sample
  exact ⟨sampleCommitted start,reached,⟨c.block,sample_stored sample⟩,(ledgers_follow reached).1⟩

end FlowEmulator.StateTransition
