import FlowEmulator.DefaultStore
import FlowEmulator.Emulator

/-!
Emulators that grow the chain of their store block by block (`Growing`). After
whatever is done to such an emulator, the store has one block at each height up
to the latest and none above (`HasChain`), and the pending block is next.
-/
namespace FlowEmulator
open FlowEmulator.Fallible FlowEmulator.DefaultStore FlowEmulator.Run

/-- The blocks of the store are a chain: one at each height up to the latest and
    none above. The events of each height can be read, by their type. -/
structure HasChain {σ : Type} (S : Store σ) (latest : Nat) (s : σ) : Prop where
  latestBlock : ∃ block, S.latestBlock s = .ok block ∧ block.height = latest
  found : ∀ height, height ≤ latest → ∃ block, S.blockByHeight height s = .ok block ∧ block.height = height
  above : ∀ height, latest < height → S.blockByHeight height s = .error .notFound
  events : ∀ height, ∃ events, ∀ eventType, S.eventsByHeight height eventType s = .ok (eventsOfType eventType events)

/-- An operation that succeeds leaves some chain, and one that fails leaves a chain as long as before. -/
def Leads {σ : Type} (Holds : Nat → σ → Prop) (latest : Nat) : Except StoreError Unit × σ → Prop
  | (.ok _,after) => ∃ latest, Holds latest after
  | (.error _,after) => Holds latest after

/-- The backend grows the chain of its store: saving the next block adds it, and
    everything else that is done to the store keeps a chain. -/
structure Growing {σ : Type} (E : Encoding) (B : Backend σ) (reopen : σ → Except StoreError σ) (Empty : σ → Prop)
    (Holds : Nat → σ → Prop) (Allowed : Nat → σ → Prop) : Prop where
  empty : ∀ {s}, Empty s → B.latestBlock s = .error .notFound
  first : ∀ {s c after}, Empty s → c.block.height = 0 → B.commitBlock c s = (.ok (),after) → Holds 0 after
  chain : ∀ {latest s}, Holds latest s → HasChain B.toStore latest s
  saved : ∀ {latest s static c after}, Holds latest s → c.block.height = latest+1 →
    B.saveBlock E static c s = (.ok (),after) → Holds (latest+1) after
  refused : ∀ {latest s static c e after}, Holds latest s → B.saveBlock E static c s = (.error e,after) → Holds latest after
  rollback : ∀ {rollback height latest s}, B.rollbackProvider = some rollback → Allowed height s → Holds latest s →
    Leads Holds latest (rollback height s)
  createSnapshot : ∀ {latest s} name, Holds latest s → B.supportSnapshots s = true →
    Leads Holds latest (B.createSnapshot name s)
  loadSnapshot : ∀ {latest s} name, Holds latest s → B.supportSnapshots s = true → Leads Holds latest (B.loadSnapshot name s)
  reopened : ∀ {latest s after}, Holds latest s → reopen s = .ok after → Empty after ∨ ∃ latest, Holds latest after

/-- The store holds a chain, and the pending block is next. -/
def Grown {σ : Type} (Holds : Nat → σ → Prop) (b : Blockchain σ) : Prop :=
  ∃ latest, Holds latest b.storage ∧ b.pendingBlock.height = latest+1

section
open FlowEmulator.Blockchain
variable {σ : Type} {E : Encoding} {M : Machine} {config : Config} {B : Backend σ} {reopen : σ → Except StoreError σ}
  {Empty : σ → Prop} {Holds : Nat → σ → Prop} {Allowed : Nat → σ → Prop} {b : Blockchain σ}

/-- Rollbacks are made to allowed heights. -/
def Allows (Allowed : Nat → σ → Prop) (b : Blockchain σ) : Action → Prop
  | .rollback _ height => Allowed height b.storage
  | _ => True

/-- The emulators that actions reach from a start on an empty store. -/
def ReachedFrom (E : Encoding) (M : Machine) (config : Config) (B : Backend σ) (reopen : σ → Except StoreError σ)
    (Empty : σ → Prop) (Allowed : Nat → σ → Prop) (b : Blockchain σ) : Prop :=
  Reachable (act E M config B reopen) (Allows Allowed)
    (fun b => ∃ tick autoMine storage, Empty storage ∧ newBlockchain E M config B tick autoMine storage = .ok b) b

section
variable (growing : Growing E B reopen Empty Holds Allowed)
include growing

/-- A new pending block on the latest block is next. -/
theorem grown_new {latest : Nat} (holds : Holds latest b.storage) {block : Block}
    (found : B.latestBlock b.storage = .ok block) {tick : Tick} (pending : b.pendingBlock = newPendingBlock E tick block) :
    Grown Holds b := by
  obtain ⟨tip,read,height⟩ := (growing.chain holds).latestBlock
  rw [found] at read
  cases read
  refine ⟨latest,holds,?_⟩
  rw [pending,← height]
  rfl

theorem grown_reload {latest : Nat} (holds : Holds latest b.storage) (tick : Tick) :
    Grown Holds (reloadBlockchain E M config B tick b).2 := by
  obtain ⟨block,found,_⟩ := (growing.chain holds).latestBlock
  rw [reload_ok tick found]
  exact grown_new growing holds found rfl

/-- An operation of the store and then a reload. -/
theorem grown_reloaded {op : StoreM σ Unit} {latest : Nat} (pending : b.pendingBlock.height = latest+1)
    (leads : Leads Holds latest (op b.storage)) (tick : Tick) :
    Grown Holds ((do inStorage op; reloadBlockchain E M config B tick : EmulatorM σ Unit) b).2 := by
  rcases run : op b.storage with ⟨e | _,storage⟩
  · rw [run] at leads
    rw [bind_error (inStorage_error run)]
    exact ⟨latest,leads,pending⟩
  · rw [run] at leads
    obtain ⟨next,holds⟩ := leads
    rw [bind_ok (inStorage_ok run)]
    have stored : Holds next ({ b with storage := storage } : Blockchain σ).storage := holds
    exact grown_reload growing stored tick

theorem grown_request (grown : Grown Holds b) (r : Request) : Grown Holds (request E M config B r b) := by
  obtain ⟨latest,holds,next⟩ := grown
  cases request_effect r b with
  | still still => exact ⟨latest,still.storage ▸ holds,still.place.height.trans next⟩
  | refused c e run place => exact ⟨latest,growing.refused holds run,place.height.trans next⟩
  | saved c tick placed run pending =>
    have height : c.block.height = latest+1 := placed.height.trans next
    refine ⟨latest+1,growing.saved holds height run,?_⟩
    rw [pending,← height]
    rfl
  | reset tick block storage found pending =>
    have stored : Holds latest (request E M config B r b).storage := storage ▸ holds
    exact grown_new growing stored (storage ▸ found) pending

/-- A start on an empty store, or on one that holds a chain. -/
theorem grown_started {storage : σ} (stored : Empty storage ∨ ∃ latest, Holds latest storage) {tick : Tick} {autoMine : Bool}
    (started : newBlockchain E M config B tick autoMine storage = .ok b) : Grown Holds b := by
  rcases stored with empty | ⟨latest,holds⟩
  · obtain ⟨writes,events,_,run,pending⟩ := new_first (growing.empty empty) started
    refine ⟨0,growing.first empty rfl run,?_⟩
    rw [pending]
    rfl
  · obtain ⟨block,found,_⟩ := (growing.chain holds).latestBlock
    rw [new_existing tick autoMine found] at started
    cases started
    exact grown_new growing holds found rfl

theorem grown_act (b : Blockchain σ) (a : Action) (grown : Grown Holds b) (allows : Allows Allowed b a) :
    Grown Holds (act E M config B reopen a b) := by
  have kept := grown
  obtain ⟨latest,holds,next⟩ := grown
  cases a with
  | request r => exact grown_request growing kept r
  | rollback tick height =>
    show Grown Holds (rollbackToBlockHeight E M config B tick height b).2
    unfold rollbackToBlockHeight
    cases provider : B.rollbackProvider with
    | none => exact kept
    | some rollback => exact grown_reloaded growing next (growing.rollback provider allows holds) tick
  | createSnapshot tick name =>
    show Grown Holds (Blockchain.createSnapshot E M config B tick name b).2
    unfold Blockchain.createSnapshot
    rw [bind_ok (view_run _ b)]
    split
    · next supported => exact grown_reloaded growing next (growing.createSnapshot name holds supported) tick
    · exact kept
  | loadSnapshot tick name =>
    show Grown Holds (Blockchain.loadSnapshot E M config B tick name b).2
    unfold Blockchain.loadSnapshot
    rw [bind_ok (view_run _ b)]
    split
    · next supported => exact grown_reloaded growing next (growing.loadSnapshot name holds supported) tick
    · exact kept
  | restart tick autoMine =>
    show Grown Holds (restart E M config B reopen tick autoMine b)
    unfold restart
    split
    · exact kept
    next storage opened =>
    split
    · next started done => exact grown_started growing (growing.reopened holds opened) done
    · exact kept

theorem reachedFrom_grown (reached : ReachedFrom E M config B reopen Empty Allowed b) : Grown Holds b := by
  refine reachable_keeps (fun b started => ?_) (grown_act growing) reached
  obtain ⟨tick,autoMine,storage,empty,done⟩ := started
  exact grown_started growing (.inl empty) done

/-- Every emulator that is reached has a chain. -/
theorem reachedFrom_hasChain (reached : ReachedFrom E M config B reopen Empty Allowed b) :
    ∃ latest, HasChain B.toStore latest b.storage := by
  obtain ⟨latest,holds,_⟩ := reachedFrom_grown growing reached
  exact ⟨latest,growing.chain holds⟩

end
end

end FlowEmulator
