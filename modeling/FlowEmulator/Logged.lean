import FlowEmulator.LocalStores
import FlowEmulator.Production

/-!
Stores with a log of their blocks. A logged store does what the store does, and
notes the contents of every block that is committed, under the database it goes
to; a rollback takes the blocks above its height off the log, and a snapshot gets
a copy of it. What the reads of a store answer is compared with its log, in whole
runs of an emulator.
-/
namespace FlowEmulator
open FlowEmulator.Fallible
open FlowEmulator.Sqlite (DatabaseName)

/-- The blocks of each database that were committed and not rolled back. -/
abbrev Log := DatabaseName → List BlockContents

/-- Which database of a store is open, and whether its databases are gone after a restart. -/
structure Places (σ : Type) where
  current : σ → DatabaseName
  volatile : σ → Bool

namespace Logged
section
variable {σ : Type} (P : Places σ)

/-- Run an operation of the store and leave the log. -/
def aside {α : Type} (op : StoreM σ α) : StoreM (σ × Log) α := inside Prod.fst (fun s x => (s,x.2)) id op

/-- Run an operation of the store and, if it succeeds, change the log. -/
def noting (note : σ → Log → Log) (op : StoreM σ Unit) : StoreM (σ × Log) Unit := do
  let s ← view Prod.fst
  aside op
  update fun x => (x.1,note s x.2)

/-- One more block in the open database. -/
def committed (c : BlockContents) (s : σ) (log : Log) : Log :=
  Function.update log (P.current s) (log (P.current s) ++ [c])

/-- The open database without the blocks above a height. -/
def cut (height : Nat) (s : σ) (log : Log) : Log :=
  Function.update log (P.current s) ((log (P.current s)).filter fun c => c.block.height ≤ height)

/-- A copy of the open database. -/
def copied (name : String) (s : σ) (log : Log) : Log := Function.update log (.snapshot name) (log (P.current s))

def backend (B : Backend σ) : Backend (σ × Log) where
  latestBlockHeight x := B.latestBlockHeight x.1
  latestBlock x := B.latestBlock x.1
  blockByID id x := B.blockByID id x.1
  blockByHeight height x := B.blockByHeight height x.1
  commitBlock c := noting (committed P c) (B.commitBlock c)
  systemTransactionsForBlockID blockID x := B.systemTransactionsForBlockID blockID x.1
  indexScheduledTransactionID scheduledTxID blockID := aside (B.indexScheduledTransactionID scheduledTxID blockID)
  blockIDByScheduledTransactionID scheduledTxID x := B.blockIDByScheduledTransactionID scheduledTxID x.1
  indexScheduledTransactionBlockID txID blockID := aside (B.indexScheduledTransactionBlockID txID blockID)
  scheduledTransactionBlockIDByTxID txID x := B.scheduledTransactionBlockIDByTxID txID x.1
  collectionByID id x := B.collectionByID id x.1
  fullCollectionByID id x := B.fullCollectionByID id x.1
  transactionByID id x := B.transactionByID id x.1
  transactionResultByID id x := B.transactionResultByID id x.1
  systemTransactionResultByID blockID txID x := B.systemTransactionResultByID blockID txID x.1
  ledgerByHeight height id x := B.ledgerByHeight height id x.1
  eventsByHeight height eventType x := B.eventsByHeight height eventType x.1
  rollbackProvider := B.rollbackProvider.map fun rollback height => noting (cut P height) (rollback height)
  supportSnapshots x := B.supportSnapshots x.1
  createSnapshot name := noting (copied P name) (B.createSnapshot name)
  loadSnapshot name := aside (B.loadSnapshot name)

/-- What is found after a restart. -/
def reopen (reopen : σ → Except StoreError σ) (x : σ × Log) : Except StoreError (σ × Log) :=
  (reopen x.1).map fun s => (s,if P.volatile x.1 then fun _ => [] else x.2)

/-- The store before anything was committed. -/
def Empty (Empty : σ → Prop) (x : σ × Log) : Prop := Empty x.1 ∧ x.2 = fun _ => []

end

section
variable {σ α β : Type} {P : Places σ} {B : Backend σ} {E : Encoding} {static : Identifier → Bool} {c : BlockContents}

theorem aside_run (op : StoreM σ α) (x : σ × Log) : aside op x = ((op x.1).1,((op x.1).2,x.2)) := by
  rcases run : op x.1 with ⟨e | a,after⟩ <;> simp [aside,inside,run]

theorem noting_run (note : σ → Log → Log) (op : StoreM σ Unit) (x : σ × Log) : noting note op x =
    ((op x.1).1,((op x.1).2,match (op x.1).1 with
      | .ok _ => note x.1 x.2
      | .error _ => x.2)) := by
  rw [noting,bind_ok (view_run _ x),bind_run,aside_run]
  rcases op x.1 with ⟨e | a,after⟩ <;> rfl

theorem aside_bind (x : StoreM σ α) (f : α → StoreM σ β) : aside (x >>= f) = aside x >>= fun a => aside (f a) := by
  funext s
  rw [bind_run,aside_run,aside_run,bind_run]
  rcases x s.1 with ⟨e | a,after⟩
  · rfl
  · exact (aside_run (f a) (after,s.2)).symm

theorem aside_forM (f : α → StoreM σ Unit) (list : List α) : (list.forM fun a => aside (f a)) = aside (list.forM f) := by
  induction list with
  | nil => rfl
  | cons a rest ih =>
    have each : ((a :: rest).forM fun a => aside (f a)) = aside (f a) >>= fun _ => rest.forM fun a => aside (f a) := rfl
    rw [each,ih]
    exact (aside_bind (f a) fun _ => rest.forM f).symm

/-- What is done after the commit of a block: its scheduled and its system transactions are indexed. -/
def indexing (S : Store σ) (E : Encoding) (static : Identifier → Bool) (c : BlockContents) : StoreM σ Unit := do
  c.scheduledTransactionIDs.entries.forM fun entry => S.indexScheduledTransactionID entry.1 (E.blockID c.block)
  c.systemTransactionResults.entries.forM fun entry =>
    if static entry.1 then pure () else S.indexScheduledTransactionBlockID entry.1 (E.blockID c.block)

theorem saveBlock_eq : (backend P B).saveBlock E static c =
    noting (committed P c) (B.commitBlock c) >>= fun _ => aside (indexing B.toStore E static c) := by
  have each (entry : Sigma fun _ : Identifier => StorableTransactionResult) :
      (if static entry.1 then pure () else aside (B.indexScheduledTransactionBlockID entry.1 (E.blockID c.block))) =
        aside (if static entry.1 then pure () else B.indexScheduledTransactionBlockID entry.1 (E.blockID c.block)) := by
    split <;> rfl
  rw [indexing,aside_bind,← aside_forM,← aside_forM]
  simp only [← each]
  rfl

/-- A block is saved as in the store, and noted if it is committed. -/
theorem saveBlock_run (x : σ × Log) : (backend P B).saveBlock E static c x =
    ((B.saveBlock E static c x.1).1,((B.saveBlock E static c x.1).2,match (B.commitBlock c x.1).1 with
      | .ok _ => committed P c x.1 x.2
      | .error _ => x.2)) := by
  have plain : B.saveBlock E static c = B.commitBlock c >>= fun _ => indexing B.toStore E static c := rfl
  rw [saveBlock_eq,plain,bind_run,bind_run,noting_run]
  rcases B.commitBlock c x.1 with ⟨e | _,middle⟩
  · rfl
  · exact aside_run (indexing B.toStore E static c) (middle,committed P c x.1 x.2)

/-- A block that is saved was committed. -/
theorem saveBlock_commits {s after : σ} (run : B.saveBlock E static c s = (.ok (),after)) :
    ∃ middle, B.commitBlock c s = (.ok (),middle) := by
  have plain : B.saveBlock E static c = B.commitBlock c >>= fun _ => indexing B.toStore E static c := rfl
  rw [plain] at run
  obtain ⟨_,middle,first,_⟩ := bind_eq_ok.mp run
  exact ⟨middle,first⟩

end

/-! ### Stores that grow, with their logs -/

/-- What the log says is true of the store, in all that is done to it: blocks are
    saved as a whole or not at all, and what fails changes nothing. -/
structure Keeping {σ : Type} (E : Encoding) (B : Backend σ) (P : Places σ) (reopen : σ → Except StoreError σ)
    (Empty : σ → Prop) (Holds : Nat → σ → Prop) (Allowed : Nat → σ → Prop) (Logs : Log → σ → Prop) : Prop where
  growing : Growing E B reopen Empty Holds Allowed
  first : ∀ {s c after}, Empty s → c.block.height = 0 → B.commitBlock c s = (.ok (),after) →
    Logs (committed P c s fun _ => []) after
  saved : ∀ {latest s log static c after}, Holds latest s → Logs log s → c.block.height = latest+1 →
    B.saveBlock E static c s = (.ok (),after) → Logs (committed P c s log) after
  refused : ∀ {latest s static c e after}, Holds latest s → B.saveBlock E static c s = (.error e,after) →
    after = s ∧ ∀ middle, B.commitBlock c s ≠ (.ok (),middle)
  rollback : ∀ {rollback height latest s log after}, B.rollbackProvider = some rollback → Allowed height s →
    Holds latest s → Logs log s → rollback height s = (.ok (),after) → Logs (cut P height s log) after
  rollbackFailed : ∀ {rollback height s e after}, B.rollbackProvider = some rollback →
    rollback height s = (.error e,after) → after = s
  created : ∀ {name s log after}, Logs log s → B.createSnapshot name s = (.ok (),after) → Logs (copied P name s log) after
  createFailed : ∀ {name s e after}, B.createSnapshot name s = (.error e,after) → after = s
  loaded : ∀ {name s log after}, Logs log s → B.loadSnapshot name s = (.ok (),after) → Logs log after
  loadFailed : ∀ {name s e after}, B.loadSnapshot name s = (.error e,after) → after = s
  reopened : ∀ {latest s log after}, Holds latest s → Logs log s → reopen s = .ok after →
    if P.volatile s then Empty after else Logs log after ∧ ∃ latest, Holds latest after

section
variable {σ : Type} {E : Encoding} {B : Backend σ} {P : Places σ} {reopen : σ → Except StoreError σ} {Empty : σ → Prop}
  {Holds : Nat → σ → Prop} {Allowed : Nat → σ → Prop} {Logs : Log → σ → Prop}

/-- An operation of the store that grows it, with what it notes. -/
theorem leads_noting {op : StoreM σ Unit} {note : σ → Log → Log} {latest : Nat} {x : σ × Log}
    (leads : Leads Holds latest (op x.1)) (logs : Logs x.2 x.1)
    (noted : ∀ after, op x.1 = (.ok (),after) → Logs (note x.1 x.2) after)
    (failed : ∀ e after, op x.1 = (.error e,after) → after = x.1) :
    Leads (fun latest x => Holds latest x.1 ∧ Logs x.2 x.1) latest (noting note op x) := by
  rw [noting_run]
  rcases run : op x.1 with ⟨e | _,after⟩
  · rw [run] at leads
    refine ⟨leads,?_⟩
    rw [failed e after run]
    exact logs
  · rw [run] at leads
    obtain ⟨next,holds⟩ := leads
    exact ⟨next,holds,noted after run⟩

theorem noting_same (op : StoreM σ Unit) : noting (fun _ log => log) op = aside op := by
  funext x
  rw [noting_run,aside_run]
  rcases op x.1 with ⟨e | _,after⟩ <;> rfl

/-- The store with its log grows its chain, and the log stays true. -/
theorem growing_logged (keeping : Keeping E B P reopen Empty Holds Allowed Logs) :
    Growing E (backend P B) (Logged.reopen P reopen) (Logged.Empty Empty) (fun latest x => Holds latest x.1 ∧ Logs x.2 x.1)
      (fun height x => Allowed height x.1) where
  empty empty := keeping.growing.empty empty.1
  first {x c after} empty height run := by
    have noted : noting (committed P c) (B.commitBlock c) x = (.ok (),after) := run
    rw [noting_run] at noted
    rcases commit : B.commitBlock c x.1 with ⟨e | _,middle⟩
    · rw [commit] at noted
      cases noted
    · rw [commit] at noted
      cases noted
      refine ⟨keeping.growing.first empty.1 height commit,?_⟩
      have log := empty.2
      dsimp only
      rw [log]
      exact keeping.first empty.1 height commit
  chain holds := by
    obtain ⟨latestBlock,found,above,events⟩ := keeping.growing.chain holds.1
    exact ⟨latestBlock,found,above,events⟩
  saved {latest x static c after} holds height run := by
    rw [saveBlock_run] at run
    rcases save : B.saveBlock E static c x.1 with ⟨e | _,middle⟩
    · rw [save] at run
      cases run
    · obtain ⟨_,commit⟩ := saveBlock_commits save
      rw [save,commit] at run
      cases run
      exact ⟨keeping.growing.saved holds.1 height save,keeping.saved holds.1 holds.2 height save⟩
  refused {latest x static c e after} holds run := by
    rw [saveBlock_run] at run
    rcases save : B.saveBlock E static c x.1 with ⟨e' | _,middle⟩
    · obtain ⟨same,uncommitted⟩ := keeping.refused holds.1 save
      rcases commit : B.commitBlock c x.1 with ⟨e'' | _,other⟩
      · rw [save,commit,same] at run
        cases run
        exact holds
      · exact absurd commit (uncommitted other)
    · rw [save] at run
      cases run
  rollback {rollback height latest x} provider allowed holds := by
    obtain ⟨plain,provided,rfl⟩ := Option.map_eq_some_iff.mp provider
    exact leads_noting (keeping.growing.rollback provided allowed holds.1) holds.2
      (fun after run => keeping.rollback provided allowed holds.1 holds.2 run)
      (fun e after run => keeping.rollbackFailed provided run)
  createSnapshot {latest x} name holds supported :=
    leads_noting (keeping.growing.createSnapshot name holds.1 supported) holds.2
      (fun after run => keeping.created holds.2 run) (fun e after run => keeping.createFailed run)
  loadSnapshot {latest x} name holds supported := by
    show Leads _ latest (aside (B.loadSnapshot name) x)
    rw [← noting_same]
    exact leads_noting (keeping.growing.loadSnapshot name holds.1 supported) holds.2
      (fun after run => keeping.loaded holds.2 run) (fun e after run => keeping.loadFailed run)
  reopened {latest x after} holds opened := by
    rw [Logged.reopen] at opened
    rcases found : reopen x.1 with e | s
    · rw [found] at opened
      cases opened
    · rw [found] at opened
      cases opened
      have kept := keeping.reopened holds.1 holds.2 found
      cases volatile : P.volatile x.1 with
      | true => exact .inl ⟨by simpa [volatile] using kept,by simp⟩
      | false =>
        simp only [volatile,Bool.false_eq_true,if_false] at kept
        obtain ⟨logs,next,still⟩ := kept
        exact .inr ⟨next,still,by simpa using logs⟩

end
end Logged
end FlowEmulator
