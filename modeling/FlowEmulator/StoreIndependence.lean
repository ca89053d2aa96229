import FlowEmulator.Agreement
import FlowEmulator.HistoricalReads
import FlowEmulator.Lockstep

/-!
Which store an emulator is on does not show in its answers. Over any two backends
whose reads agree the requests run in lockstep (`requests_lockstep`): they read the
latest block, blocks and transactions by identifier and the ledger below the
pending block, and the only write is the commit they may end with. The store in
memory and the SQL store agree after the same commits, so whole conversations do.
-/
namespace FlowEmulator.Blockchain
open FlowEmulator.Fallible FlowEmulator.Run

/-- What a request answers. -/
inductive Answer where
  | done
  | executed (result : TransactionResult)
  | results (results : List TransactionResult)
  | committed (block : Block)
  | mined (block : Block) (results : List TransactionResult)

section
variable {σ : Type} (E : Encoding) (M : Machine) (config : Config) (B : Backend σ)

/-- A request with its answer. -/
def respond : Request → EmulatorM σ Answer
  | .addTransaction tx => do addTransaction E M B tx; pure .done
  | .sendTransaction tick tx => do sendTransaction E M config B tick tx; pure .done
  | .executeNextTransaction => do let result ← executeNextTransaction E M B; pure (.executed result)
  | .executeBlock => do let results ← executeBlock E M B; pure (.results results)
  | .commitBlock tick => do let block ← commitBlock E M config B tick; pure (.committed block)
  | .executeAndCommitBlock tick => do let (block,results) ← executeAndCommitBlock E M config B tick; pure (.mined block results)
  | .resetPendingBlock tick => do resetPendingBlock E B tick; pure .done
  | .setClock now => do setClock now; pure .done
  | .setAutoMine on => do setAutoMine on; pure .done

/-- The answers to requests one after the other, and the emulator after them. -/
def converse : List Request → Blockchain σ → List (Except EmulatorError Answer) × Blockchain σ
  | [], b => ([],b)
  | r :: rest, b => ((respond E M config B r b).1 :: (converse rest (respond E M config B r b).2).1,
      (converse rest (respond E M config B r b).2).2)

variable {E M config B} in
/-- Mapping its answer leaves what a computation does. -/
private theorem mapped_state {α β : Type} (x : EmulatorM σ α) (f : α → β) (b : Blockchain σ) :
    ((x >>= fun a => pure (f a) : EmulatorM σ β) b).2 = (x b).2 := by
  rw [bind_run]
  rcases x b with ⟨e | a,after⟩ <;> rfl

theorem respond_request (r : Request) (b : Blockchain σ) : (respond E M config B r b).2 = request E M config B r b := by
  cases r <;> exact mapped_state _ _ b

end

/-! ### Requests over two backends -/

section
variable {σ τ : Type} (B : Backend σ) (C : Backend τ)

/-- What the requests read of the stores is the same. -/
structure SameReads (latest : Nat) (s : σ) (t : τ) : Prop where
  latestBlock : B.latestBlock s = C.latestBlock t
  tip : ∀ block, B.latestBlock s = .ok block → block.height = latest
  blockByID : ∀ id, B.blockByID id s = C.blockByID id t
  transactionByID : ∀ id, B.transactionByID id s = C.transactionByID id t
  ledgerByHeight : ∀ id, B.ledgerByHeight latest id s = C.ledgerByHeight latest id t

/-- A block is saved on both stores, or refused by both with one error and without a change. -/
def SameSaves (E : Encoding) (static : Identifier → Bool) (s : σ) (t : τ) : Prop := ∀ c,
  (∃ e, B.saveBlock E static c s = (.error e,s) ∧ C.saveBlock E static c t = (.error e,t)) ∨
    ∃ after beside, B.saveBlock E static c s = (.ok (),after) ∧ C.saveBlock E static c t = (.ok (),beside)

/-- The emulators are the same but for their stores, which are these two. -/
structure Alike (latest : Nat) (s : σ) (t : τ) (b : Blockchain σ) (d : Blockchain τ) : Prop where
  left : b.storage = s
  right : d.storage = t
  pendingBlock : b.pendingBlock = d.pendingBlock
  latestEntropy : b.latestEntropy = d.latestEntropy
  autoMine : b.autoMine = d.autoMine
  next : b.pendingBlock.height = latest+1
  ledgerHeight : b.pendingBlock.ledgerHeight = latest

/-- The emulators are alike over the old stores, or over stores to which both have saved one block. -/
def Moved (E : Encoding) (static : Identifier → Bool) (latest : Nat) (s : σ) (t : τ) (b : Blockchain σ)
    (d : Blockchain τ) : Prop :=
  Alike latest s t b d ∨ ∃ c, c.block.height = latest+1 ∧ B.saveBlock E static c s = (.ok (),b.storage) ∧
    C.saveBlock E static c t = (.ok (),d.storage) ∧ Alike (latest+1) b.storage d.storage b d

end

section
variable {σ τ : Type} {E : Encoding} {M : Machine} {config : Config} {B : Backend σ} {C : Backend τ} {latest : Nat} {s : σ}
  {t : τ}

theorem lockstep_modifyPending {f : PendingBlock → PendingBlock} (place : ∀ p, (f p).height = p.height)
    (ledger : ∀ p, (f p).ledgerHeight = p.ledgerHeight) :
    Lockstep (Alike latest s t) (Alike latest s t) (modifyPending f) (modifyPending f) := by
  refine lockstep_update fun b d alike => ?_
  exact {
    left := alike.left
    right := alike.right
    pendingBlock := congrArg f alike.pendingBlock
    latestEntropy := alike.latestEntropy
    autoMine := alike.autoMine
    next := (place _).trans alike.next
    ledgerHeight := (ledger _).trans alike.ledgerHeight }

theorem lockstep_library {α : Type} (result : Except String α) :
    Lockstep (Alike latest s t) (Alike latest s t) (library result) (library result) := by
  cases result with
  | ok a => exact lockstep_pure a
  | error message => exact lockstep_fail _

theorem lockstep_pending {α : Type} (f : PendingBlock → α) : Lockstep (Alike latest s t) (Alike latest s t)
    (view fun b => f b.pendingBlock : EmulatorM σ α) (view fun b => f b.pendingBlock) :=
  lockstep_view fun _ _ alike => congrArg f alike.pendingBlock

theorem lockstep_mergeLedger (writes : WriteSet) :
    Lockstep (Alike latest s t) (Alike latest s t) (mergeLedger M writes) (mergeLedger M writes) := by
  refine lockstep_then (lockstep_pending fun p => M.mergeable p.ledgerState writes) fun mergeable => ?_
  split
  · exact lockstep_modifyPending (fun _ => rfl) (fun _ => rfl)
  · exact lockstep_fail _

section
variable (reads : SameReads B C latest s t)
include reads

theorem alike_registers {b : Blockchain σ} {d : Blockchain τ} (alike : Alike latest s t b d) :
    b.registers B = d.registers C := by
  funext id
  unfold registers
  rw [← alike.pendingBlock,alike.ledgerHeight,alike.left,alike.right,reads.ledgerByHeight]

theorem lockstep_runTransaction (kind : ContextKind) (tx : TransactionBody) (index : Nat) :
    Lockstep (Alike latest s t) (Alike latest s t) (runTransaction E M B kind tx index) (runTransaction E M C kind tx index) := by
  refine lockstep_then (lockstep_view fun b d alike => ?_) fun result => lockstep_library result
  rw [alike_registers reads alike,alike.pendingBlock,alike.latestEntropy]

theorem lockstep_addTransaction (tx : TransactionBody) :
    Lockstep (Alike latest s t) (Alike latest s t) (addTransaction E M B tx) (addTransaction E M C tx) := by
  refine lockstep_then (lockstep_pending id) fun pending => ?_
  split
  · exact lockstep_fail _
  split
  · exact lockstep_fail _
  refine lockstep_then (lockstep_view fun b d alike => ?_) fun stored => ?_
  · rw [alike.left,alike.right,reads.transactionByID]
  · split
    · exact lockstep_fail _
    · refine lockstep_then (lockstep_view fun b d alike => ?_) fun valid => ?_
      · rw [alike.left,alike.right,reads.latestBlock,funext reads.blockByID]
      · split
        · exact lockstep_fail _
        · exact lockstep_modifyPending (fun _ => rfl) (fun _ => rfl)
    · exact lockstep_fail _

theorem lockstep_executePending (tx : TransactionBody) :
    Lockstep (Alike latest s t) (Alike latest s t) (executePending E M B tx) (executePending E M C tx) := by
  refine lockstep_then (lockstep_pending PendingBlock.index) fun index => ?_
  refine lockstep_then (lockstep_modifyPending (fun _ => rfl) (fun _ => rfl)) fun _ => ?_
  refine lockstep_then (lockstep_runTransaction reads .user tx index) fun run => ?_
  refine lockstep_then (lockstep_modifyPending (fun _ => rfl) (fun _ => rfl)) fun _ => ?_
  refine lockstep_then (lockstep_mergeLedger run.1) fun _ => ?_
  exact lockstep_then (lockstep_modifyPending (fun _ => rfl) (fun _ => rfl)) fun _ => lockstep_pure _

theorem lockstep_executeNextTransaction :
    Lockstep (Alike latest s t) (Alike latest s t) (executeNextTransaction E M B) (executeNextTransaction E M C) := by
  refine lockstep_then (lockstep_pending id) fun pending => ?_
  split
  · exact lockstep_fail _
  split
  · exact lockstep_fail _
  · refine lockstep_then (lockstep_executePending reads _) fun output => ?_
    split
    · exact lockstep_pure _
    · exact lockstep_fail _

theorem lockstep_executeBlock :
    Lockstep (Alike latest s t) (Alike latest s t) (executeBlock E M B) (executeBlock E M C) := by
  have remaining (fuel : Nat) (results : List TransactionResult) : Lockstep (Alike latest s t) (Alike latest s t)
      (executeRemaining E M B fuel results) (executeRemaining E M C fuel results) := by
    induction fuel generalizing results with
    | zero => exact lockstep_pure results
    | succ fuel ih =>
      refine lockstep_then (lockstep_pending id) fun pending => ?_
      split
      · exact lockstep_pure results
      · exact lockstep_then (lockstep_executeNextTransaction reads) fun result => ih _
  refine lockstep_then (lockstep_pending id) fun pending => ?_
  split
  · exact lockstep_fail _
  · exact remaining _ _

theorem lockstep_executeCallbacks (base : Nat) (ids : List Text.Bytes) (idx : Nat) (txs : List TransactionBody)
    (run : SystemRun) : Lockstep (Alike latest s t) (Alike latest s t) (executeCallbacks E M B base ids idx txs run)
      (executeCallbacks E M C base ids idx txs run) := by
  induction txs generalizing idx run with
  | nil => exact lockstep_pure run
  | cons tx rest ih =>
    refine lockstep_then (lockstep_runTransaction reads .scheduled tx _) ?_
    rintro ⟨writes,output⟩
    dsimp only
    split
    · refine lockstep_then (lockstep_modifyPending (fun _ => rfl) (fun _ => rfl)) fun _ => ?_
      exact lockstep_then (lockstep_mergeLedger writes) fun _ => ih _ _
    · exact lockstep_fail _

theorem lockstep_scheduledRun : Lockstep (Alike latest s t) (Alike latest s t) (scheduledRun E M config B)
    (scheduledRun E M config C) := by
  unfold scheduledRun
  split
  · refine lockstep_then (lockstep_pending fun p => p.transactions.entries.length) fun base => ?_
    refine lockstep_then (lockstep_library _) fun processTx => ?_
    refine lockstep_then (lockstep_runTransaction reads .scheduled processTx base) fun output => ?_
    refine lockstep_then (lockstep_modifyPending (fun _ => rfl) (fun _ => rfl)) fun _ => ?_
    refine lockstep_then (lockstep_mergeLedger output.1) fun _ => ?_
    refine lockstep_then (lockstep_library _) fun executeTxs => ?_
    refine lockstep_then (lockstep_library _) fun ids => ?_
    exact lockstep_executeCallbacks reads base ids 0 executeTxs _
  · exact lockstep_pure _

theorem lockstep_executeSystemChunkTransaction (txIndex : Nat) : Lockstep (Alike latest s t) (Alike latest s t)
    (executeSystemChunkTransaction E M config B txIndex) (executeSystemChunkTransaction E M config C txIndex) := by
  refine lockstep_then (lockstep_library _) fun tx => ?_
  refine lockstep_then (lockstep_runTransaction reads .systemChunk tx txIndex) ?_
  rintro ⟨writes,output⟩
  dsimp only
  split
  · exact lockstep_fail _
  · refine lockstep_then (lockstep_modifyPending (fun _ => rfl) (fun _ => rfl)) fun _ => ?_
    exact lockstep_then (lockstep_mergeLedger writes) fun _ => lockstep_pure _

theorem lockstep_sealBlock :
    Lockstep (Alike latest s t) (Alike latest s t) (sealBlock E M config B) (sealBlock E M config C) := by
  refine lockstep_then (lockstep_pending id) fun pending => ?_
  refine lockstep_then (lockstep_scheduledRun reads) fun run => ?_
  refine lockstep_then (lockstep_executeSystemChunkTransaction reads _) fun chunk => ?_
  exact lockstep_then (lockstep_pending id) fun final => lockstep_pure _

theorem lockstep_resetPendingBlock (tick : Tick) : Lockstep (Alike latest s t) (Alike latest s t)
    (resetPendingBlock E B tick) (resetPendingBlock E C tick) := by
  intro b d alike
  have same : readStorage B.latestBlock b = ((B.latestBlock s).mapError .storage,b) := by rw [← alike.left]; rfl
  have other : readStorage C.latestBlock d = ((B.latestBlock s).mapError .storage,d) := by
    rw [reads.latestBlock,← alike.right]
    rfl
  unfold resetPendingBlock
  rw [bind_run,bind_run,same,other]
  cases found : B.latestBlock s with
  | error e => exact ⟨rfl,alike⟩
  | ok block =>
    have height := reads.tip block found
    exact ⟨rfl,{ alike with
      pendingBlock := rfl
      next := congrArg (·+1) height
      ledgerHeight := height }⟩

variable (saves : SameSaves B C E (static E M config) s t)
include saves

theorem lockstep_commitBlock (tick : Tick) : Lockstep (Alike latest s t) (Moved B C E (static E M config) latest s t)
    (commitBlock E M config B tick) (commitBlock E M config C tick) := by
  refine lockstep_bind (lockstep_pending id) (fun pending => ?_) (fun _ _ alike => .inl alike)
  split
  · exact lockstep_mono (lockstep_fail _) fun _ _ alike => .inl alike
  split
  · exact lockstep_mono (lockstep_fail _) fun _ _ alike => .inl alike
  intro b d alike
  rcases lockstep_outcome (lockstep_sealBlock reads) alike with
    ⟨e,after,beside,left,right,failed⟩ | ⟨c,after,beside,left,right,final⟩
  · rw [bind_error left,bind_error right]
    exact ⟨rfl,.inl failed⟩
  have ready : Alike latest s t after.finalize beside.finalize :=
    { final with pendingBlock := congrArg PendingBlock.finalize final.pendingBlock }
  rw [bind_ok left,bind_ok right,bind_ok (finalize_run after),bind_ok (finalize_run beside)]
  rcases saves c with ⟨e,saved,savedThere⟩ | ⟨stored,storedThere,saved,savedThere⟩
  · rw [← ready.left] at saved
    rw [← ready.right] at savedThere
    rw [bind_error (inStorage_error saved),bind_error (inStorage_error savedThere)]
    exact ⟨rfl,.inl ready⟩
  · have placed := sealBlock_placed left
    have height : c.block.height = latest+1 := placed.height.trans alike.next
    have run : B.saveBlock E (static E M config) c after.finalize.storage = (.ok (),stored) := by rw [ready.left,saved]
    have runThere : C.saveBlock E (static E M config) c beside.finalize.storage = (.ok (),storedThere) := by
      rw [ready.right,savedThere]
    rw [bind_ok (inStorage_ok run),bind_ok (inStorage_ok runThere)]
    refine ⟨rfl,.inr ⟨c,height,saved,savedThere,?_⟩⟩
    exact {
      left := rfl
      right := rfl
      pendingBlock := rfl
      latestEntropy := rfl
      autoMine := ready.autoMine
      next := congrArg (·+1) height
      ledgerHeight := height }

theorem lockstep_executeAndCommitBlock (tick : Tick) : Lockstep (Alike latest s t)
    (Moved B C E (static E M config) latest s t) (executeAndCommitBlock E M config B tick)
    (executeAndCommitBlock E M config C tick) := by
  refine lockstep_bind (lockstep_executeBlock reads) (fun results => ?_) (fun _ _ alike => .inl alike)
  exact lockstep_map (lockstep_commitBlock reads saves tick) fun block => (block,results)

theorem lockstep_sendTransaction (tick : Tick) (tx : TransactionBody) : Lockstep (Alike latest s t)
    (Moved B C E (static E M config) latest s t) (sendTransaction E M config B tick tx)
    (sendTransaction E M config C tick tx) := by
  refine lockstep_bind (lockstep_addTransaction reads tx) (fun _ => ?_) (fun _ _ alike => .inl alike)
  refine lockstep_bind (lockstep_view fun b d alike => alike.autoMine) (fun autoMine => ?_) (fun _ _ alike => .inl alike)
  split
  · exact lockstep_map (lockstep_executeAndCommitBlock reads saves tick) fun _ => ()
  · exact lockstep_mono (lockstep_pure ()) fun _ _ alike => .inl alike

/-- Every request has the same answer over the two backends, and leaves emulators that are alike. -/
theorem requests_lockstep (r : Request) : Lockstep (Alike latest s t) (Moved B C E (static E M config) latest s t)
    (respond E M config B r) (respond E M config C r) := by
  have still {α : Type} {x : EmulatorM σ α} {y : EmulatorM τ α} (f : α → Answer)
      (lockstep : Lockstep (Alike latest s t) (Alike latest s t) x y) : Lockstep (Alike latest s t)
        (Moved B C E (static E M config) latest s t) (do let a ← x; pure (f a)) (do let a ← y; pure (f a)) :=
    lockstep_map (lockstep_mono lockstep fun _ _ alike => .inl alike) f
  cases r with
  | addTransaction tx => exact still _ (lockstep_addTransaction reads tx)
  | sendTransaction tick tx => exact lockstep_map (lockstep_sendTransaction reads saves tick tx) _
  | executeNextTransaction => exact still _ (lockstep_executeNextTransaction reads)
  | executeBlock => exact still _ (lockstep_executeBlock reads)
  | commitBlock tick => exact lockstep_map (lockstep_commitBlock reads saves tick) _
  | executeAndCommitBlock tick => exact lockstep_map (lockstep_executeAndCommitBlock reads saves tick) _
  | resetPendingBlock tick => exact still _ (lockstep_resetPendingBlock reads tick)
  | setClock now => exact still _ (lockstep_modifyPending (fun _ => rfl) (fun _ => rfl))
  | setAutoMine on =>
    refine still _ (lockstep_update fun b d alike => ?_)
    exact { alike with autoMine := rfl }

end
end

/-! ### Memory and SQL -/

/-- The blocks before some others have the shape that all of them have. -/
theorem shaped_front {E : Encoding} {static : Identifier → Bool} {front cs : List BlockContents} (isFront : front <+: cs)
    (shaped : Shaped E static cs) : Shaped E static front := by
  obtain ⟨back,rfl⟩ := isFront
  have distinct {α : Type} {f : BlockContents → List α} (all : ((front ++ back).flatMap f).Nodup) :
      (front.flatMap f).Nodup := by
    rw [List.flatMap_append] at all
    exact all.of_append_left
  have here {c : BlockContents} (member : c ∈ front) : c ∈ front ++ back := List.mem_append_left back member
  exact {
    blocks := by
      have all := shaped.blocks
      rw [List.map_append] at all
      exact all.of_append_left
    collections := distinct shaped.collections
    transactions := distinct shaped.transactions
    results := fun c member => shaped.results c (here member)
    scheduled := distinct shaped.scheduled
    nonstatic := distinct shaped.nonstatic
    bodies := fun c member d other => shaped.bodies c (here member) d (here other) }

/-- The SQL store after some blocks. -/
abbrev sqlRun (E : Encoding) (static : Identifier → Bool) (choices : Sqlite.Choices) (url : Sqlite.Url)
    (cs : List BlockContents) : Sqlite.Store :=
  Sqlite.run ((Sqlite.store E choices).saveBlock E static) cs (Sqlite.fresh url)

/-- The SQL store with the log of its commits. -/
abbrev sqlLogged (E : Encoding) (choices : Sqlite.Choices) : Backend (Sqlite.Store × Log) :=
  Logged.backend Sqlite.places (Sqlite.backend E choices)

section
variable {υ : Type} {E : Encoding} {static : Identifier → Bool} {T : Memstore.SnapshotTree υ} {choices : Sqlite.Choices}
  {url : Sqlite.Url} {cs : List BlockContents}

/-- The latest block in memory is at the height of the last block. -/
theorem kept_tip {m : Memstore.Store υ} (kept : Memstore.Kept E T static cs m) {block : Block}
    (read : (Memstore.backend E T).latestBlock m = .ok block) : block.height = cs.length-1 := by
  have tip : (Memstore.backend E T).latestBlock m =
      found (assign (fun _ => none) (cs.flatMap Memstore.blockRecords) (cs.length-1)) := by
    show found (m.blocks m.blockHeight) = _
    rw [kept.blockHeight,kept.blocks]
  rw [tip] at read
  cases stored : assign (fun _ => none) (cs.flatMap Memstore.blockRecords) (cs.length-1) with
  | none =>
    rw [stored] at read
    cases read
  | some other =>
    rw [stored] at read
    cases read
    exact block_of_height stored

/-- A store that answers as the one in memory does, but for the past of the ledger, is read the same. -/
theorem sameReads_answers {τ : Type} {C : Backend τ} {t : τ} (chain : Chain 0 cs) (answers : ∀ query : Query,
      query.Current (cs.length-1) → (Memstore.backend E T).answer query (Memstore.run E T static cs) = C.answer query t) :
    SameReads (Memstore.backend E T) C (cs.length-1) (Memstore.run E T static cs) t where
  latestBlock := answers .latestBlock trivial
  tip _ := kept_tip (Memstore.kept_run E T static chain)
  blockByID id := answers (.blockByID id) trivial
  transactionByID id := answers (.transactionByID id) trivial
  ledgerByHeight r := answers (.ledgerByHeight _ r) rfl

variable (T choices url) in
/-- After a chain of blocks both stores are read the same. -/
theorem sameReads_run (chain : Chain 0 cs) (shaped : Shaped E static cs) (begun : cs ≠ []) (log : Log) :
    SameReads (Memstore.backend E T) (sqlLogged E choices) (cs.length-1) (Memstore.run E T static cs)
      (sqlRun E static choices url cs,log) := by
  have positive : 0 < cs.length := List.length_pos_iff.mpr begun
  suffices reads : SameReads _ (Sqlite.backend E choices) _ _ (sqlRun E static choices url cs) from { reads with }
  refine sameReads_answers chain fun query current => ?_
  refine kept_answers (Memstore.kept_run E T static chain) (Sqlite.saved_files chain shaped choices url)
    (latestHeight_agree chain choices url) fun height r ledger => ?_
  subst ledger
  obtain rfl : height = cs.length-1 := current
  exact ⟨by omega,Sqlite.ledger_read chain choices url _ r⟩

variable (E) in
/-- A block whose counts do not agree is refused by all stores, with one error. -/
theorem uncounted_refused {c : BlockContents} (uncounted : ¬ c.Counted) : ∃ e,
    (∀ {υ : Type} (T : Memstore.SnapshotTree υ) s, (Memstore.backend E T).commitBlock c s = (.error e,s)) ∧
      ∀ {τ : Type} (D : DefaultStore.DataStore τ) s, (DefaultStore.store E D).commitBlock c s = (.error e,s) := by
  by_cases first : c.transactions.entries.length = c.transactionResults.entries.length
  · have second : c.systemTransactions.length ≠ c.systemTransactionResults.entries.length :=
      fun same => uncounted ⟨first,same⟩
    refine ⟨.systemTransactionsCount c.systemTransactions.length c.systemTransactionResults.entries.length,
      fun T s => ?_,fun D s => ?_⟩
    · show Memstore.commitBlock E T c s = _
      rw [Memstore.commitBlock,if_neg (not_not.mpr first),if_pos second]
      rfl
    · show DefaultStore.commitBlock E D c s = _
      rw [DefaultStore.commitBlock,if_neg (not_not.mpr first),if_pos second]
      rfl
  · refine ⟨.transactionsCount c.transactions.entries.length c.transactionResults.entries.length,
      fun T s => ?_,fun D s => ?_⟩
    · show Memstore.commitBlock E T c s = _
      rw [Memstore.commitBlock,if_pos first]
      rfl
    · show DefaultStore.commitBlock E D c s = _
      rw [DefaultStore.commitBlock,if_pos first]
      rfl

/-- A block that memory has saved at the next height goes on with the chain. -/
theorem chain_saved (chain : Chain 0 cs) (begun : cs ≠ []) {c : BlockContents} (height : c.block.height = cs.length-1+1)
    {after : Memstore.Store υ}
    (saved : (Memstore.backend E T).saveBlock E static c (Memstore.run E T static cs) = (.ok (),after)) :
    c.Counted ∧ Chain 0 (cs ++ [c]) ∧ (cs ++ [c]).length-1 = cs.length-1+1 ∧ Memstore.run E T static (cs ++ [c]) = after := by
  have positive : 0 < cs.length := List.length_pos_iff.mpr begun
  have counted : c.Counted := by
    by_contra uncounted
    obtain ⟨e,refused,_⟩ := uncounted_refused E uncounted
    cases saved.symm.trans (bind_error (refused T _) _)
  refine ⟨counted,chain_append.mpr ⟨chain,by omega,counted,trivial⟩,?_,?_⟩
  · rw [List.length_append,List.length_singleton]
    omega
  · rw [Memstore.run,play_append]
    exact congrArg Prod.snd saved

variable (T choices url) in
/-- After a chain of blocks both stores save a block, or both refuse it. -/
theorem sameSaves_run (chain : Chain 0 cs) (begun : cs ≠ []) (log : Log) :
    SameSaves (Memstore.backend E T) (sqlLogged E choices) E static (Memstore.run E T static cs)
      (sqlRun E static choices url cs,log) := by
  intro c
  have logged : (sqlLogged E choices).saveBlock E static c (_,log) = _ :=
    Logged.saveBlock_run (sqlRun E static choices url cs,log)
  by_cases counted : c.Counted
  · have commits := Sqlite.commits_saveBlock E choices static
    obtain ⟨tip,_⟩ := Sqlite.run_tip commits chain (Sqlite.fresh_tip E url) (Nat.le_refl 0) begun
    obtain ⟨after,run,_⟩ := commits.wrote c _ _ counted tip
    have run : (Sqlite.backend E choices).saveBlock E static c _ = (.ok (),after) := run
    rw [run] at logged
    exact .inr ⟨_,_,Memstore.saveBlock_run E T static c counted _,logged⟩
  · obtain ⟨e,inMemory,overSql⟩ := uncounted_refused E counted
    refine .inl ⟨e,bind_error (inMemory T _) _,?_⟩
    have uncommitted : (Sqlite.backend E choices).commitBlock c (sqlRun E static choices url cs) = (.error e,_) :=
      overSql (Sqlite.dataStore choices) _
    have refused : (Sqlite.backend E choices).saveBlock E static c
        (sqlRun E static choices url cs) = (.error e,_) :=
      bind_error uncommitted _
    rw [logged,refused,uncommitted]

end

/-- An emulator in memory and one over SQL after the same commits. -/
structure Twins {υ : Type} (E : Encoding) (M : Machine) (config : Config) (T : Memstore.SnapshotTree υ)
    (choices : Sqlite.Choices) (url : Sqlite.Url) (cs : List BlockContents) (m : Blockchain (Memstore.Store υ))
    (q : Blockchain (Sqlite.Store × Log)) : Prop where
  chain : Chain 0 cs
  begun : cs ≠ []
  log : q.storage.2 .main = cs
  alike : Alike (cs.length-1) (Memstore.run E T (static E M config) cs)
    (sqlRun E (static E M config) choices url cs,q.storage.2) m q

section
variable {υ : Type} {E : Encoding} {M : Machine} {config : Config} {T : Memstore.SnapshotTree υ} {choices : Sqlite.Choices}
  {url : Sqlite.Url} {cs : List BlockContents} {m : Blockchain (Memstore.Store υ)} {q : Blockchain (Sqlite.Store × Log)}

/-- The store over SQL saves the next block, and notes it. -/
theorem twins_saves (twins : Twins E M config T choices url cs m q) {c : BlockContents} (counted : c.Counted) :
    ∃ storage, (sqlLogged E choices).saveBlock E (static E M config) c q.storage = (.ok (),storage) ∧
      storage.1 = sqlRun E (static E M config) choices url (cs ++ [c]) ∧ storage.2 .main = cs ++ [c] := by
  have commits := Sqlite.commits_saveBlock E choices (static E M config)
  obtain ⟨tip,_⟩ := Sqlite.run_tip commits twins.chain (Sqlite.fresh_tip E url) (Nat.le_refl 0) twins.begun
  obtain ⟨after,run,_⟩ := commits.wrote c _ _ counted tip
  have run : (Sqlite.backend E choices).saveBlock E (static E M config) c _ = (.ok (),after) := run
  obtain ⟨_,committed⟩ := Logged.saveBlock_commits run
  have noted : (sqlLogged E choices).saveBlock E (static E M config) c
      (sqlRun E (static E M config) choices url cs,q.storage.2) = _ := Logged.saveBlock_run _
  rw [run,committed] at noted
  rw [twins.alike.right]
  refine ⟨_,noted,?_,?_⟩
  · unfold sqlRun
    rw [Sqlite.run_append]
    exact (congrArg Prod.snd run).symm
  · have opened : Sqlite.places.current (sqlRun E (static E M config) choices url cs) = .main :=
      (Sqlite.run_grown commits twins.chain (Sqlite.fresh_tip E url) (Nat.le_refl 0)).db
    show Logged.committed Sqlite.places c _ q.storage.2 .main = _
    rw [Logged.committed,opened,Function.update_self,twins.log]

/-- A block that both have saved. -/
theorem twins_saved (twins : Twins E M config T choices url cs m q) {c : BlockContents} (height : c.block.height = cs.length-1+1)
    {m' : Blockchain (Memstore.Store υ)} {q' : Blockchain (Sqlite.Store × Log)}
    (saved : (Memstore.backend E T).saveBlock E (static E M config) c (Memstore.run E T (static E M config) cs) =
      (.ok (),m'.storage))
    (savedThere : (sqlLogged E choices).saveBlock E (static E M config) c
        (sqlRun E (static E M config) choices url cs,q.storage.2) = (.ok (),q'.storage))
    (alike : Alike (cs.length-1+1) m'.storage q'.storage m' q') : Twins E M config T choices url (cs ++ [c]) m' q' := by
  obtain ⟨counted,chain,last,inMemory⟩ := chain_saved twins.chain twins.begun height saved
  obtain ⟨storage,run,overSql,log⟩ := twins_saves twins counted
  rw [twins.alike.right,savedThere] at run
  cases run
  refine ⟨chain,by simp,log,?_⟩
  rw [last,inMemory,← overSql]
  exact alike

/-- A request to both has one answer, and leaves them after the same commits. -/
theorem twins_respond (twins : Twins E M config T choices url cs m q) (shaped : Shaped E (static E M config) cs) (r : Request) :
    (respond E M config (Memstore.backend E T) r m).1 = (respond E M config (sqlLogged E choices) r q).1 ∧
      ∃ after, Twins E M config T choices url after (respond E M config (Memstore.backend E T) r m).2
        (respond E M config (sqlLogged E choices) r q).2 := by
  have reads := sameReads_run T choices url twins.chain shaped twins.begun q.storage.2
  have saves : SameSaves _ _ E (static E M config) _ _ := sameSaves_run T choices url twins.chain twins.begun q.storage.2
  obtain ⟨answer,moved⟩ := requests_lockstep reads saves r m q twins.alike
  refine ⟨answer,?_⟩
  generalize (respond E M config (Memstore.backend E T) r m).2 = m' at moved ⊢
  generalize (respond E M config (sqlLogged E choices) r q).2 = q' at moved ⊢
  rcases moved with alike | ⟨c,height,saved,savedThere,alike⟩
  · have kept : q'.storage.2 = q.storage.2 := by rw [alike.right]
    exact ⟨cs,twins.chain,twins.begun,by rw [kept,twins.log],by rw [kept]; exact alike⟩
  · exact ⟨cs ++ [c],twins_saved twins height saved savedThere alike⟩

/-- The first block has nothing to index. -/
theorem saveBlock_genesis {σ : Type} {B : Backend σ} {writes : WriteSet} {events : List Event} {s after : σ}
    (run : B.commitBlock (genesisContents M config writes events) s = (.ok (),after)) (static : Identifier → Bool) :
    B.saveBlock E static (genesisContents M config writes events) s = (.ok (),after) := by
  unfold Store.saveBlock
  rw [bind_ok run]
  rfl

/-- Where an emulator starts on the empty store in memory, one starts alike on any
    store that has no block, no registers, and takes the first block. -/
theorem alike_started {τ : Type} {C : Backend τ} {t : τ} {tick : Tick} {autoMine : Bool}
    (started : newBlockchain E M config (Memstore.backend E T) tick autoMine Memstore.new = .ok m)
    (none : C.latestBlock t = .error .notFound) (registers : ∀ id, C.ledgerByHeight 0 id t = .ok [])
    (commits : ∀ writes events, ∃ after, C.commitBlock (genesisContents M config writes events) t = (.ok (),after)) :
    ∃ q writes events, newBlockchain E M config C tick autoMine t = .ok q ∧
      C.commitBlock (genesisContents M config writes events) t = (.ok (),q.storage) ∧
      Alike 0 (Memstore.run E T (static E M config) [genesisContents M config writes events]) q.storage m q := by
  have empty : (Memstore.backend E T).latestBlock Memstore.new = .error .notFound := rfl
  obtain ⟨writes,events,bootstrapped,run,pending⟩ := new_first empty started
  have unwritten : (fun id => C.ledgerByHeight 0 id t) = fun id => (Memstore.backend E T).ledgerByHeight 0 id Memstore.new := by
    funext id
    refine (registers id).trans ?_
    show Except.ok [] = Except.ok (T.get T.empty id)
    rw [T.get_empty]
  obtain ⟨after,committed⟩ := commits writes events
  have startedThere := new_bootstrapped (E := E) tick autoMine none ((congrArg _ unwritten).trans bootstrapped) committed
  have same := Except.ok.inj (started.symm.trans (new_bootstrapped tick autoMine empty bootstrapped run))
  exact ⟨_,writes,events,startedThere,committed,{
    left := (congrArg Prod.snd (saveBlock_genesis run (static E M config))).symm
    right := rfl
    pendingBlock := pending
    latestEntropy := by rw [same]
    autoMine := by rw [same]
    next := by rw [pending]; rfl
    ledgerHeight := by rw [pending]; rfl }⟩

variable (choices url) in
/-- Two emulators that are started on empty stores. -/
theorem twins_started {tick : Tick} {autoMine : Bool}
    (started : newBlockchain E M config (Memstore.backend E T) tick autoMine Memstore.new = .ok m) :
    ∃ q writes events, newBlockchain E M config (sqlLogged E choices) tick autoMine (Sqlite.fresh url,fun _ => []) = .ok q ∧
      Twins E M config T choices url [genesisContents M config writes events] m q := by
  have saves (writes : WriteSet) (events : List Event) : ∃ stored,
      (Sqlite.backend E choices).commitBlock (genesisContents M config writes events) (Sqlite.fresh url) = (.ok (),stored) := by
    obtain ⟨stored,saved,_⟩ := (Sqlite.commits_commitBlock E choices).wrote (genesisContents M config writes events) _ none
      ⟨rfl,rfl⟩ (Sqlite.fresh_tip E url)
    exact ⟨stored,saved⟩
  have notes {c : BlockContents} {stored : Sqlite.Store}
      (saved : (Sqlite.backend E choices).commitBlock c (Sqlite.fresh url) = (.ok (),stored)) :
      (sqlLogged E choices).commitBlock c (Sqlite.fresh url,fun _ => []) =
        (.ok (),(stored,Logged.committed Sqlite.places c (Sqlite.fresh url) fun _ => [])) := by
    show Logged.noting _ ((Sqlite.backend E choices).commitBlock c) _ = _
    rw [Logged.noting_run,saved]
  have unwritten (r : RegisterID) : DefaultStore.ledgerByHeight E (Sqlite.dataStore choices) 0 r
      (sqlRun E (static E M config) choices url []) = .ok [] :=
    Sqlite.ledger_read (show Chain 0 [] from trivial) choices url 0 r
  obtain ⟨q,writes,events,startedThere,committed,alike⟩ := alike_started (C := sqlLogged E choices)
    (t := (Sqlite.fresh url,fun _ => [])) started (LinkedChain.empty_latestBlock choices (Sqlite.fresh_tip E url)) unwritten
    fun writes events => (saves writes events).elim fun _ saved => ⟨_,notes saved⟩
  obtain ⟨stored,saved⟩ := saves writes events
  have storage : q.storage = _ := congrArg Prod.snd (committed.symm.trans (notes saved))
  refine ⟨q,writes,events,startedThere,⟨rfl,⟨rfl,rfl⟩,trivial⟩,by simp,?_,{ alike with right := ?_ }⟩
  · rw [storage]
    show Logged.committed Sqlite.places _ (Sqlite.fresh url) (fun _ => []) .main = _
    rw [Logged.committed]
    exact Function.update_self ..
  · have overSql := congrArg Prod.snd (saveBlock_genesis (E := E) saved (static E M config))
    rw [storage]
    exact congrArg (·,_) overSql.symm

variable (E M config choices) in
/-- Requests only add to the log. -/
theorem respond_log (r : Request) (b : Blockchain (Sqlite.Store × Log)) (name : Sqlite.DatabaseName) : b.storage.2 name <+:
    (respond E M config (sqlLogged E choices) r b).2.storage.2 name := by
  have noted {c : BlockContents} {answer : Except StoreError Unit} {storage : Sqlite.Store × Log}
      (run : (sqlLogged E choices).saveBlock E (static E M config) c b.storage = (answer,storage)) :
      b.storage.2 name <+: storage.2 name := by
    have same := run.symm.trans (Logged.saveBlock_run b.storage)
    obtain ⟨_,rfl⟩ := Prod.mk.inj same
    dsimp only
    split
    · unfold Logged.committed
      by_cases opened : name = Sqlite.places.current b.storage.1
      · rw [opened,Function.update_self]
        exact List.prefix_append _ _
      · rw [Function.update_of_ne opened]
    · exact List.prefix_refl _
  rw [respond_request]
  cases request_effect r b with
  | still still => rw [still.storage]
  | refused c e run place => exact noted run
  | saved c tick placed run pending => exact noted run
  | reset tick block storage found pending => rw [storage]

variable (E M config choices) in
theorem converse_log (requests : List Request) (b : Blockchain (Sqlite.Store × Log)) (name : Sqlite.DatabaseName) :
    b.storage.2 name <+: (converse E M config (sqlLogged E choices) requests b).2.storage.2 name := by
  induction requests generalizing b with
  | nil => exact List.prefix_refl _
  | cons r rest ih => exact (respond_log E M config choices r b name).trans (ih _)

/-- Conversations with two emulators after the same commits. -/
theorem twins_converse (requests : List Request) (twins : Twins E M config T choices url cs m q)
    (shaped : Shaped E (static E M config) ((converse E M config (sqlLogged E choices) requests q).2.storage.2 .main)) :
    (converse E M config (Memstore.backend E T) requests m).1 = (converse E M config (sqlLogged E choices) requests q).1 ∧
      ∃ after, Twins E M config T choices url after (converse E M config (Memstore.backend E T) requests m).2
        (converse E M config (sqlLogged E choices) requests q).2 := by
  induction requests generalizing cs m q with
  | nil => exact ⟨rfl,cs,twins⟩
  | cons r rest ih =>
    have shapedHere : Shaped E (static E M config) cs := by
      have grows := converse_log E M config choices (r :: rest) q .main
      rw [twins.log] at grows
      exact shaped_front grows shaped
    obtain ⟨answer,after,next⟩ := twins_respond twins shapedHere r
    obtain ⟨answers,last,ends⟩ := ih next shaped
    refine ⟨?_,last,ends⟩
    rw [converse,converse,answer,answers]

/-- An emulator in memory and one over SQL cannot be told apart: they start alike,
    answer all requests the same, and are read the same afterwards, as long as no
    identifiers of what they commit collide. -/
theorem stores_indistinguishable (E : Encoding) (M : Machine) (config : Config) (T : Memstore.SnapshotTree υ)
    (choices : Sqlite.Choices) (url : Sqlite.Url) (tick : Tick) (autoMine : Bool)
    (started : newBlockchain E M config (Memstore.backend E T) tick autoMine Memstore.new = .ok m) :
    ∃ q, newBlockchain E M config (Logged.backend Sqlite.places (Sqlite.backend E choices)) tick autoMine
        (Sqlite.fresh url,fun _ => []) = .ok q ∧ ∀ requests,
      let left := converse E M config (Memstore.backend E T) requests m
      let right := converse E M config (Logged.backend Sqlite.places (Sqlite.backend E choices)) requests q
      Shaped E (static E M config) (right.2.storage.2 .main) → left.1 = right.1 ∧
        SameReads (Memstore.backend E T) (Logged.backend Sqlite.places (Sqlite.backend E choices))
          ((right.2.storage.2 .main).length-1) left.2.storage right.2.storage := by
  obtain ⟨q,_,_,startedThere,twins⟩ := twins_started choices url started
  refine ⟨q,startedThere,fun requests => ?_⟩
  intro left right shaped
  obtain ⟨answers,cs,ends⟩ := twins_converse requests twins shaped
  refine ⟨answers,?_⟩
  have log : right.2.storage.2 .main = cs := ends.log
  rw [log] at shaped ⊢
  have reads := sameReads_run T choices url ends.chain shaped ends.begun right.2.storage.2
  rw [← ends.alike.left,← ends.alike.right] at reads
  exact reads

end

open FlowEmulator.Samples in
/-- The block that is sealed on the genesis block has only the system transaction. -/
theorem shaped_sealed {σ : Type} (B : Backend σ) {b : Blockchain σ} (writes : WriteSet) (events : List Event)
    (pending : b.pendingBlock = newPendingBlock numberEncoding tick (genesis machine config.getChainID)) :
    ∃ c middle, sealBlock numberEncoding machine config B b = (.ok c,middle) ∧ c.Counted ∧ middle.storage = b.storage ∧
      Shaped numberEncoding (static numberEncoding machine config) [genesisContents machine config writes events,c] := by
  obtain ⟨storage,_,entropy,autoMine⟩ := b
  cases pending
  refine ⟨_,_,rfl,⟨rfl,rfl⟩,rfl,?_,List.nodup_nil,List.nodup_nil,?_,List.nodup_nil,?_,?_⟩
  · show [digest 0,digest 1].Nodup
    decide
  · intro c here id member
    rcases List.mem_pair.mp here with rfl | rfl <;> cases member
  · show (List.filter (fun id => !static numberEncoding machine config id) [digest 0] ++ []).Nodup
    rw [List.append_nil]
    exact (List.nodup_singleton _).filter _
  · intro c here d there entry member other among _
    rcases List.mem_pair.mp here with rfl | rfl
    · cases member
    rcases List.mem_pair.mp there with rfl | rfl
    · cases among
    · exact (List.mem_singleton.mp member).trans (List.mem_singleton.mp among).symm

open FlowEmulator.Samples in
/-- A block is committed on the genesis block, and what is executed above it adds none. -/
theorem sample_recorded {m : Blockchain (Memstore.Store (List WriteSet))} {q : Blockchain (Sqlite.Store × Log)} {writes : WriteSet}
    {events : List Event} (twins : Twins numberEncoding machine config .ofLists .earliest .inMemory
      [genesisContents machine config writes events] m q)
    (pending : q.pendingBlock = newPendingBlock numberEncoding tick (genesis machine config.getChainID)) :
    ∃ c, (converse numberEncoding machine config (sqlLogged numberEncoding .earliest)
        [.commitBlock tick,.addTransaction transaction,.executeBlock] q).2.storage.2 .main =
          [genesisContents machine config writes events,c] ∧
      Shaped numberEncoding (static numberEncoding machine config) [genesisContents machine config writes events,c] := by
  obtain ⟨c,middle,sealed,counted,kept,shaped⟩ := shaped_sealed (sqlLogged numberEncoding .earliest) writes events pending
  have ready : q.pendingBlock.index = q.pendingBlock.size := by rw [pending]; rfl
  obtain ⟨storage,saved,_,log⟩ := twins_saves twins counted
  rw [← kept] at saved
  refine ⟨c,?_,shaped⟩
  let b := (respond numberEncoding machine config (sqlLogged numberEncoding .earliest) (.commitBlock tick) q).2
  have committed : b.storage = storage := by
    show (respond numberEncoding machine config (sqlLogged numberEncoding .earliest) (.commitBlock tick) q).2.storage = _
    rw [respond_request]
    exact congrArg (·.2.storage) (commitBlock_ok tick ready sealed saved)
  have still : Still b (converse numberEncoding machine config (sqlLogged numberEncoding .earliest)
      [.addTransaction transaction,.executeBlock] b).2 := by
    show Still b (respond numberEncoding machine config _ _ (respond numberEncoding machine config _ _ b).2).2
    rw [respond_request,respond_request]
    exact keeps_executeBlock (keeps_executeNextTransaction b) _ (keeps_addTransaction b transaction b (still_refl b))
  show (converse numberEncoding machine config (sqlLogged numberEncoding .earliest) _ b).2.storage.2 .main = _
  rw [still.storage,committed]
  exact log

open FlowEmulator.Samples in
/-- A block is committed on both, and a transaction is executed above it. -/
theorem stores_indistinguishable_execution : ∃ m q,
    newBlockchain numberEncoding machine config (Memstore.backend numberEncoding .ofLists) tick false Memstore.new = .ok m ∧
    newBlockchain numberEncoding machine config (Logged.backend Sqlite.places (Sqlite.backend numberEncoding .earliest)) tick
      false (Sqlite.fresh .inMemory,fun _ => []) = .ok q ∧
    let requests := [.commitBlock tick,.addTransaction transaction,.executeBlock]
    let left := converse numberEncoding machine config (Memstore.backend numberEncoding .ofLists) requests m
    let right := converse numberEncoding machine config
      (Logged.backend Sqlite.places (Sqlite.backend numberEncoding .earliest)) requests q
    (right.2.storage.2 .main).length = 2 ∧ left.1 = right.1 := by
  obtain ⟨m,started⟩ : ∃ m, newBlockchain numberEncoding machine config (Memstore.backend numberEncoding .ofLists) tick false
      Memstore.new = .ok m := ⟨_,rfl⟩
  obtain ⟨q,startedThere,same⟩ :=
    stores_indistinguishable numberEncoding machine config .ofLists .earliest .inMemory tick false started
  obtain ⟨_,_,_,startedAlso,twins⟩ := twins_started .earliest .inMemory started
  cases startedThere.symm.trans startedAlso
  obtain ⟨c,recorded,shaped⟩ := sample_recorded twins (by rw [← twins.alike.pendingBlock,← Except.ok.inj started])
  refine ⟨m,q,started,startedThere,congrArg List.length recorded,(same _ ?_).1⟩
  rw [← recorded] at shaped
  exact shaped

end FlowEmulator.Blockchain
