import FlowEmulator.AccessAdapter
import FlowEmulator.EventRanges
import FlowEmulator.StatusStream

/-!
The time of a block, as clients see it. A block is stored with its time in
milliseconds, and each place that shows the block turns the number into an
instant on its own. The stream of digests takes it for seconds, all others for
milliseconds. So the instants would agree for blocks of the very first millisecond
only (`block_times_agree_iff`), and no block is committed with that time.
-/
namespace FlowEmulator.BlockTimes
open FlowEmulator.Fallible FlowEmulator.Rounds FlowEmulator.Blockchain FlowEmulator.EventQueries
open FlowEmulator.Access (GoError BlockStatus access ofQuery)
open FlowEmulator.StatusStream (StreamError validateHeight)

/-! ### Instants -/

/-- The instant at a number of milliseconds. Instants are counted in nanoseconds since the beginning of 1970. -/
def timeUnixMilli (msec : Int) : Int := msec * 1000000

/-- The seconds from the beginning of year 1 to that of 1970. -/
def unixToInternal : Int := 62135596800

/-- The instant at a number of seconds, which are counted from year 1 on in a signed number of 64 bits. -/
def timeUnix (sec : Int) : Int := ((sec+unixToInternal).bmod (2^64) - unixToInternal) * 1000000000

/-- The number that is stored for a time: its milliseconds in an unsigned number of 64 bits. -/
def stamp (time : Int) : Nat := (time / 1000000 % 2^64).toNat

/-- The instant that a stored number stands for. -/
def instant (timestamp : Nat) : Int := timeUnixMilli (unixMilli timestamp)

/-- The signed number of 64 bits with the same bits: some number of times 2^64 away, and not too large. -/
theorem bmod_spec (n : Int) : ∃ times, n = n.bmod (2^64) + 18446744073709551616 * times ∧
    -9223372036854775808 ≤ n.bmod (2^64) ∧ n.bmod (2^64) < 9223372036854775808 := by
  have positive : 0 < 2^64 := by decide
  have low := Int.le_bmod positive (x := n)
  have high := Int.bmod_lt positive (x := n)
  refine ⟨n.bdiv (2^64),?_,by simpa using low,by simpa using high⟩
  have parts := Int.bmod_add_bdiv n (2^64)
  simpa using parts.symm

/-- A stored time stands for the time that was stored, up to the millisecond. -/
theorem instant_stamp {time : Int} (low : -2^63 ≤ time / 1000000) (high : time / 1000000 < 2^63) :
    instant (stamp time) = time / 1000000 * 1000000 := by
  obtain ⟨times,parts,least,most⟩ := bmod_spec (stamp time)
  have same : ((stamp time : Nat) : Int) = time / 1000000 % 2^64 := by
    unfold stamp
    exact Int.toNat_of_nonneg (by omega)
  unfold instant timeUnixMilli unixMilli
  omega

/-- A number of seconds and of milliseconds is the same instant for 0 only. -/
theorem timeUnix_eq_instant {timestamp : Nat} : timeUnix (unixMilli timestamp) = instant timestamp ↔ timestamp % 2^64 = 0 := by
  obtain ⟨times,parts,least,most⟩ := bmod_spec timestamp
  obtain ⟨again,shifted,low,high⟩ := bmod_spec (unixMilli timestamp+unixToInternal)
  have milliseconds : (timestamp : Int).bmod (2^64) = unixMilli timestamp := rfl
  rw [milliseconds] at parts least most
  unfold timeUnix instant timeUnixMilli
  unfold unixToInternal at shifted low high ⊢
  generalize (unixMilli timestamp+62135596800).bmod (2^64) = shown at shifted low high ⊢
  generalize unixMilli timestamp = msec at parts least most shifted ⊢
  have zero : timestamp % 2^64 = 0 ↔ msec = 0 := by
    clear shifted low high
    omega
  -- The seconds may leave the range once, and 2^64 is no multiple of 999.
  have above : -1 < again := by omega
  have below : again < 2 := by omega
  rw [zero]
  constructor
  · intro same
    grind
  · rintro rfl
    grind

/-! ### Headers, blocks and digests -/

structure BlockHeader where
  id : Identifier
  parentID : Identifier
  height : Nat
  timestamp : Int

structure BlockSeal where
  blockID : Identifier
  resultId : Identifier

structure BlockPayload where
  seals : List BlockSeal
  collectionGuarantees : List Identifier

/-- A block of the client library. -/
structure ClientBlock where
  header : BlockHeader
  payload : BlockPayload

structure BlockDigest where
  blockID : Identifier
  height : Nat
  timestamp : Int

section
variable (E : Encoding) (sealsOf : Text.Bytes → List BlockSeal) (a : Access.Emulator)

def blockHeader (block : Block) : BlockHeader := ⟨E.blockID block,block.parentID,block.height,timeUnixMilli (unixMilli block.timestamp)⟩

/-- The seals are read from their encoding. -/
def convertBlockPayload (block : Block) : BlockPayload := ⟨sealsOf block.sealing,block.guarantees⟩

/-- Any error is an internal one. -/
def internal {α : Type} (result : Except GoError α) : Except GoError α := result.mapError (.status .internal)

def sealedHeader (block : Except GoError Block) : Except GoError (BlockHeader × BlockStatus) :=
  block.map fun block => (blockHeader E block,.sealed)

def sealedBlock (block : Except GoError Block) : Except GoError (ClientBlock × BlockStatus) :=
  block.map fun block => (⟨blockHeader E block,convertBlockPayload sealsOf block⟩,.sealed)

def getLatestBlockHeader : Except GoError (BlockHeader × BlockStatus) := sealedHeader E (internal a.getLatestBlock)
def getBlockHeaderByHeight (height : Nat) : Except GoError (BlockHeader × BlockStatus) :=
  sealedHeader E (internal (a.getBlockByHeight height))
/-- Here the error is returned as it is. -/
def getBlockHeaderByID (id : Identifier) : Except GoError (BlockHeader × BlockStatus) := sealedHeader E (a.getBlockByID id)
def getLatestBlock : Except GoError (ClientBlock × BlockStatus) := sealedBlock E sealsOf (internal a.getLatestBlock)
def getBlockByHeight (height : Nat) : Except GoError (ClientBlock × BlockStatus) :=
  sealedBlock E sealsOf (internal (a.getBlockByHeight height))
def getBlockByID (id : Identifier) : Except GoError (ClientBlock × BlockStatus) :=
  sealedBlock E sealsOf (internal (a.getBlockByID id))

end

section
variable {σ : Type} (E : Encoding) (B : Backend σ)

def getBlockHeader (height : Nat) (b : Blockchain σ) : Except StreamError Block :=
  match validateHeight B height b with
  | .error e => .error e
  | .ok _ => match b.getBlockByHeight B height with
    | .error _ => .error (.blockNotReady height)
    | .ok block => .ok block

/-- The time of the header is taken for seconds. -/
def getBlockDigestResponse (height : Nat) (b : Blockchain σ) : Except StreamError BlockDigest :=
  (getBlockHeader B height b).map fun header =>
    ⟨E.blockID header,header.height,timeUnix (unixMilli header.timestamp)⟩

end

/-! ### All views of a block -/

/-- How a block is asked for. -/
inductive Lookup where
  | latest
  | byHeight (height : Nat)
  | byID (id : Identifier)

/-- The answers that show the time of a block. The query of a range makes a number of turns at most. -/
inductive View where
  | digest
  | header (lookup : Lookup)
  | block (lookup : Lookup)
  | eventsForBlockIDs (eventType : String) (blockIDs : List Identifier)
  | eventsForHeightRange (eventType : String) (startHeight endHeight : UInt64) (bound : Nat)

section
variable (E : Encoding) (sealsOf : Text.Bytes → List BlockSeal) (a : Access.Emulator)

def Lookup.header : Lookup → Except GoError (BlockHeader × BlockStatus)
  | .latest => getLatestBlockHeader E a
  | .byHeight height => getBlockHeaderByHeight E a height
  | .byID id => getBlockHeaderByID E a id

def Lookup.block : Lookup → Except GoError (ClientBlock × BlockStatus)
  | .latest => getLatestBlock E sealsOf a
  | .byHeight height => getBlockByHeight E sealsOf a height
  | .byID id => getBlockByID E sealsOf a id

/-- The block that the emulator finds. -/
def Lookup.find : Lookup → Except GoError Block
  | .latest => a.getLatestBlock
  | .byHeight height => a.getBlockByHeight height
  | .byID id => a.getBlockByID id

/-- The time of a header that is at a height. -/
def headerTimes (height : Nat) : Except GoError BlockHeader → List Int
  | .ok header => if header.height = height then [header.timestamp] else []
  | .error _ => []

/-- The times of the entries for a height. -/
def entryTimes (height : Nat) (reply : Reply) : List Int :=
  (reply.result.filter fun entry => decide (entry.blockHeight = height)).map fun entry => timeUnixMilli entry.blockTimestamp

variable {σ : Type} (B : Backend σ) (b : Blockchain σ) (height : Nat)

/-- The times that an answer shows for the block at a height. -/
def View.times : View → List Int
  | .digest => match getBlockDigestResponse E B height b with
    | .ok shown => [shown.timestamp]
    | .error _ => []
  | .header lookup => headerTimes height ((lookup.header E a).map Prod.fst)
  | .block lookup => headerTimes height ((lookup.block E sealsOf a).map fun answer => answer.1.header)
  | .eventsForBlockIDs eventType blockIDs =>
    entryTimes height (getEventsForBlockIDs E (Reader.of B.toStore) eventType blockIDs b.storage).1
  | .eventsForHeightRange eventType startHeight endHeight bound =>
    entryTimes height (getEventsForHeightRange E (Reader.of B.toStore) eventType startHeight endHeight bound b.storage).1

/-- An answer shows the block at a height at an instant, or does not show it. -/
def View.Agrees (time : Int) (view : View) : Prop := ∀ shown ∈ view.times E sealsOf a B b height, shown = time

end

/-- Every way to look for a block finds the one that is stored at its height. -/
structure Coherent {σ : Type} (S : Store σ) (s : σ) : Prop where
  height : ∀ height block, S.blockByHeight height s = .ok block → block.height = height
  byID : ∀ id block, S.blockByID id s = .ok block → S.blockByHeight block.height s = .ok block
  latest : ∀ block, S.latestBlock s = .ok block → S.blockByHeight block.height s = .ok block
  ready : ∀ height block, S.blockByHeight height s = .ok block → ∃ last, S.latestBlock s = .ok last ∧ height ≤ last.height

section
variable {E : Encoding} {sealsOf : Text.Bytes → List BlockSeal}

/-- The time of a header is the instant of its block. -/
theorem sealedHeader_times {height : Nat} {block : Except GoError Block} {time : Int}
    (shown : time ∈ headerTimes height ((sealedHeader E block).map Prod.fst)) :
    ∃ found, block = .ok found ∧ found.height = height ∧ time = instant found.timestamp := by
  cases block with
  | error e => cases shown
  | ok found =>
    have shown : time ∈ if found.height = height then [instant found.timestamp] else [] := shown
    split at shown
    · next same => exact ⟨found,rfl,same,List.mem_singleton.mp shown⟩
    · cases shown

theorem sealedBlock_header (block : Except GoError Block) :
    (sealedBlock E sealsOf block).map (fun answer => answer.1.header) = (sealedHeader E block).map Prod.fst := by
  cases block <;> rfl

theorem internal_ok {α : Type} {result : Except GoError α} {value : α} (done : internal result = .ok value) :
    result = .ok value := by
  cases result with
  | error e => cases done
  | ok other => exact done

/-- Headers and blocks show the instant of the block that the emulator finds. -/
theorem lookup_times {a : Access.Emulator} {lookup : Lookup} {height : Nat} {time : Int}
    (shown : time ∈ headerTimes height ((lookup.header E a).map Prod.fst) ∨
      time ∈ headerTimes height ((lookup.block E sealsOf a).map fun answer => answer.1.header)) :
    ∃ found, lookup.find a = .ok found ∧ found.height = height ∧ time = instant found.timestamp := by
  have answered {block : Except GoError Block} (shown : time ∈ headerTimes height ((sealedHeader E (internal block)).map Prod.fst)) :
      ∃ found, block = .ok found ∧ found.height = height ∧ time = instant found.timestamp := by
    obtain ⟨found,done,rest⟩ := sealedHeader_times shown
    exact ⟨found,internal_ok done,rest⟩
  cases lookup with
  | latest =>
    rcases shown with header | block
    · exact answered header
    · exact answered (sealedBlock_header (internal a.getLatestBlock) ▸ block)
  | byHeight height =>
    rcases shown with header | block
    · exact answered header
    · exact answered (sealedBlock_header (internal (a.getBlockByHeight height)) ▸ block)
  | byID id =>
    rcases shown with header | block
    · exact sealedHeader_times header
    · exact answered (sealedBlock_header (internal (a.getBlockByID id)) ▸ block)

/-! ### The entries of event queries -/

section
variable {σ : Type} {S : Store σ} {eventType : String} {s : σ}

theorem keeps_noting {α : Type} (P : σ → Prop) (failed : StoreError → FailedRead) (f : σ → Except StoreError α) :
    Keeps P (noting failed (attempt f)) := by
  intro s holds
  rcases read : f s with e | value
  · rw [noting_error (attempt_run f s ▸ congrArg (·,s) read)]
    exact holds
  · rw [noting_ok.mpr (attempt_eq_ok.mpr ⟨read,rfl⟩)]
    exact holds

theorem eventsForBlockID_same (blockID : Identifier) : (eventsForBlockID E (Reader.of S) eventType blockID s).2 = s := by
  have keeps : Keeps (fun t => t = s) (eventsForBlockID E (Reader.of S) eventType blockID) :=
    keeps_bind (keeps_noting _ _ _) fun _ => keeps_bind (keeps_noting _ _ _) fun _ => keeps_pure _ _
  exact keeps s rfl

variable (E S eventType s) in
theorem eventsForHeight_same (height : Nat) : (eventsForHeight E (Reader.of S) eventType height s).2 = s := by
  have keeps : Keeps (fun t => t = s) (eventsForHeight E (Reader.of S) eventType height) :=
    keeps_bind (keeps_noting _ _ _) fun _ => keeps_bind (keeps_noting _ _ _) fun _ => keeps_pure _ _
  exact keeps s rfl

/-- An entry is for a block that is read. -/
def EntryRead (E : Encoding) (S : Store σ) (s : σ) (entry : BlockEvents) : Prop :=
  ∃ block events, entry = entryOf E block events ∧
    ((∃ id, S.blockByID id s = .ok block) ∨ ∃ height, S.blockByHeight height s = .ok block)

theorem getEventsForBlockIDs_read {blockIDs : List Identifier} {entry : BlockEvents}
    (returned : entry ∈ (getEventsForBlockIDs E (Reader.of S) eventType blockIDs s).1.result) : EntryRead E S s entry := by
  obtain ⟨blockID,_,done⟩ := forEach_mem eventsForBlockID_same returned
  obtain ⟨block,t,events,read,_,same⟩ := eventsForBlockID_ok.mp (Prod.ext done rfl)
  exact ⟨block,events,same,.inl ⟨blockID,congrArg Prod.fst read⟩⟩

theorem getEventsForHeightRange_read {startHeight endHeight : UInt64} {bound : Nat} {entry : BlockEvents}
    (returned : entry ∈ (getEventsForHeightRange E (Reader.of S) eventType startHeight endHeight bound s).1.result) :
    EntryRead E S s entry := by
  have keeps (x : UInt64 × σ) (same : x.2 = s) : (heightTurn E (Reader.of S) eventType x).2.2 = s := by
    have after := eventsForHeight_same E S eventType x.2 x.1.toNat
    unfold heightTurn
    rcases run : eventsForHeight E (Reader.of S) eventType x.1.toNat x.2 with ⟨e | entry,t⟩ <;> rw [run] at after <;>
      exact after.trans same
  obtain ⟨⟨height,t⟩,rfl,done⟩ := loop_mem (fun x : UInt64 × σ => x.2 = s) keeps rfl returned
  rcases eventsForHeight_cases E (Reader.of S) eventType height.toNat t with
    ⟨e,u,run⟩ | ⟨block,u,read,⟨e,v,run⟩ | ⟨events,v,_,run⟩⟩
  · rw [heightTurn_error run] at done
    cases done
  · rw [heightTurn_error run] at done
    cases done
  · rw [heightTurn_ok run] at done
    cases done
    exact ⟨block,events,rfl,.inr ⟨height.toNat,congrArg Prod.fst read⟩⟩

end
/-! ### Views over a store -/

section
variable {M : Machine} {R : FlowEmulator.Reader} {config : Config} {σ : Type} {B : Backend σ} {b : Blockchain σ}

theorem mapError_ok {ε ε' α : Type} {f : ε → ε'} {answer : Except ε α} {value : α} (found : answer.mapError f = .ok value) :
    answer = .ok value := by
  cases answer with
  | error e => cases found
  | ok other =>
    cases found
    rfl

variable (coherent : Coherent B.toStore b.storage) {height : Nat} {block : Block}
  (stored : B.blockByHeight height b.storage = .ok block)
include coherent

theorem find_stored {lookup : Lookup} {found : Block} (done : lookup.find (access E M R config B b) = .ok found) :
    B.blockByHeight found.height b.storage = .ok found := by
  cases lookup with
  | latest => exact coherent.latest found (mapError_ok (mapError_ok done))
  | byHeight height =>
    have read := orMissing_ok (mapError_ok done)
    rwa [coherent.height height found read]
  | byID id => exact coherent.byID id found (orMissing_ok (mapError_ok done))

theorem entry_stored {entry : BlockEvents} (read : EntryRead E B.toStore b.storage entry) :
    ∃ found, B.blockByHeight entry.blockHeight b.storage = .ok found ∧
      timeUnixMilli entry.blockTimestamp = instant found.timestamp := by
  obtain ⟨found,events,rfl,read⟩ := read
  refine ⟨found,?_,by rw [instant,entryOf]⟩
  show B.blockByHeight found.height b.storage = _
  rcases read with ⟨id,read⟩ | ⟨height,read⟩
  · exact coherent.byID id found read
  · rwa [coherent.height height found read]

include stored

/-- Every answer but the digest shows the instant of the block. -/
theorem view_agrees {view : View} (other : view ≠ .digest) :
    view.Agrees E sealsOf (access E M R config B b) B b height (instant block.timestamp) := by
  intro time shown
  have looked {found : Block} (place : B.blockByHeight found.height b.storage = .ok found) (same : found.height = height) :
      found = block := by
    rw [same,stored] at place
    exact (Except.ok.inj place).symm
  have entries {reply : Reply} (read : ∀ entry ∈ reply.result, EntryRead E B.toStore b.storage entry)
      (shown : time ∈ entryTimes height reply) : time = instant block.timestamp := by
    obtain ⟨entry,member,rfl⟩ := List.mem_map.mp shown
    obtain ⟨returned,same⟩ := List.mem_filter.mp member
    obtain ⟨found,place,shows⟩ := entry_stored coherent (read entry returned)
    rw [of_decide_eq_true same,stored] at place
    rw [shows,Except.ok.inj place]
  have lookups {lookup : Lookup} (shown : time ∈ headerTimes height ((lookup.header E (access E M R config B b)).map Prod.fst) ∨
      time ∈ headerTimes height ((lookup.block E sealsOf (access E M R config B b)).map fun answer => answer.1.header)) :
      time = instant block.timestamp := by
    obtain ⟨found,done,same,shows⟩ := lookup_times shown
    rw [shows,looked (find_stored coherent done) same]
  cases view with
  | digest => exact absurd rfl other
  | header lookup => exact lookups (.inl shown)
  | block lookup => exact lookups (.inr shown)
  | eventsForBlockIDs eventType blockIDs => exact entries (fun _ => getEventsForBlockIDs_read) shown
  | eventsForHeightRange eventType startHeight endHeight bound => exact entries (fun _ => getEventsForHeightRange_read) shown

/-- The digest shows the milliseconds of the block as seconds. -/
theorem digest_times (a : Access.Emulator) :
    View.digest.times E sealsOf a B b height = [timeUnix (unixMilli block.timestamp)] := by
  obtain ⟨last,latest,low⟩ := coherent.ready height block stored
  have valid : validateHeight B height b = .ok () := by
    unfold validateHeight
    rw [latest]
    exact if_neg (Nat.not_lt.mpr low)
  have found : b.getBlockByHeight B height = .ok block := by
    unfold Blockchain.getBlockByHeight
    rw [stored]
    rfl
  simp only [View.times,getBlockDigestResponse,getBlockHeader,valid,found,Except.map]

end
/-! ### Local stores -/

section
variable {τ : Type} {M : Machine} {config : Config} {store : Local τ}

theorem bind_found {α β : Type} {first : Except StoreError α} {next : α → Except StoreError β} {value : β}
    (found : first.bind next = .ok value) : ∃ middle, next middle = .ok value := by
  cases first with
  | error e => cases found
  | ok middle => exact ⟨middle,found⟩

/-- The local stores look for a height first, and then for the block at the height. -/
theorem local_latestBlock {s : store.Storage} {block : Block} (found : (store.backend E).latestBlock s = .ok block) :
    ∃ height, (store.backend E).blockByHeight height s = .ok block := by
  cases store with
  | sqlite choices => exact bind_found found
  | redis choice => exact bind_found found
  | memory tree => exact ⟨_,found⟩

theorem local_blockByID {s : store.Storage} {id : Identifier} {block : Block}
    (found : (store.backend E).blockByID id s = .ok block) : ∃ height, (store.backend E).blockByHeight height s = .ok block := by
  cases store with
  | sqlite choices => exact bind_found found
  | redis choice => exact bind_found found
  | memory tree => exact bind_found found

/-- In every emulator that is reached over a local store all ways to look for a block agree. -/
theorem reached_coherent {b : Blockchain store.Storage} (reached : Local.Reached E M config store b) :
    Coherent (store.backend E).toStore b.storage := by
  obtain ⟨latest,chain⟩ := Local.reached_hasChain reached
  have low (height : Nat) (block : Block) (found : (store.backend E).blockByHeight height b.storage = .ok block) :
      height ≤ latest ∧ block.height = height := by
    by_cases inside : height ≤ latest
    · obtain ⟨other,read,same⟩ := chain.found height inside
      rw [found] at read
      cases read
      exact ⟨inside,same⟩
    · have missing := chain.above height (by omega)
      rw [found] at missing
      cases missing
  have own (block : Block) (found : ∃ height, (store.backend E).blockByHeight height b.storage = .ok block) :
      (store.backend E).blockByHeight block.height b.storage = .ok block := by
    obtain ⟨height,found⟩ := found
    rwa [(low height block found).2]
  refine ⟨fun height block found => (low height block found).2,fun id block found => own block (local_blockByID found),
    fun block found => own block (local_latestBlock found),fun height block found => ?_⟩
  obtain ⟨last,read,same⟩ := chain.latestBlock
  exact ⟨last,read,by rw [same]; exact (low height block found).1⟩

/-- A commit saves a block with the time of the pending block, up to the millisecond, which is not 0. -/
theorem commit_time {σ : Type} {B : Backend σ} {b after : Blockchain σ} {tick : Tick} {block : Block}
    (done : commitBlock E M config B tick b = (.ok block,after)) (fits : b.pendingBlock.timestamp.milliseconds < 2^63) :
    (∃ c, c.block = block ∧ B.saveBlock E (static E M config) c b.storage = (.ok (),after.storage)) ∧
      instant block.timestamp = b.pendingBlock.timestamp.milliseconds * 1000000 ∧ block.timestamp % 2^64 ≠ 0 := by
  have commits : Commits E M config B tick b (commitBlock E M config B tick b) := commitBlock_commits tick b
  rw [done] at commits
  cases commits with
  | committed ready c made sealed storage run =>
    have time : c.block.timestamp = b.pendingBlock.timestamp.milliseconds := by
      rw [sealed.block]
      rfl
    have proper := b.pendingBlock.timestamp.proper
    unfold Time.milliseconds at fits time ⊢
    have stored : c.block.timestamp = stamp b.pendingBlock.timestamp.nanoseconds := by
      rw [time]
      unfold stamp
      omega
    refine ⟨⟨c,rfl,run⟩,?_,by omega⟩
    rw [stored,instant_stamp (by omega) (by omega)]
    omega

/-- In every emulator that is reached over a local store, all answers but the
    digest show a stored block at the instant of its time. The digest does exactly
    if the time is 0. The stored time is the time of the pending block that was
    committed, up to the millisecond, and is never 0. -/
theorem block_times_agree_iff (R : FlowEmulator.Reader) (sealsOf : Text.Bytes → List BlockSeal) {b : Blockchain store.Storage}
    (reached : Local.Reached E M config store b) :
    (∀ height block, (store.backend E).blockByHeight height b.storage = .ok block →
      (∀ view : View, view ≠ .digest → view.Agrees E sealsOf (access E M R config (store.backend E) b) (store.backend E) b height
        (instant block.timestamp)) ∧
      ((∀ view : View, view.Agrees E sealsOf (access E M R config (store.backend E) b) (store.backend E) b height
        (instant block.timestamp)) ↔ block.timestamp % 2^64 = 0)) ∧
    ∀ tick block after, commitBlock E M config (store.backend E) tick b = (.ok block,after) →
      b.pendingBlock.timestamp.milliseconds < 2^63 →
      (∃ c, c.block = block ∧
        (store.backend E).saveBlock E (static E M config) c b.storage = (.ok (),after.storage)) ∧
      instant block.timestamp = b.pendingBlock.timestamp.milliseconds * 1000000 ∧ block.timestamp % 2^64 ≠ 0 := by
  have coherent := reached_coherent reached
  refine ⟨fun height block stored => ⟨fun view other => view_agrees coherent stored other,?_⟩,fun tick block after done fits => ?_⟩
  · have digest : View.digest.times E sealsOf (access E M R config (store.backend E) b) (store.backend E) b height =
        [timeUnix (unixMilli block.timestamp)] := digest_times coherent stored _
    rw [← timeUnix_eq_instant]
    constructor
    · intro all
      exact all .digest _ (by rw [digest]; exact List.mem_singleton.mpr rfl)
    · intro same view
      by_cases isDigest : view = .digest
      · intro time shown
        rw [isDigest,digest,List.mem_singleton] at shown
        rw [shown,same]
      · exact view_agrees coherent stored isDigest
  · exact commit_time done fits

end
end

/-! ### A first block -/

section
open FlowEmulator.Samples

/-- The machine with a time for the first block. -/
def timed (time : Nat) : Machine := { machine with
  genesisTime := time }

/-- A new emulator over the store in memory has the first block. -/
theorem timed_started (time : Nat) : ∃ b : Blockchain (Memstore.Store (List WriteSet)),
    Local.Reached heightEncoding (timed time) config (.memory Memstore.SnapshotTree.ofLists) b ∧
    Memstore.blockByHeight 0 b.storage = .ok (genesis (timed time) .emulator) := by
  have started : ∃ b, newBlockchain heightEncoding (timed time) config
      (Memstore.backend heightEncoding Memstore.SnapshotTree.ofLists) tick false Memstore.new = .ok b := ⟨_,rfl⟩
  obtain ⟨b,started⟩ := started
  refine ⟨b,Run.reachable_initial ⟨tick,false,Memstore.new,rfl,started⟩,?_⟩
  cases started
  rfl

/-- The first block has the time 1545258750000, which is in 2018. Its digest shows a time that is a thousand times as late. -/
theorem digest_in_seconds : ∃ b : Blockchain (Memstore.Store (List WriteSet)),
    Local.Reached heightEncoding (timed 1545258750000) config (.memory Memstore.SnapshotTree.ofLists) b ∧
    Memstore.blockByHeight 0 b.storage = .ok (genesis (timed 1545258750000) .emulator) ∧
    instant (genesis (timed 1545258750000) .emulator).timestamp = 1545258750000000000 ∧
    View.digest.times heightEncoding (fun _ => [])
      (access heightEncoding (timed 1545258750000) reader config
        (Memstore.backend heightEncoding Memstore.SnapshotTree.ofLists) b)
      (Memstore.backend heightEncoding Memstore.SnapshotTree.ofLists) b 0 = [1545258750000000000000] := by
  obtain ⟨b,reached,stored⟩ := timed_started 1545258750000
  have shown : timeUnix (unixMilli (genesis (timed 1545258750000) .emulator).timestamp) = 1545258750000000000000 := by
    decide +kernel
  refine ⟨b,reached,stored,by decide +kernel,?_⟩
  rw [← shown]
  exact digest_times (reached_coherent reached) stored _

theorem block_times_agree_iff_first : ∃ b : Blockchain (Memstore.Store (List WriteSet)),
    Local.Reached heightEncoding (timed 1545258750000) config (.memory Memstore.SnapshotTree.ofLists) b ∧
    Memstore.blockByHeight 0 b.storage = .ok (genesis (timed 1545258750000) .emulator) ∧
    ¬ ∀ view : View, view.Agrees heightEncoding (fun _ => [])
      (access heightEncoding (timed 1545258750000) reader config
        (Memstore.backend heightEncoding Memstore.SnapshotTree.ofLists) b)
      (Memstore.backend heightEncoding Memstore.SnapshotTree.ofLists) b 0 (instant 1545258750000) := by
  obtain ⟨b,reached,stored⟩ := timed_started 1545258750000
  refine ⟨b,reached,stored,fun all => ?_⟩
  have zero := ((block_times_agree_iff reader (fun _ => []) reached).1 0 _ stored).2.mp all
  exact absurd zero (by decide)

end
end FlowEmulator.BlockTimes
