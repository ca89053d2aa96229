import FlowEmulator.Lookups

/-!
Streams of transaction statuses. A stream asks for one height after the other and
is answered with the statuses that are new since the last answer. Whatever the
emulator reports without an error is taken as sealed, and it reports transactions
that are pending or unknown without one. So an answer is true exactly if a block
has the transaction by then, or if the height is not there yet.
-/
namespace FlowEmulator.StatusStream
open FlowEmulator.Fallible FlowEmulator.Blockchain FlowEmulator.Chronicle FlowEmulator.Run
open FlowEmulator.Sqlite (Choices)

/-- Why a stream is given no statuses. -/
inductive StreamError where
  | latestBlock (e : StoreError)
  | blockNotReady (height : Nat)
  | endOfData (last : TransactionStatus)
  | events (message : String)
deriving DecidableEq

/-- What a stream is for. -/
structure Subscription where
  txID : Identifier
  startHeight : Nat
  version : EventEncodingVersion

/-- The statuses in order, with the numbers they stand for. -/
def statuses : List TransactionStatus := [.unknown,.pending,.finalized,.executed,.sealed,.expired]

def number (status : TransactionStatus) : Nat := statuses.idxOf status

/-- The blocks from the start on, as the difference of machine words. -/
def age (startHeight height : Nat) : Nat := (height+(2^64-startHeight)) % 2^64

/-- The block is known from the status finalized on, and what the execution did from executed on. -/
def statusUpdate (txResult : AccessTransactionResult) (status : TransactionStatus) : AccessTransactionResult :=
  let placed : AccessTransactionResult :=
    if number .finalized ≤ number status then
      { status, transactionID := txResult.transactionID, blockID := txResult.blockID, blockHeight := txResult.blockHeight,
        collectionID := txResult.collectionID }
    else { status, transactionID := txResult.transactionID }
  if number .executed ≤ number status then { placed with events := txResult.events, errorMessage := txResult.errorMessage }
  else placed

theorem statusUpdate_status (txResult : AccessTransactionResult) (status : TransactionStatus) :
    (statusUpdate txResult status).status = status := by
  cases status <;> rfl

/-- An update for every status after the previous one, up to the current one. -/
def generateTransactionStatusUpdates (txResult : AccessTransactionResult) (prevStatus currentStatus : TransactionStatus) :
    List AccessTransactionResult :=
  if prevStatus = currentStatus then []
  else (statuses.filter fun status => number prevStatus < number status && number status ≤ number currentStatus).map
    (statusUpdate txResult)

section
variable {σ : Type} (toJson : Event → Except String Event) (B : Backend σ) (sub : Subscription)

def validateHeight (height : Nat) (b : Blockchain σ) : Except StreamError Unit :=
  match B.latestBlock b.storage with
  | .error e => .error (.latestBlock e)
  | .ok latest => if latest.height < height then .error (.blockNotReady height) else .ok ()

/-- The answer for a height, with the last status that was sent as the state. -/
def getTransactionStatusResponse (height : Nat) (b : Blockchain σ) :
    Fallible StreamError TransactionStatus (List AccessTransactionResult) := fun lastStatus =>
  match validateHeight B height b with
  | .error e => (.error e,lastStatus)
  | .ok _ =>
    if lastStatus = .sealed ∨ lastStatus = .expired then (.error (.endOfData lastStatus),lastStatus)
    else match getTransactionResult B sub.txID b with
      | .error _ =>
        if 600 ≤ age sub.startHeight height then (.ok [{ status := .expired, transactionID := sub.txID }],.expired)
        else (.ok [],lastStatus)
      | .ok txResult => match convertEvents toJson sub.version txResult.events with
        | .error message => (.error (.events message),lastStatus)
        | .ok events =>
          if .sealed ≠ lastStatus then
            (.ok (generateTransactionStatusUpdates { txResult with events := events } lastStatus .sealed),.sealed)
          else (.ok [],lastStatus)

/-- The statuses that are sent. -/
def emitted (answer : Except StreamError (List AccessTransactionResult)) : List AccessTransactionResult :=
  match answer with
  | .ok updates => updates
  | .error _ => []

/-- The emulator reports the transaction with the status. -/
def Reports (b : Blockchain σ) (id : Identifier) (status : TransactionStatus) : Prop :=
  ∃ result, getTransactionResult B id b = .ok result ∧ result.status = status

/-- The statuses that are sent for a height are true of the emulator: a status
    from finalized on is sent for a sealed transaction only, pending for one that is
    pending or sealed. For any other transaction nothing is sent before it expires,
    and expired when it has and this was not sent already. -/
structure Truthful (b : Blockchain σ) (lastStatus : TransactionStatus) (height : Nat) : Prop where
  included : ∀ update ∈ emitted (getTransactionStatusResponse toJson B sub height b lastStatus).1,
    update.status ∈ [.finalized,.executed,.sealed] → Reports B b sub.txID .sealed
  pending : ∀ update ∈ emitted (getTransactionStatusResponse toJson B sub height b lastStatus).1,
    update.status = .pending → sub.txID ∈ b.pendingBlock.transactionIDs ∨ Reports B b sub.txID .sealed
  early : sub.txID ∉ b.pendingBlock.transactionIDs → ¬ Reports B b sub.txID .sealed → height < sub.startHeight+600 →
    emitted (getTransactionStatusResponse toJson B sub height b lastStatus).1 = []
  late : sub.txID ∉ b.pendingBlock.transactionIDs → ¬ Reports B b sub.txID .sealed → sub.startHeight+600 ≤ height →
    validateHeight B height b = .ok () → lastStatus ≠ .expired →
    (emitted (getTransactionStatusResponse toJson B sub height b lastStatus).1).map AccessTransactionResult.status = [.expired]

end

/-! ### The answer for a height -/

section
variable {σ : Type} {toJson : Event → Except String Event} {B : Backend σ} {sub : Subscription} {b : Blockchain σ}
  {lastStatus : TransactionStatus} {height : Nat}

theorem response_unready {e : StreamError} (unready : validateHeight B height b = .error e) :
    getTransactionStatusResponse toJson B sub height b lastStatus = (.error e,lastStatus) := by
  unfold getTransactionStatusResponse
  rw [unready]

theorem response_ended (ready : validateHeight B height b = .ok ()) (final : lastStatus = .sealed ∨ lastStatus = .expired) :
    getTransactionStatusResponse toJson B sub height b lastStatus = (.error (.endOfData lastStatus),lastStatus) := by
  unfold getTransactionStatusResponse
  rw [ready]
  exact if_pos final

/-- The first answer for a transaction the emulator reports. -/
theorem response_reported (ready : validateHeight B height b = .ok ()) {txResult : AccessTransactionResult}
    (reported : getTransactionResult B sub.txID b = .ok txResult) :
    getTransactionStatusResponse toJson B sub height b .unknown =
      match convertEvents toJson sub.version txResult.events with
      | .error message => (.error (.events message),.unknown)
      | .ok events => (.ok ([.pending,.finalized,.executed,.sealed].map (statusUpdate { txResult with events := events })),.sealed)
    := by
  unfold getTransactionStatusResponse
  rw [ready]
  show (match getTransactionResult B sub.txID b with
    | .error _ => _
    | .ok txResult => _) = _
  rw [reported]
  rfl

theorem convertEvents_nil (toJson : Event → Except String Event) (version : EventEncodingVersion) :
    convertEvents toJson version [] = .ok [] := by
  cases version <;> rfl

/-- The statuses of a transaction that is not sealed are not true. -/
theorem not_truthful (ready : validateHeight B height b = .ok ()) {txResult : AccessTransactionResult}
    (reported : getTransactionResult B sub.txID b = .ok txResult) (empty : txResult.events = [])
    (unsealed : txResult.status ≠ .sealed) : ¬ Truthful toJson B sub b .unknown height := by
  intro truthful
  have answer : getTransactionStatusResponse toJson B sub height b .unknown = _ := response_reported ready reported
  rw [empty,convertEvents_nil] at answer
  have included := truthful.included
  rw [answer] at included
  obtain ⟨result,again,sealed⟩ := included _ (List.mem_map.mpr ⟨.sealed,by decide,rfl⟩) (by rw [statusUpdate_status]; decide)
  rw [reported] at again
  cases again
  exact unsealed sealed

/-- Nothing is sent for a height that is not there. -/
theorem truthful_unready {e : StreamError} (unready : validateHeight B height b = .error e) :
    Truthful toJson B sub b lastStatus height := by
  have answer : getTransactionStatusResponse toJson B sub height b lastStatus = _ := response_unready unready
  refine ⟨?_,?_,?_,fun _ _ _ ready => ?_⟩
  · rw [answer]
    exact nofun
  · rw [answer]
    exact nofun
  · rw [answer]
    exact fun _ _ _ => rfl
  · rw [unready] at ready
    cases ready

/-- Whatever is sent for a sealed transaction is true. -/
theorem truthful_sealed (sealed : Reports B b sub.txID .sealed) :
    Truthful toJson B sub b lastStatus height :=
  ⟨fun _ _ _ => sealed,fun _ _ _ => .inr sealed,fun _ not => absurd sealed not,fun _ not => absurd sealed not⟩

end

/-! ### Streams beside a session -/

/-- A session with a stream that has sent a last status. -/
structure Stream where
  session : Session
  lastStatus : TransactionStatus

/-- What happens next: a request of anyone, or the stream is answered for a height. -/
inductive Move where
  | request (r : Request)
  | response (height : Nat)

section
variable (E : Encoding) (M : Machine) (config : Config) (choices : Choices) (toJson : Event → Except String Event)
  (sub : Subscription)

def move : Move → Stream → Stream
  | .request r, x => ⟨step E M config choices (.request r) x.session,x.lastStatus⟩
  | .response height, x => ⟨x.session,
    (getTransactionStatusResponse toJson (Sqlite.backend E choices) sub height x.session.emulator x.lastStatus).2⟩

/-- A block has the transaction, or all blocks are below the height. -/
def Settled (x : Stream) (height : Nat) : Prop :=
  (∃ c ∈ x.session.seen, Carries E M config sub.txID c) ∨ ∀ c ∈ x.session.seen, c.block.height < height

def SettledMove (x : Stream) : Move → Prop
  | .request _ => True
  | .response height => Settled E M config sub x height

/-- The states that are reached from a start, before which nothing was sent. -/
def Reached (condition : Stream → Move → Prop) (x : Stream) : Prop :=
  Reachable (move E M config choices toJson sub) condition
    (fun first => Started E M config choices first.session ∧ first.lastStatus = .unknown) x

/-- The session had requests only, and nothing was sent, or that a transaction is sealed which a block has. -/
structure Sound (x : Stream) : Prop where
  served : Served E M config choices x.session
  sent : x.lastStatus = .unknown ∨ x.lastStatus = .sealed ∧ ∃ c ∈ x.session.seen, Carries E M config sub.txID c

end

section
variable {E : Encoding} {M : Machine} {config : Config} {choices : Choices} {toJson : Event → Except String Event}
  {sub : Subscription} {x : Stream}

/-- Heights above all blocks are not there, and those up to the latest block are. -/
theorem accounted_validateHeight {cs seen : List BlockContents} {latest : Nat} {b : Blockchain Sqlite.Store}
    (accounted : Accounted E M config cs seen latest b) (height : Nat) :
    ((∀ c ∈ cs, c.block.height < height) →
      validateHeight (Sqlite.backend E choices) height b = .error (.blockNotReady height)) ∧
    (¬ (∀ c ∈ cs, c.block.height < height) → validateHeight (Sqlite.backend E choices) height b = .ok ()) := by
  have recorded := accounted.stored.recorded
  obtain ⟨last,here,latestHeight,found⟩ := Sqlite.recorded_latestBlock choices recorded (Nat.zero_le latest)
  have found : (Sqlite.backend E choices).latestBlock b.storage = .ok last.block := found
  unfold validateHeight
  rw [found]
  refine ⟨fun above => if_pos (above last here),fun low => if_neg (fun above => low (fun c there => ?_))⟩
  have range := (Sqlite.recorded_range recorded there).2
  omega

/-- What a transaction is reported as when no block has it. -/
theorem sound_unsealed (sound : Sound E M config choices sub x) (none : ∀ c ∈ x.session.seen, ¬ Carries E M config sub.txID c) :
    ∃ result, getTransactionResult (Sqlite.backend E choices) sub.txID x.session.emulator = .ok result ∧
      result.events = [] ∧ result.status ≠ .sealed := by
  obtain ⟨latest,accounted⟩ := served_accounted sound.served
  by_cases pending : sub.txID ∈ x.session.emulator.pendingBlock.transactionIDs
  · exact ⟨_,accounted_pending choices accounted pending,rfl,nofun⟩
  · exact ⟨_,accounted_uncarried choices accounted pending none,rfl,nofun⟩

theorem sound_sealed (sound : Sound E M config choices sub x) {c : BlockContents} (here : c ∈ x.session.seen)
    (carries : Carries E M config sub.txID c) : Reports (Sqlite.backend E choices) x.session.emulator sub.txID .sealed := by
  obtain ⟨latest,accounted⟩ := served_accounted sound.served
  obtain ⟨result,reported⟩ := accounted_carried choices accounted here carries
  exact ⟨_,reported,rfl⟩

/-- An answer that is asked for under the condition leaves the stream sound. -/
theorem sound_response (sound : Sound E M config choices sub x) {height : Nat} (settled : Settled E M config sub x height) :
    Sound E M config choices sub (move E M config choices toJson sub (.response height) x) := by
  refine ⟨sound.served,?_⟩
  obtain ⟨latest,accounted⟩ := served_accounted sound.served
  show (getTransactionStatusResponse toJson (Sqlite.backend E choices) sub height x.session.emulator x.lastStatus).2 = .unknown ∨
    (getTransactionStatusResponse toJson (Sqlite.backend E choices) sub height x.session.emulator x.lastStatus).2 = .sealed ∧ _
  by_cases above : ∀ c ∈ x.session.seen, c.block.height < height
  · rw [response_unready ((accounted_validateHeight accounted height).1 above)]
    exact sound.sent
  · have ready : validateHeight (Sqlite.backend E choices) height x.session.emulator = .ok () :=
      (accounted_validateHeight accounted height).2 above
    rcases sound.sent with new | ⟨sent,carried⟩
    · obtain ⟨c,here,carries⟩ := settled.resolve_right above
      obtain ⟨result,reported⟩ := accounted_carried choices accounted here carries
      rw [new,response_reported ready reported]
      cases convertEvents toJson sub.version (sealedResult sub.txID result).events with
      | error message => exact .inl rfl
      | ok events => exact .inr ⟨rfl,c,here,carries⟩
    · rw [response_ended ready (.inl sent)]
      exact .inr ⟨sent,carried⟩

theorem sound_move (x : Stream) (m : Move) (sound : Sound E M config choices sub x)
    (settled : SettledMove E M config sub x m) : Sound E M config choices sub (move E M config choices toJson sub m x) := by
  cases m with
  | request r =>
    refine ⟨served_request sound.served r,sound.sent.imp_right (fun ⟨sent,c,here,carries⟩ => ⟨sent,c,?_,carries⟩)⟩
    exact (seen_request r x.session).subset here
  | response height => exact sound_response sound settled

theorem reached_sound (reached : Reached E M config choices toJson sub (SettledMove E M config sub) x) :
    Sound E M config choices sub x := by
  refine reachable_keeps (fun first ⟨started,new⟩ => ?_) sound_move reached
  exact ⟨⟨first.session,[],started,rfl⟩,.inl new⟩

/-- After answers that were asked for under the condition, the next answer is
    true of the emulator if and only if it is asked for under the condition too. -/
theorem statuses_truthful_iff (reached : Reached E M config choices toJson sub (SettledMove E M config sub) x) (height : Nat) :
    Truthful toJson (Sqlite.backend E choices) sub x.session.emulator x.lastStatus height ↔ Settled E M config sub x height := by
  have sound := reached_sound reached
  obtain ⟨latest,accounted⟩ := served_accounted sound.served
  constructor
  · intro truthful
    by_contra unsettled
    obtain ⟨none,low⟩ := not_or.mp unsettled
    have none : ∀ c ∈ x.session.seen, ¬ Carries E M config sub.txID c := fun c here carries => none ⟨c,here,carries⟩
    have ready : validateHeight (Sqlite.backend E choices) height x.session.emulator = .ok () :=
      (accounted_validateHeight accounted height).2 low
    have new : x.lastStatus = .unknown :=
      sound.sent.resolve_right (fun ⟨_,c,here,carries⟩ => none c here carries)
    obtain ⟨result,reported,empty,unsealed⟩ := sound_unsealed sound none
    rw [new] at truthful
    exact not_truthful ready reported empty unsealed truthful
  · rintro (⟨c,here,carries⟩ | above)
    · exact truthful_sealed (sound_sealed sound here carries)
    · exact truthful_unready ((accounted_validateHeight accounted height).1 above)

end

section
open FlowEmulator.Samples

/-- A stream for the transaction of the sample session. -/
def sampleSubscription : Subscription := ⟨digest 10,0,.ccf⟩

/-- Requests alone lead from a start to the sample session before and after its commit. -/
theorem sample_streams {condition : Stream → Move → Prop} (requests : ∀ x r, condition x (.request r)) {start : Session}
    (started : Started numberEncoding scheduler scheduledConfig .earliest start) :
    Reached numberEncoding scheduler scheduledConfig .earliest .ok sampleSubscription condition ⟨sampleExecuted start,.unknown⟩ ∧
    Reached numberEncoding scheduler scheduledConfig .earliest .ok sampleSubscription condition ⟨sampleCommitted start,.unknown⟩ := by
  have begun : Reached numberEncoding scheduler scheduledConfig .earliest .ok sampleSubscription condition ⟨start,.unknown⟩ :=
    reachable_initial ⟨started,rfl⟩
  have added : Reached numberEncoding scheduler scheduledConfig .earliest .ok sampleSubscription condition
    ⟨sampleAdded start,.unknown⟩ := reachable_step (a := .request (.addTransaction (numbered 10))) begun (requests _ _)
  have executed : Reached numberEncoding scheduler scheduledConfig .earliest .ok sampleSubscription condition
    ⟨sampleExecuted start,.unknown⟩ := reachable_step (a := .request .executeNextTransaction) added (requests _ _)
  exact ⟨executed,reachable_step (a := .request (.commitBlock tick)) executed (requests _ _)⟩

/-- A transaction that was executed but is in no block is sent as sealed. -/
theorem uncommitted_sent_sealed : ∃ x,
    Reached numberEncoding scheduler scheduledConfig .earliest .ok sampleSubscription (fun _ _ => True) x ∧
    Reports (Sqlite.backend numberEncoding .earliest) x.session.emulator (digest 10) .pending ∧
    (emitted (getTransactionStatusResponse .ok (Sqlite.backend numberEncoding .earliest) sampleSubscription 0
      x.session.emulator x.lastStatus).1).map AccessTransactionResult.status = [.pending,.finalized,.executed,.sealed] ∧
    ¬ Truthful .ok (Sqlite.backend numberEncoding .earliest) sampleSubscription x.session.emulator x.lastStatus 0 := by
  obtain ⟨start,storage,started,_,_,_,_,executed,accounted⟩ := sample_executed
  have ready : validateHeight (Sqlite.backend numberEncoding .earliest) 0 (sampleExecuted start).emulator = .ok () :=
    (accounted_validateHeight accounted 0).2 (fun all => absurd (all _ List.mem_cons_self) (Nat.not_lt_zero _))
  have reported : getTransactionResult (Sqlite.backend numberEncoding .earliest) (digest 10) (sampleExecuted start).emulator =
      .ok { status := .pending } := by
    refine accounted_pending .earliest accounted ?_
    rw [executed]
    exact List.mem_cons_self
  have answer : getTransactionStatusResponse .ok (Sqlite.backend numberEncoding .earliest) sampleSubscription 0
    (sampleExecuted start).emulator .unknown = _ := response_reported ready reported
  refine ⟨⟨sampleExecuted start,.unknown⟩,(sample_streams (fun _ _ => trivial) started).1,⟨_,reported,rfl⟩,?_,
    not_truthful ready reported rfl nofun⟩
  exact congrArg (fun out => (emitted out.1).map AccessTransactionResult.status) answer

theorem statuses_truthful_iff_committed : ∃ x, Reached numberEncoding scheduler scheduledConfig .earliest .ok
      sampleSubscription (SettledMove numberEncoding scheduler scheduledConfig sampleSubscription) x ∧
    (Truthful .ok (Sqlite.backend numberEncoding .earliest) sampleSubscription x.session.emulator x.lastStatus 1 ↔
      Settled numberEncoding scheduler scheduledConfig sampleSubscription x 1) ∧
    Truthful .ok (Sqlite.backend numberEncoding .earliest) sampleSubscription x.session.emulator x.lastStatus 1 := by
  obtain ⟨start,c,sample⟩ := sample_committed
  have committed : Reached numberEncoding scheduler scheduledConfig .earliest .ok sampleSubscription
    (SettledMove numberEncoding scheduler scheduledConfig sampleSubscription) ⟨sampleCommitted start,.unknown⟩ :=
      (sample_streams (fun _ _ => trivial) sample.started).2
  have holds := statuses_truthful_iff committed 1
  have user : digest 10 ∈ c.userTransactions := by
    rw [sample_userTransactions sample]
    exact List.mem_cons_self
  exact ⟨_,committed,holds,holds.mpr (.inl ⟨c,sample_member sample,.inl user⟩)⟩

end
end FlowEmulator.StatusStream
