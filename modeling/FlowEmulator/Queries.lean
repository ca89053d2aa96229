import FlowEmulator.Blockchain

/-!
What clients read from the emulator: blocks, collections, transactions and their
results, by identifier, by block and by the number of a scheduled transaction.
The pending block is looked into first, then the store, then the system
transactions that are the same in every block.
-/
namespace FlowEmulator

inductive QueryError where
  | storage (e : StoreError)
  | blockNotFoundByID (id : Identifier)
  | collectionNotFound (id : Identifier)
  | transactionNotFound (id : Identifier)
  | block (blockID : Identifier) (e : QueryError)
  | collection (index : Nat) (id : Identifier) (e : QueryError)
  | transaction (index : Nat) (id : Identifier) (e : QueryError)
  | transactionResult (index : Nat) (id : Identifier) (e : QueryError)
  | systemTransactions (e : StoreError)
  | systemTransactionResult (index : Nat) (id : Identifier) (e : QueryError)
  | systemTransactionsForBlock (blockID : Identifier) (e : StoreError)
  | scheduledTransactionBlock (scheduledTxID : Nat) (e : StoreError)
deriving DecidableEq

inductive TransactionStatus where
  | unknown
  | pending
  | finalized
  | executed
  | sealed
  | expired
deriving DecidableEq

/-- The result of a transaction as clients see it. -/
structure AccessTransactionResult where
  status : TransactionStatus
  statusCode : Nat := 0
  errorMessage : String := ""
  events : List Event := []
  transactionID : Identifier := zeroID
  blockID : Identifier := zeroID
  blockHeight : Nat := 0
  collectionID : Identifier := zeroID
deriving DecidableEq

/-- The result of a transaction that was committed. -/
def sealedResult (txID : Identifier) (stored : StorableTransactionResult) : AccessTransactionResult where
  status := .sealed
  statusCode := if 0 < stored.errorCode then 1 else 0
  errorMessage := stored.errorMessage
  events := stored.events
  transactionID := txID
  blockID := stored.blockID
  blockHeight := stored.blockHeight
  collectionID := stored.collectionID

/-- Take something for each entry of a list, given its place; stop at the first error. -/
def traverse {ε α β : Type} (f : Nat → α → Except ε β) : Nat → List α → Except ε (List β)
  | _, [] => .ok []
  | i, a :: rest => do
    let first ← f i a
    let later ← traverse f (i+1) rest
    pure (first :: later)

theorem traverse_ok {ε α β : Type} {f : Nat → α → Except ε β} {g : α → β} {list : List α}
    (each : ∀ i, ∀ a ∈ list, f i a = .ok (g a)) (start : Nat) : traverse f start list = .ok (list.map g) := by
  induction list generalizing start with
  | nil => rfl
  | cons a rest ih =>
    rw [traverse,each start a List.mem_cons_self,ih (fun i b later => each i b (List.mem_cons_of_mem a later))]
    rfl

/-- An error is that of an entry. -/
theorem traverse_error {ε α β : Type} {f : Nat → α → Except ε β} {start : Nat} {list : List α} {e : ε}
    (failed : traverse f start list = .error e) : ∃ i, ∃ a ∈ list, f i a = .error e := by
  induction list generalizing start with
  | nil => cases failed
  | cons a rest ih =>
    rw [traverse] at failed
    rcases first : f start a with other | b
    · rw [first] at failed
      cases failed
      exact ⟨start,a,List.mem_cons_self,first⟩
    · rw [first] at failed
      rcases later : traverse f (start+1) rest with other | bs
      · rw [later] at failed
        cases failed
        obtain ⟨i,c,there,found⟩ := ih later
        exact ⟨i,c,List.mem_cons_of_mem a there,found⟩
      · rw [later] at failed
        cases failed

/-- What is taken for each entry is related to it. -/
theorem traverse_related {ε α β : Type} {f : Nat → α → Except ε β} {R : α → β → Prop} {list : List α}
    (each : ∀ i, ∀ a ∈ list, ∃ b, f i a = .ok b ∧ R a b) (start : Nat) :
    ∃ bs, traverse f start list = .ok bs ∧ List.Forall₂ R list bs := by
  induction list generalizing start with
  | nil => exact ⟨[],rfl,.nil⟩
  | cons a rest ih =>
    obtain ⟨b,first,related⟩ := each start a List.mem_cons_self
    obtain ⟨bs,later,matched⟩ := ih (fun i c member => each i c (List.mem_cons_of_mem a member)) (start+1)
    refine ⟨b :: bs,?_,.cons related matched⟩
    rw [traverse,first,later]
    rfl

/-- Lists that are related entry by entry have the same values where related entries do. -/
theorem related_map {α β γ : Type} {R : α → β → Prop} {as : List α} {bs : List β} (related : List.Forall₂ R as bs)
    {f : α → γ} {g : β → γ} (same : ∀ a b, R a b → f a = g b) : as.map f = bs.map g := by
  induction related with
  | nil => rfl
  | cons first _ ih => rw [List.map_cons,List.map_cons,same _ _ first,ih]

theorem related_getElem {α β : Type} {R : α → β → Prop} {as : List α} {bs : List β} (related : List.Forall₂ R as bs)
    {i : Nat} {a : α} (here : as[i]? = some a) : ∃ b, bs[i]? = some b ∧ R a b := by
  obtain ⟨inside,rfl⟩ := List.getElem?_eq_some_iff.mp here
  have there : i < bs.length := by rw [← related.length_eq]; exact inside
  exact ⟨bs[i],List.getElem?_eq_getElem there,related.get inside there⟩

theorem traverse_map {ε α β γ : Type} (f : Nat → β → Except ε γ) (h : α → β) (start : Nat) (list : List α) :
    traverse f start (list.map h) = traverse (fun i a => f i (h a)) start list := by
  induction list generalizing start with
  | nil => rfl
  | cons a rest ih => rw [List.map_cons,traverse,traverse,ih]

namespace Blockchain
section
variable {σ : Type} (E : Encoding) (M : Machine) (config : Config) (B : Backend σ)

/-- An answer of the store, with another error where it has nothing. -/
def orMissing {α : Type} (missing : QueryError) : Except StoreError α → Except QueryError α
  | .ok a => .ok a
  | .error .notFound => .error missing
  | .error e => .error (.storage e)

theorem orMissing_ok {α : Type} {missing : QueryError} {answer : Except StoreError α} {value : α}
    (found : orMissing missing answer = .ok value) : answer = .ok value := by
  rcases answer with e | other
  · cases e <;> cases found
  · cases found
    rfl

def getBlockByID (id : Identifier) (b : Blockchain σ) : Except QueryError Block :=
  orMissing (.blockNotFoundByID id) (B.blockByID id b.storage)

def getBlockByHeight (height : Nat) (b : Blockchain σ) : Except QueryError Block :=
  orMissing (.storage (.blockNotFoundByHeight height)) (B.blockByHeight height b.storage)

def getCollectionByID (colID : Identifier) (b : Blockchain σ) : Except QueryError LightCollection :=
  orMissing (.collectionNotFound colID) (B.collectionByID colID b.storage)

def getFullCollectionByID (colID : Identifier) (b : Blockchain σ) : Except QueryError (List TransactionBody) :=
  orMissing (.collectionNotFound colID) (B.fullCollectionByID colID b.storage)

def getEventsByHeight (height : Nat) (eventType : String) (b : Blockchain σ) : Except StoreError (List Event) :=
  B.eventsByHeight height eventType b.storage

/-- The system transactions that are the same in every block, by their identifiers. -/
def systemTransactions (txID : Identifier) : Option TransactionBody :=
  let process := match M.processCallbacksTransaction config.chainID with
    | .ok tx => if E.transactionID tx = txID then some tx else none
    | .error _ => none
  match M.systemChunkTransaction config.getChainID with
  | .ok tx => if E.transactionID tx = txID then some tx else process
  | .error _ => process

def getTransaction (txID : Identifier) (b : Blockchain σ) : Except QueryError TransactionBody :=
  match b.pendingBlock.transactions.lookup txID with
  | some tx => .ok tx
  | none => match B.transactionByID txID b.storage with
    | .ok tx => .ok tx
    | .error .notFound => match systemTransactions E M config txID with
      | some tx => .ok tx
      | none => .error (.transactionNotFound txID)
    | .error e => .error (.storage e)

/-- The result of a system transaction of a block. -/
def systemResult (blockID txID : Identifier) (b : Blockchain σ) : Except QueryError AccessTransactionResult :=
  match B.systemTransactionResultByID blockID txID b.storage with
  | .ok stored => .ok (sealedResult txID stored)
  | .error .notFound => .ok { status := .unknown }
  | .error e => .error (.storage e)

def getTransactionResult (txID : Identifier) (b : Blockchain σ) : Except QueryError AccessTransactionResult :=
  if b.pendingBlock.containsTransaction txID then .ok { status := .pending }
  else match B.transactionResultByID txID b.storage with
    | .ok stored => .ok (sealedResult txID stored)
    | .error .notFound => match B.scheduledTransactionBlockIDByTxID txID b.storage with
      | .ok blockID => systemResult B blockID txID b
      | .error _ => .ok { status := .unknown }
    | .error e => .error (.storage e)

/-! ### By block -/

/-- Something for each transaction of a block: those of its collections, then its system transactions. -/
def byBlockID {α : Type} (user system : Nat → Identifier → Except QueryError α) (blockID : Identifier) (b : Blockchain σ) :
    Except QueryError (List α) := do
  let block ← (getBlockByID B blockID b).mapError (.block blockID)
  let users ← traverse (fun i colID => do
    let collection ← (getCollectionByID B colID b).mapError (.collection i colID)
    traverse user 0 collection.transactions) 0 block.guarantees
  let st ← (B.systemTransactionsForBlockID blockID b.storage).mapError .systemTransactions
  let systems ← traverse system 0 st.transactions
  pure (users.flatten ++ systems)

def getTransactionsByBlockID (blockID : Identifier) (b : Blockchain σ) : Except QueryError (List TransactionBody) :=
  byBlockID B (fun j txID => (getTransaction E M config B txID b).mapError (.transaction j txID))
    (fun j txID => (getTransaction E M config B txID b).mapError (.transaction j txID)) blockID b

def getTransactionResultsByBlockID (blockID : Identifier) (b : Blockchain σ) :
    Except QueryError (List AccessTransactionResult) :=
  byBlockID B (fun j txID => (getTransactionResult B txID b).mapError (.transactionResult j txID))
    (fun j txID => (systemResult B blockID txID b).mapError (.systemTransactionResult j txID)) blockID b

/-! ### System and scheduled transactions -/

/-- The record of the system transactions of a block. -/
def systemTransactionsOf (missing : Identifier) (blockID : Identifier) (b : Blockchain σ) :
    Except QueryError SystemTransactions :=
  match B.systemTransactionsForBlockID blockID b.storage with
  | .ok systemTxs => .ok systemTxs
  | .error .notFound => .error (.transactionNotFound missing)
  | .error e => .error (.systemTransactionsForBlock blockID e)

/-- The identifiers of the system transactions of a block, none when there is no record of them. -/
def getSystemTransactionsForBlock (blockID : Identifier) (b : Blockchain σ) : Except QueryError (List Identifier) :=
  match B.systemTransactionsForBlockID blockID b.storage with
  | .ok systemTxs => .ok systemTxs.transactions
  | .error .notFound => .ok []
  | .error e => .error (.systemTransactionsForBlock blockID e)

/-- Something for a system transaction of a block. The zero identifier stands for the last one. -/
def ofSystemTransaction {α : Type} (answer : Identifier → Except QueryError α) (txID blockID : Identifier)
    (b : Blockchain σ) : Except QueryError α := do
  let systemTxs ← systemTransactionsOf B txID blockID b
  if txID = zeroID then
    match systemTxs.transactions.getLast? with
    | none => .error (.transactionNotFound txID)
    | some last => answer last
  else if txID ∈ systemTxs.transactions then answer txID
  else .error (.transactionNotFound txID)

def getSystemTransaction (txID blockID : Identifier) (b : Blockchain σ) : Except QueryError TransactionBody :=
  ofSystemTransaction B (fun txID => getTransaction E M config B txID b) txID blockID b

def getSystemTransactionResult (txID blockID : Identifier) (b : Blockchain σ) :
    Except QueryError AccessTransactionResult :=
  ofSystemTransaction B (fun txID => systemResult B blockID txID b) txID blockID b

/-- Something for a scheduled transaction of a block. -/
def ofScheduledByBlockID {α : Type} (answer : Identifier → Except QueryError α) (scheduledTxID : Nat) (blockID : Identifier)
    (b : Blockchain σ) : Except QueryError α := do
  let systemTxs ← systemTransactionsOf B zeroID blockID b
  match systemTxs.scheduledTransactionIDs.lookup scheduledTxID with
  | none => .error (.transactionNotFound zeroID)
  | some txID => answer txID

/-- Something for a scheduled transaction, in the block the index has for it. -/
def ofScheduled {α : Type} (answer : Identifier → Identifier → Except QueryError α) (scheduledTxID : Nat)
    (b : Blockchain σ) : Except QueryError α :=
  match B.blockIDByScheduledTransactionID scheduledTxID b.storage with
  | .ok blockID => ofScheduledByBlockID B (answer blockID) scheduledTxID blockID b
  | .error .notFound => .error (.transactionNotFound zeroID)
  | .error e => .error (.scheduledTransactionBlock scheduledTxID e)

def getScheduledTransactionByBlockID (scheduledTxID : Nat) (blockID : Identifier) (b : Blockchain σ) :
    Except QueryError TransactionBody :=
  ofScheduledByBlockID B (fun txID => getTransaction E M config B txID b) scheduledTxID blockID b

def getScheduledTransaction (scheduledTxID : Nat) (b : Blockchain σ) : Except QueryError TransactionBody :=
  ofScheduled B (fun _ txID => getTransaction E M config B txID b) scheduledTxID b

def getScheduledTransactionResultByBlockID (scheduledTxID : Nat) (blockID : Identifier) (b : Blockchain σ) :
    Except QueryError AccessTransactionResult :=
  ofScheduledByBlockID B (fun txID => systemResult B blockID txID b) scheduledTxID blockID b

def getScheduledTransactionResult (scheduledTxID : Nat) (b : Blockchain σ) : Except QueryError AccessTransactionResult :=
  ofScheduled B (fun blockID txID => systemResult B blockID txID b) scheduledTxID b

section
variable {B} {b : Blockchain σ} {blockID : Identifier} {record : SystemTransactions} {α : Type}
  (read : B.systemTransactionsForBlockID blockID b.storage = .ok record)
include read

theorem ofSystemTransaction_ok (answer : Identifier → Except QueryError α) {txID : Identifier} (proper : txID ≠ zeroID)
    (member : txID ∈ record.transactions) : ofSystemTransaction B answer txID blockID b = answer txID := by
  simp [ofSystemTransaction,systemTransactionsOf,read,proper,member,bind,Except.bind]

theorem ofScheduledByBlockID_ok (answer : Identifier → Except QueryError α) {scheduledTxID : Nat} {txID : Identifier}
    (scheduled : record.scheduledTransactionIDs.lookup scheduledTxID = some txID) :
    ofScheduledByBlockID B answer scheduledTxID blockID b = answer txID := by
  simp [ofScheduledByBlockID,systemTransactionsOf,read,scheduled,bind,Except.bind]

/-- The block the index has for a scheduled transaction answers for it. -/
theorem ofScheduled_ok (answer : Identifier → Identifier → Except QueryError α) {scheduledTxID : Nat} {txID : Identifier}
    (index : B.blockIDByScheduledTransactionID scheduledTxID b.storage = .ok blockID)
    (scheduled : record.scheduledTransactionIDs.lookup scheduledTxID = some txID) :
    ofScheduled B answer scheduledTxID b = answer blockID txID := by
  simp [ofScheduled,index,ofScheduledByBlockID_ok read (answer blockID) scheduled]

end

/-! ### The access interface -/

inductive EventEncodingVersion where
  | ccf
  | jsonCdc
deriving DecidableEq

/-- The events in the encoding that is asked for. -/
def convertEvents (toJson : Event → Except String Event) (version : EventEncodingVersion) (events : List Event) :
    Except String (List Event) :=
  match version with
  | .ccf => .ok events
  | .jsonCdc => traverse (fun _ event => toJson event) 0 events

inductive StatusCode where
  | notFound
  | internal
deriving DecidableEq

/-- The errors of the access interface: a status code with the error behind it.
    Events that cannot be converted are an internal error. -/
inductive AccessError where
  | query (code : StatusCode) (e : QueryError)
  | conversion (message : String)
deriving DecidableEq

/-- Only an error that is not wrapped in another one is recognised as one of a missing thing. -/
def convertError (e : QueryError) : AccessError :=
  match e with
  | .blockNotFoundByID _ | .collectionNotFound _ | .transactionNotFound _ => .query .notFound e
  | .storage (.blockNotFoundByHeight _) => .query .notFound e
  | _ => .query .internal e

def getTransactionResultByIndex (toJson : Event → Except String Event) (version : EventEncodingVersion)
    (blockID : Identifier) (index : Nat) (b : Blockchain σ) : Except AccessError AccessTransactionResult := do
  let results ← (getTransactionResultsByBlockID B blockID b).mapError convertError
  if results.length ≤ index then .error (convertError (.transactionNotFound zeroID))
  else do
    let converted ← (traverse (fun _ (result : AccessTransactionResult) =>
      (convertEvents toJson version result.events).map fun events => { result with events := events }) 0 results).mapError
        .conversion
    match converted[index]? with
    | some result => .ok result
    | none => .error (convertError (.transactionNotFound zeroID))

variable {B} in
/-- The result at a place of a block, with its events in the encoding that is asked for. -/
theorem getTransactionResultByIndex_ok {toJson : Event → Except String Event} {version : EventEncodingVersion}
    {blockID : Identifier} {b : Blockchain σ} {results : List AccessTransactionResult}
    (read : getTransactionResultsByBlockID B blockID b = .ok results)
    (convertible : ∀ result ∈ results, ∃ events, convertEvents toJson version result.events = .ok events) {i : Nat}
    {result : AccessTransactionResult} (here : results[i]? = some result) :
    ∃ events, convertEvents toJson version result.events = .ok events ∧
      getTransactionResultByIndex B toJson version blockID i b = .ok { result with events := events } := by
  have each (j : Nat) (result : AccessTransactionResult) (member : result ∈ results) : ∃ converted,
      (convertEvents toJson version result.events).map (fun events => { result with events := events }) = .ok converted ∧
        ∃ events, convertEvents toJson version result.events = .ok events ∧ converted = { result with events := events } := by
    obtain ⟨events,done⟩ := convertible result member
    rw [done]
    exact ⟨_,rfl,events,rfl,rfl⟩
  obtain ⟨converted,traversed,related⟩ := traverse_related each 0
  obtain ⟨_,place,events,done,rfl⟩ := related_getElem related here
  refine ⟨events,done,?_⟩
  obtain ⟨inside,_⟩ := List.getElem?_eq_some_iff.mp here
  unfold getTransactionResultByIndex
  rw [read]
  show (if results.length ≤ i then _ else _) = _
  rw [if_neg (Nat.not_le.mpr inside),traversed]
  show (match converted[i]? with
    | some result => Except.ok result
    | none => Except.error _) = _
  rw [place]

end
end Blockchain
end FlowEmulator
