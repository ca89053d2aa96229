import FlowEmulator.AccessAdapter
import FlowEmulator.LocalStores

/-!
The status codes of the access interface for things that are missing. A call
answers with the code for a missing thing exactly if the error it gets last is
itself one of a missing thing and is converted once, or if this code is its
default. The reads by block wrap their errors, and the read of an account at the
latest block converts them twice.
-/
namespace FlowEmulator.Access
open FlowEmulator.Blockchain (EventEncodingVersion)

/-- A call of a read. -/
inductive Call where
  | getLatestBlockHeader
  | getBlockHeaderByHeight (height : Nat)
  | getBlockHeaderByID (id : Identifier)
  | getLatestBlock
  | getBlockByHeight (height : Nat)
  | getBlockByID (id : Identifier)
  | getCollectionByID (id : Identifier)
  | getFullCollectionByID (id : Identifier)
  | getTransaction (id : Identifier)
  | getTransactionResult (id blockID : Identifier) (version : EventEncodingVersion)
  | getSystemTransaction (txID blockID : Identifier)
  | getSystemTransactionResult (txID blockID : Identifier) (version : EventEncodingVersion)
  | getScheduledTransaction (scheduledTxID : Nat)
  | getScheduledTransactionResult (scheduledTxID : Nat) (version : EventEncodingVersion)
  | getTransactionsByBlockID (blockID : Identifier)
  | getTransactionResultsByBlockID (blockID : Identifier) (version : EventEncodingVersion)
  | getTransactionResultByIndex (blockID : Identifier) (index : Nat) (version : EventEncodingVersion)
  | getAccount (address : Address)
  | getAccountAtLatestBlock (address : Address)
  | getAccountAtBlockHeight (address : Address) (height : Nat)
  | getAccountBalanceAtLatestBlock (address : Address)
  | getAccountBalanceAtBlockHeight (address : Address) (height : Nat)
  | getAccountKeysAtLatestBlock (address : Address)
  | getAccountKeysAtBlockHeight (address : Address) (height : Nat)
  | getAccountKeyAtLatestBlock (address : Address) (keyIndex : Nat)
  | getAccountKeyAtBlockHeight (address : Address) (keyIndex height : Nat)

def failure {ε α : Type} : Except ε α → Option ε
  | .ok _ => none
  | .error e => some e

namespace Call
variable (toJson : Event → Except String Event) (a : Emulator)

/-- The error a call returns. -/
def error : Call → Option GoError
  | getLatestBlockHeader => failure (Access.getLatestBlockHeader a)
  | getBlockHeaderByHeight height => failure (Access.getBlockHeaderByHeight a height)
  | getBlockHeaderByID id => failure (Access.getBlockHeaderByID a id)
  | getLatestBlock => failure (Access.getLatestBlock a)
  | getBlockByHeight height => failure (Access.getBlockByHeight a height)
  | getBlockByID id => failure (Access.getBlockByID a id)
  | getCollectionByID id => failure (Access.getCollectionByID a id)
  | getFullCollectionByID id => failure (Access.getFullCollectionByID a id)
  | getTransaction id => failure (Access.getTransaction a id)
  | getTransactionResult id blockID version => failure (Access.getTransactionResult toJson a id blockID version)
  | getSystemTransaction txID blockID => failure (Access.getSystemTransaction a txID blockID)
  | getSystemTransactionResult txID blockID version =>
    failure (Access.getSystemTransactionResult toJson a txID blockID version)
  | getScheduledTransaction scheduledTxID => failure (Access.getScheduledTransaction a scheduledTxID)
  | getScheduledTransactionResult scheduledTxID version =>
    failure (Access.getScheduledTransactionResult toJson a scheduledTxID version)
  | getTransactionsByBlockID blockID => failure (Access.getTransactionsByBlockID a blockID)
  | getTransactionResultsByBlockID blockID version =>
    failure (Access.getTransactionResultsByBlockID toJson a blockID version)
  | getTransactionResultByIndex blockID index version =>
    failure (Access.getTransactionResultByIndex toJson a blockID index version)
  | getAccount address => failure (Access.getAccount a address)
  | getAccountAtLatestBlock address => failure (Access.getAccountAtLatestBlock a address)
  | getAccountAtBlockHeight address height => failure (Access.getAccountAtBlockHeight a address height)
  | getAccountBalanceAtLatestBlock address => failure (Access.getAccountBalanceAtLatestBlock a address)
  | getAccountBalanceAtBlockHeight address height => failure (Access.getAccountBalanceAtBlockHeight a address height)
  | getAccountKeysAtLatestBlock address => failure (Access.getAccountKeysAtLatestBlock a address)
  | getAccountKeysAtBlockHeight address height => failure (Access.getAccountKeysAtBlockHeight a address height)
  | getAccountKeyAtLatestBlock address keyIndex => failure (Access.getAccountKeyAtLatestBlock a address keyIndex)
  | getAccountKeyAtBlockHeight address keyIndex height =>
    failure (Access.getAccountKeyAtBlockHeight a address keyIndex height)

/-- The error of the method of the emulator that a call asks last. -/
def last : Call → Option GoError
  | getLatestBlockHeader | getLatestBlock => failure a.getLatestBlock
  | getBlockHeaderByHeight height | getBlockByHeight height => failure (a.getBlockByHeight height)
  | getBlockHeaderByID id | getBlockByID id => failure (a.getBlockByID id)
  | getCollectionByID id => failure (a.getCollectionByID id)
  | getFullCollectionByID id => failure (a.getFullCollectionByID id)
  | getTransaction id => failure (a.getTransaction id)
  | getTransactionResult id blockID _ =>
    if blockID ≠ zeroID ∧ failure (a.getSystemTransactionResult id blockID) = none then none
    else failure (a.getTransactionResult id)
  | getSystemTransaction txID blockID => failure (a.getSystemTransaction txID blockID)
  | getSystemTransactionResult txID blockID _ => failure (a.getSystemTransactionResult txID blockID)
  | getScheduledTransaction scheduledTxID => failure (a.getScheduledTransaction scheduledTxID)
  | getScheduledTransactionResult scheduledTxID _ => failure (a.getScheduledTransactionResult scheduledTxID)
  | getTransactionsByBlockID blockID => failure (a.getTransactionsByBlockID blockID)
  | getTransactionResultsByBlockID blockID _ | getTransactionResultByIndex blockID _ _ =>
    failure (a.getTransactionResultsByBlockID blockID)
  | getAccount address | getAccountAtLatestBlock address | getAccountBalanceAtLatestBlock address
  | getAccountKeysAtLatestBlock address | getAccountKeyAtLatestBlock address _ => failure (a.getAccount address)
  | getAccountAtBlockHeight address height | getAccountBalanceAtBlockHeight address height
  | getAccountKeysAtBlockHeight address height | getAccountKeyAtBlockHeight address _ height =>
    failure (a.getAccountAtBlockHeight address height)

/-- The error a call drops to ask another method. -/
def dropped : Call → Option GoError
  | getTransactionResult id blockID _ =>
    if blockID = zeroID then none else failure (a.getSystemTransactionResult id blockID)
  | _ => none

/-- The errors a call receives from the emulator. -/
def received (call : Call) : List GoError := (call.dropped a).toList ++ (call.last a).toList

/-- The code of a call for errors it does not recognise. -/
def fallback : Call → Code
  | getSystemTransaction .. | getSystemTransactionResult .. | getScheduledTransaction .. | getScheduledTransactionResult .. =>
    .notFound
  | _ => .internal

/-- The errors of the call are converted twice. -/
def twice : Call → Bool
  | getAccountAtLatestBlock _ => true
  | _ => false

end Call

@[simp] theorem failure_converted {α : Type} (fallback : Code) (result : Except GoError α) :
    failure (converted fallback result) = (failure result).map fun e => convertError e fallback := by
  cases result <;> rfl

@[simp] theorem failure_map {α β : Type} (f : α → β) (result : Except GoError α) :
    failure (result.map f) = failure result := by
  cases result <;> rfl

theorem failure_bind {α β : Type} {f : α → Except GoError β} {result : Except GoError α} {e : GoError} {fallback : Code}
    (failed : failure result = some e) : failure (converted fallback result >>= f) = some (convertError e fallback) := by
  cases result with
  | ok _ => cases failed
  | error _ => cases failed; rfl

theorem code_convertError (e : GoError) (fallback : Code) : (convertError e fallback).code = some (match e with
    | .invalidArgument _ => .invalidArgument
    | .notFound _ => .notFound
    | _ => fallback) := by
  cases e <;> rfl

theorem code_twice (e : GoError) : (convertError (convertError e .internal) .internal).code = some .internal := by
  cases e <;> rfl

/-- Events that cannot be converted are an internal error. -/
theorem failure_withEvents {toJson : Event → Except String Event} {version : EventEncodingVersion}
    {result : AccessTransactionResult} {e : GoError}
    (failed : failure (withEvents toJson conversionError version result) = some e) : e.code = some .internal := by
  rw [withEvents] at failed
  cases converted : (Blockchain.convertEvents toJson version result.events).map
      (fun events => { result with events := events }) with
  | ok _ =>
    rw [converted] at failed
    cases failed
  | error message =>
    rw [converted] at failed
    cases failed
    rfl

section
variable (toJson : Event → Except String Event) {a : Emulator}

/-- A call converts the error it gets last. -/
theorem error_last {call : Call} {e : GoError} (failed : call.last a = some e) : call.error toJson a =
    some (if call.twice then convertError (convertError e .internal) .internal else convertError e call.fallback) := by
  cases call with
  | getTransactionResult id blockID version =>
    simp only [Call.last] at failed
    split at failed
    · cases failed
    next asked =>
    have user : failure (do
        let result ← converted .internal (a.getTransactionResult id)
        withEvents toJson conversionError version result) = some (convertError e .internal) := failure_bind failed
    show failure (Access.getTransactionResult toJson a id blockID version) = _
    rw [Access.getTransactionResult]
    split
    · exact user
    next given =>
    cases system : a.getSystemTransactionResult id blockID with
    | ok sysResult => exact absurd ⟨given,by rw [system]; rfl⟩ asked
    | error _ => exact user
  | getSystemTransactionResult txID blockID version => exact failure_bind failed
  | getScheduledTransactionResult scheduledTxID version => exact failure_bind failed
  | getTransactionResultsByBlockID blockID version => exact failure_bind failed
  | getTransactionResultByIndex blockID index version => exact failure_bind failed
  | getAccountKeyAtLatestBlock address keyIndex => exact failure_bind failed
  | getAccountKeyAtBlockHeight address keyIndex height => exact failure_bind failed
  | _ =>
    simp only [Call.last] at failed
    simp [Call.error,Call.twice,Call.fallback,Access.getLatestBlockHeader,Access.getBlockHeaderByHeight,
      Access.getBlockHeaderByID,Access.getLatestBlock,Access.getBlockByHeight,Access.getBlockByID,sealedBlock,
      Access.getCollectionByID,Access.getFullCollectionByID,Access.getTransaction,Access.getSystemTransaction,
      Access.getScheduledTransaction,Access.getTransactionsByBlockID,Access.getAccount,Access.getAccountAtLatestBlock,
      Access.getAccountAtBlockHeight,Access.getAccountBalanceAtLatestBlock,Access.getAccountBalanceAtBlockHeight,
      Access.getAccountKeysAtLatestBlock,Access.getAccountKeysAtBlockHeight,failed]

/-- A call that drops an error and then gets none does not answer with the code of a missing thing. -/
theorem error_dropped {call : Call} {e : GoError} (first : call.dropped a = some e) (none : call.last a = none) :
    (call.error toJson a).bind GoError.code ≠ some .notFound := by
  cases call with
  | getTransactionResult id blockID version =>
    simp only [Call.dropped] at first
    split at first
    · cases first
    next given =>
    have system : a.getSystemTransactionResult id blockID = .error e := by
      cases asked : a.getSystemTransactionResult id blockID with
      | ok _ => rw [asked] at first; cases first
      | error _ => rw [asked] at first; cases first; rfl
    have second : failure (a.getTransactionResult id) = .none := by
      simpa [Call.last,given,first] using none
    show (failure (Access.getTransactionResult toJson a id blockID version)).bind GoError.code ≠ _
    rw [Access.getTransactionResult,if_neg given,system]
    cases user : a.getTransactionResult id with
    | error _ => rw [user] at second; cases second
    | ok result =>
      show (failure (withEvents toJson conversionError version result)).bind GoError.code ≠ _
      cases failed : failure (withEvents toJson conversionError version result) with
      | none => simp
      | some e => simp [failure_withEvents failed]
  | _ => cases first

/-- A call whose default is the code of a missing thing drops no error. -/
theorem received_fallback {call : Call} {e : GoError} (received : e ∈ call.received a) (default : call.fallback = .notFound) :
    call.last a = some e := by
  have none : call.dropped a = .none := by cases call <;> first | rfl | cases default
  simpa [Call.received,none] using received

/-- The status of a call has the code of a missing thing. -/
theorem notFound_last {call : Call} {last : GoError} (failed : call.last a = some last)
    (proper : call.fallback = .notFound → last.missing = true) :
    (call.error toJson a).bind GoError.code = some .notFound ↔
      call.twice = false ∧ (last.bare = true ∨ call.fallback = .notFound) := by
  rw [error_last toJson failed,Option.bind_some]
  cases twice : call.twice with
  | true => simp [code_twice]
  | false =>
    rw [if_neg (by simp),code_convertError]
    cases last with
    | invalidArgument message =>
      have other : call.fallback ≠ .notFound := fun default => by simpa [GoError.missing] using proper default
      simp [GoError.bare,other]
    | _ => simp [GoError.bare]

end

/-- The errors that are told apart. -/
def GoError.recognised : GoError → Bool
  | .notFound _ | .invalidArgument _ => true
  | _ => false

/-- A call that gets an error of a missing thing, wrapped or not, answers with its
    code exactly if the last error is not wrapped, or the code is the default, and
    it is converted once. The two reads of the latest account answer with the same
    code exactly if their error is none of those that are told apart. -/
theorem notFound_kept_iff (toJson : Event → Except String Event) (a : Emulator) :
    (∀ (call : Call) (e : GoError), e ∈ call.received a → e.missing = true →
      ((call.error toJson a).bind GoError.code = some .notFound ↔
        call.twice = false ∧ ∃ last, call.last a = some last ∧ (last.bare = true ∨ call.fallback = .notFound))) ∧
    ∀ address, ((Call.getAccount address).error toJson a).bind GoError.code =
        ((Call.getAccountAtLatestBlock address).error toJson a).bind GoError.code ↔
      ∀ e, a.getAccount address = .error e → e.recognised = false := by
  refine ⟨fun call e received missing => ?_,fun address => ?_⟩
  · cases failed : call.last a with
    | none =>
      have dropped : call.dropped a = some e := by simpa [Call.received,failed] using received
      simp [error_dropped toJson dropped failed]
    | some last =>
      have proper (default : call.fallback = .notFound) : last.missing = true := by
        have same := received_fallback received default
        rw [failed] at same
        cases same
        exact missing
      rw [notFound_last toJson failed proper]
      simp
  · cases read : a.getAccount address with
    | ok account =>
      simp [Call.error,Access.getAccount,Access.getAccountAtLatestBlock,converted,Except.mapError,failure,read]
    | error e =>
      have failed : failure (a.getAccount address) = some e := by rw [read]; rfl
      have once : (Call.getAccount address).last a = some e := failed
      have again : (Call.getAccountAtLatestBlock address).last a = some e := failed
      rw [error_last toJson once,error_last toJson again,Option.bind_some,Option.bind_some]
      simp only [Call.twice,Call.fallback,Bool.false_eq_true,if_false,if_true]
      rw [code_twice,code_convertError]
      cases e <;> simp [GoError.recognised]

/-- On a new emulator, the transactions of an unknown block and an unknown account
    at the latest block are internal errors. -/
theorem notFound_code_lost : ∃ b, Blockchain.newBlockchain Samples.encoding Samples.machine Samples.config
      (Memstore.backend Samples.encoding .ofLists) Samples.tick false Memstore.new = .ok b ∧
    ∃ a, a = access Samples.encoding Samples.machine Samples.reader Samples.config
      (Memstore.backend Samples.encoding .ofLists) b ∧
    (∃ message, a.getTransactionsByBlockID (Samples.digest 9) =
      .error (.wrapped message (.notFound (.blockByID (Samples.digest 9))))) ∧
    ((Call.getTransactionsByBlockID (Samples.digest 9)).error .ok a).bind GoError.code = some .internal ∧
    a.getAccount 1 = .error (.notFound (.account 1)) ∧
    ((Call.getAccount 1).error .ok a).bind GoError.code = some .notFound ∧
    ((Call.getAccountAtLatestBlock 1).error .ok a).bind GoError.code = some .internal :=
  ⟨_,rfl,_,rfl,⟨_,rfl⟩,rfl,rfl,rfl,rfl⟩

theorem notFound_kept_iff_block : ∃ b, Blockchain.newBlockchain Samples.encoding Samples.machine Samples.config
      (Memstore.backend Samples.encoding .ofLists) Samples.tick false Memstore.new = .ok b ∧
    ((Call.getBlockByHeight 1).error .ok (access Samples.encoding Samples.machine Samples.reader Samples.config
      (Memstore.backend Samples.encoding .ofLists) b)).bind GoError.code = some .notFound := by
  refine ⟨_,rfl,((notFound_kept_iff .ok _).1 (.getBlockByHeight 1) (.notFound (.blockByHeight 1)) ?_ rfl).mpr ?_⟩
  · exact List.mem_singleton.mpr rfl
  · exact ⟨rfl,_,rfl,.inl rfl⟩

end FlowEmulator.Access
