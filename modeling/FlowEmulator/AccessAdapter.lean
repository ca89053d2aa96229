import FlowEmulator.Accounts

/-!
The reads of the access interface. Each asks the emulator and turns the error it
gets into a status with a code. Errors are told apart by their type alone, so an
error that is wrapped in another one, or that was turned into a status before,
is not recognised. An `Emulator` says what the methods of the emulator return, in
any state; `access` is the one of the emulated chain.
-/
namespace FlowEmulator.Access
open FlowEmulator.Blockchain (EventEncodingVersion convertEvents)

/-- What an error of a missing thing is about. -/
inductive Missing where
  | blockByHeight (height : Nat)
  | blockByID (id : Identifier)
  | collection (id : Identifier)
  | transaction (id : Identifier)
  | account (address : Address)
deriving DecidableEq

inductive Code where
  | invalidArgument
  | notFound
  | internal
deriving DecidableEq

/-- An error, by its type: one of a missing thing, one of an invalid argument, one
    of a store or any other, one that wraps another with a message before it, or a
    status with the text of an error. -/
inductive GoError where
  | notFound (what : Missing)
  | invalidArgument (message : String)
  | store (e : StoreError)
  | other (message : String)
  | wrapped (message : String) (e : GoError)
  | status (code : Code) (text : GoError)
deriving DecidableEq

/-- The error is one of a missing thing, or wraps one at any depth. -/
def GoError.missing : GoError → Bool
  | .notFound _ => true
  | .wrapped _ e => e.missing
  | _ => false

/-- The error is itself one of a missing thing. -/
def GoError.bare : GoError → Bool
  | .notFound _ => true
  | _ => false

def GoError.code : GoError → Option Code
  | .status code _ => some code
  | _ => none

def convertError (err : GoError) (defaultStatusCode : Code) : GoError :=
  match err with
  | .invalidArgument _ => .status .invalidArgument err
  | .notFound _ => .status .notFound err
  | _ => .status defaultStatusCode err

/-- A result with its error converted. -/
def converted {α : Type} (defaultStatusCode : Code) (result : Except GoError α) : Except GoError α :=
  result.mapError fun err => convertError err defaultStatusCode

/-- What the methods of an emulator return in some state. -/
structure Emulator where
  getLatestBlock : Except GoError Block
  getBlockByHeight : Nat → Except GoError Block
  getBlockByID : Identifier → Except GoError Block
  getCollectionByID : Identifier → Except GoError LightCollection
  getFullCollectionByID : Identifier → Except GoError (List TransactionBody)
  getTransaction : Identifier → Except GoError TransactionBody
  getTransactionResult : Identifier → Except GoError AccessTransactionResult
  getTransactionsByBlockID : Identifier → Except GoError (List TransactionBody)
  getTransactionResultsByBlockID : Identifier → Except GoError (List AccessTransactionResult)
  getSystemTransaction : Identifier → Identifier → Except GoError TransactionBody
  getSystemTransactionResult : Identifier → Identifier → Except GoError AccessTransactionResult
  getScheduledTransaction : Nat → Except GoError TransactionBody
  getScheduledTransactionResult : Nat → Except GoError AccessTransactionResult
  getAccount : Address → Except GoError Account
  getAccountAtBlockHeight : Address → Nat → Except GoError Account

/-! ### The methods -/

section
variable (toJson : Event → Except String Event) (a : Emulator)

inductive BlockStatus where
  | unknown
  | finalized
  | sealed
deriving DecidableEq

/-- A block, or its header, is sealed once it is there. -/
def sealedBlock (block : Except GoError Block) : Except GoError (Block × BlockStatus) :=
  converted .internal (block.map fun block => (block,.sealed))

def getLatestBlockHeader : Except GoError (Block × BlockStatus) := sealedBlock a.getLatestBlock
def getBlockHeaderByHeight (height : Nat) : Except GoError (Block × BlockStatus) := sealedBlock (a.getBlockByHeight height)
def getBlockHeaderByID (id : Identifier) : Except GoError (Block × BlockStatus) := sealedBlock (a.getBlockByID id)
def getLatestBlock : Except GoError (Block × BlockStatus) := sealedBlock a.getLatestBlock
def getBlockByHeight (height : Nat) : Except GoError (Block × BlockStatus) := sealedBlock (a.getBlockByHeight height)
def getBlockByID (id : Identifier) : Except GoError (Block × BlockStatus) := sealedBlock (a.getBlockByID id)

def getCollectionByID (id : Identifier) : Except GoError LightCollection := converted .internal (a.getCollectionByID id)
def getFullCollectionByID (id : Identifier) : Except GoError (List TransactionBody) :=
  converted .internal (a.getFullCollectionByID id)
def getTransaction (id : Identifier) : Except GoError TransactionBody := converted .internal (a.getTransaction id)

/-- A result with its events in the encoding that is asked for. -/
def withEvents (failed : String → GoError) (version : EventEncodingVersion) (result : AccessTransactionResult) :
    Except GoError AccessTransactionResult :=
  ((convertEvents toJson version result.events).map fun events => { result with events := events }).mapError failed

/-- The errors of a conversion of events, in most methods and in those for system and scheduled transactions. -/
def conversionError (message : String) : GoError := convertError (.other message) .internal
def systemConversionError (message : String) : GoError := .status .internal (.other s!"failed to convert events: {message}")

/-- Where a block is given, the result of a system transaction of it is tried first, and its errors are dropped. -/
def getTransactionResult (id blockID : Identifier) (version : EventEncodingVersion) :
    Except GoError AccessTransactionResult :=
  let user := do
    let result ← converted .internal (a.getTransactionResult id)
    withEvents toJson conversionError version result
  if blockID = zeroID then user
  else match a.getSystemTransactionResult id blockID with
    | .ok sysResult => withEvents toJson conversionError version sysResult
    | .error _ => user

def getSystemTransaction (txID blockID : Identifier) : Except GoError TransactionBody :=
  converted .notFound (a.getSystemTransaction txID blockID)

def getSystemTransactionResult (txID blockID : Identifier) (version : EventEncodingVersion) :
    Except GoError AccessTransactionResult := do
  let result ← converted .notFound (a.getSystemTransactionResult txID blockID)
  withEvents toJson systemConversionError version result

def getScheduledTransaction (scheduledTxID : Nat) : Except GoError TransactionBody :=
  converted .notFound (a.getScheduledTransaction scheduledTxID)

def getScheduledTransactionResult (scheduledTxID : Nat) (version : EventEncodingVersion) :
    Except GoError AccessTransactionResult := do
  let result ← converted .notFound (a.getScheduledTransactionResult scheduledTxID)
  withEvents toJson systemConversionError version result

def getTransactionsByBlockID (blockID : Identifier) : Except GoError (List TransactionBody) :=
  converted .internal (a.getTransactionsByBlockID blockID)

def getTransactionResultsByBlockID (blockID : Identifier) (version : EventEncodingVersion) :
    Except GoError (List AccessTransactionResult) := do
  let results ← converted .internal (a.getTransactionResultsByBlockID blockID)
  traverse (fun _ result => withEvents toJson conversionError version result) 0 results

def getTransactionResultByIndex (blockID : Identifier) (index : Nat) (version : EventEncodingVersion) :
    Except GoError AccessTransactionResult := do
  let results ← converted .internal (a.getTransactionResultsByBlockID blockID)
  if results.length ≤ index then .error (convertError (.notFound (.transaction zeroID)) .internal)
  else do
    let withJson ← traverse (fun _ result => withEvents toJson conversionError version result) 0 results
    match withJson[index]? with
    | some result => .ok result
    | none => .error (convertError (.notFound (.transaction zeroID)) .internal)

def getAccount (address : Address) : Except GoError Account := converted .internal (a.getAccount address)

/-- The error of `getAccount` is converted once more. -/
def getAccountAtLatestBlock (address : Address) : Except GoError Account := converted .internal (getAccount a address)

def getAccountAtBlockHeight (address : Address) (height : Nat) : Except GoError Account :=
  converted .internal (a.getAccountAtBlockHeight address height)

def getAccountBalanceAtLatestBlock (address : Address) : Except GoError Nat :=
  converted .internal ((a.getAccount address).map Account.balance)

def getAccountBalanceAtBlockHeight (address : Address) (height : Nat) : Except GoError Nat :=
  converted .internal ((a.getAccountAtBlockHeight address height).map Account.balance)

def getAccountKeysAtLatestBlock (address : Address) : Except GoError (List AccountPublicKey) :=
  converted .internal ((a.getAccount address).map Account.keys)

def getAccountKeysAtBlockHeight (address : Address) (height : Nat) : Except GoError (List AccountPublicKey) :=
  converted .internal ((a.getAccountAtBlockHeight address height).map Account.keys)

/-- The key of an account with an index. -/
def keyByIndex (keyIndex : Nat) (account : Account) : Except GoError AccountPublicKey :=
  match account.keys.find? fun key => key.index = keyIndex with
  | some key => .ok key
  | none => .error (.status .notFound (.other s!"failed to get account key by index: {keyIndex}"))

def getAccountKeyAtLatestBlock (address : Address) (keyIndex : Nat) : Except GoError AccountPublicKey := do
  let account ← converted .internal (a.getAccount address)
  keyByIndex keyIndex account

def getAccountKeyAtBlockHeight (address : Address) (keyIndex height : Nat) : Except GoError AccountPublicKey := do
  let account ← converted .internal (a.getAccountAtBlockHeight address height)
  keyByIndex keyIndex account

end

/-! ### The emulated chain -/

/-- The text of an identifier, in hexadecimal digits. -/
def identifierText (id : Identifier) : String :=
  String.ofList (id.bytes.flatMap fun b => [Nat.digitChar (b.toNat / 16),Nat.digitChar (b.toNat % 16)])

def ofStore : StoreError → GoError
  | .blockNotFoundByHeight height => .notFound (.blockByHeight height)
  | e => .store e

def ofQuery : QueryError → GoError
  | .storage e => ofStore e
  | .blockNotFoundByID id => .notFound (.blockByID id)
  | .collectionNotFound id => .notFound (.collection id)
  | .transactionNotFound id => .notFound (.transaction id)
  | .block blockID e => .wrapped s!"failed to get block {identifierText blockID}: " (ofQuery e)
  | .collection i id e => .wrapped s!"failed to get collection [{i}] {identifierText id}: " (ofQuery e)
  | .transaction j txID e => .wrapped s!"failed to get transaction [{j}] {identifierText txID}: " (ofQuery e)
  | .transactionResult j txID e => .wrapped s!"failed to get transaction result [{j}] {identifierText txID}: " (ofQuery e)
  | .systemTransactions e => .wrapped "failed to get system transactions " (ofStore e)
  | .systemTransactionResult j txID e =>
    .wrapped s!"failed to get system transaction result [{j}] {identifierText txID}: " (ofQuery e)
  | .systemTransactionsForBlock blockID e =>
    .wrapped s!"failed to get system transactions for block {identifierText blockID}: " (ofStore e)
  | .scheduledTransactionBlock scheduledTxID e =>
    .wrapped s!"failed to find block for scheduled transaction {scheduledTxID}: " (ofStore e)

def ofRead : ReadError → GoError
  | .query e => ofQuery e
  | .accountNotFound address => .notFound (.account address)
  | .fatal message => .other message

/-- The methods of the emulated chain, in a state of it. -/
def access {σ : Type} (E : Encoding) (M : Machine) (R : Reader) (config : Config) (B : Backend σ) (b : Blockchain σ) :
    Emulator where
  getLatestBlock := (b.getLatestBlock B).mapError ofQuery
  getBlockByHeight height := (b.getBlockByHeight B height).mapError ofQuery
  getBlockByID id := (b.getBlockByID B id).mapError ofQuery
  getCollectionByID id := (b.getCollectionByID B id).mapError ofQuery
  getFullCollectionByID id := (b.getFullCollectionByID B id).mapError ofQuery
  getTransaction id := (b.getTransaction E M config B id).mapError ofQuery
  getTransactionResult id := (b.getTransactionResult B id).mapError ofQuery
  getTransactionsByBlockID blockID := (b.getTransactionsByBlockID E M config B blockID).mapError ofQuery
  getTransactionResultsByBlockID blockID := (b.getTransactionResultsByBlockID B blockID).mapError ofQuery
  getSystemTransaction txID blockID := (b.getSystemTransaction E M config B txID blockID).mapError ofQuery
  getSystemTransactionResult txID blockID := (b.getSystemTransactionResult B txID blockID).mapError ofQuery
  getScheduledTransaction scheduledTxID := (b.getScheduledTransaction E M config B scheduledTxID).mapError ofQuery
  getScheduledTransactionResult scheduledTxID := (b.getScheduledTransactionResult B scheduledTxID).mapError ofQuery
  getAccount address := (b.getAccount R B address).mapError ofRead
  getAccountAtBlockHeight address height := (b.getAccountAtBlock R B address height).mapError ofRead

end FlowEmulator.Access
