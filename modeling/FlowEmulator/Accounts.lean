import FlowEmulator.Queries

/-!
What clients read from a ledger: accounts, registers and the results of scripts,
at the latest block, at a height or at a block. How an account lies in the
registers and how a script is run belong to libraries; a `Reader` collects them.
-/
namespace FlowEmulator
open FlowEmulator.Text (Bytes)

inductive HashingAlgorithm where
  | unknown
  | sha2_256
  | sha2_384
  | sha3_256
  | sha3_384
  | kmac128
  | keccak_256
deriving DecidableEq

structure AccountPublicKey where
  index : Nat
  publicKey : Bytes
  hashAlgo : HashingAlgorithm
  seqNumber : Nat
  weight : Nat
deriving DecidableEq

structure Account where
  address : Address
  balance : Nat
  keys : List AccountPublicKey
deriving DecidableEq

/-- Why the virtual machine does not read an account. -/
inductive AccountFailure where
  | notFound
  | failed (message : String)
deriving DecidableEq

/-- What a run of a script reports. -/
structure ScriptOutput where
  value : Bytes
  output : ProcedureOutput
deriving DecidableEq

structure ScriptResult where
  scriptID : Identifier
  value : Option Bytes
  error : Option VMError
  logs : List String
  events : List Event
  computationUsed : Nat
  memoryEstimate : Nat
deriving DecidableEq

/-- What reading a ledger takes from libraries. -/
structure Reader where
  getAccount : Address → Registers → Except AccountFailure Account
  runScript : Block → Bytes → List Bytes → Registers → Except String ScriptOutput
  scriptID : Bytes → Identifier

inductive ReadError where
  | query (e : QueryError)
  | accountNotFound (address : Address)
  | fatal (message : String)
deriving DecidableEq

namespace Blockchain
section
variable {σ : Type} (E : Encoding) (M : Machine) (R : Reader) (B : Backend σ)

def getLatestBlock (b : Blockchain σ) : Except QueryError Block := (B.latestBlock b.storage).mapError .storage

/-- The registers at a height. Every height has some: no block is asked for. -/
def ledger (height : Nat) (b : Blockchain σ) : Registers := fun id => B.ledgerByHeight height id b.storage

/-! ### Accounts and registers -/

/-- The account that lies in some registers. -/
def accountIn (address : Address) (registers : Registers) : Except ReadError Account :=
  match R.getAccount address registers with
  | .ok account => .ok account
  | .error .notFound => .error (.accountNotFound address)
  | .error (.failed message) => .error (.fatal message)

def getAccountAtBlock (address : Address) (blockHeight : Nat) (b : Blockchain σ) : Except ReadError Account :=
  accountIn R address (b.ledger B blockHeight)

def getAccount (address : Address) (b : Blockchain σ) : Except ReadError Account := do
  let latestBlock ← (getLatestBlock B b).mapError .query
  getAccountAtBlock R B address latestBlock.height b

def getRegisterValues (registerIDs : List RegisterID) (height : Nat) (b : Blockchain σ) :
    Except ReadError (List RegisterValue) :=
  traverse (fun _ id => (b.ledger B height id).mapError fun e => .query (.storage e)) 0 registerIDs

/-! ### Scripts -/

/-- The result of a script for its run. -/
def scriptResult (script : Bytes) (run : ScriptOutput) : ScriptResult where
  scriptID := R.scriptID script
  value := if run.output.err = none then some run.value else none
  error := run.output.err
  logs := run.output.logs
  events := run.output.events
  computationUsed := run.output.computationUsed
  memoryEstimate := run.output.memoryEstimate

/-- Run a script with the header of a block on some registers. -/
def runScriptAt (block : Block) (script : Bytes) (arguments : List Bytes) (registers : Registers) :
    Except ReadError ScriptResult := do
  let run ← (R.runScript block script arguments registers).mapError .fatal
  if M.convertible run.output.events then pure (scriptResult R script run) else .error (.fatal "events")

def executeScriptAtBlockID (script : Bytes) (arguments : List Bytes) (id : Identifier) (b : Blockchain σ) :
    Except ReadError ScriptResult := do
  let requestedBlock ← (B.blockByID id b.storage).mapError fun e => .query (.storage e)
  runScriptAt M R requestedBlock script arguments (b.ledger B requestedBlock.height)

def executeScript (script : Bytes) (arguments : List Bytes) (b : Blockchain σ) : Except ReadError ScriptResult := do
  let latestBlock ← (getLatestBlock B b).mapError .query
  executeScriptAtBlockID M R B script arguments (E.blockID latestBlock) b

def executeScriptAtBlockHeight (script : Bytes) (arguments : List Bytes) (blockHeight : Nat) (b : Blockchain σ) :
    Except ReadError ScriptResult := do
  let requestedBlock ← (getBlockByHeight B blockHeight b).mapError .query
  executeScriptAtBlockID M R B script arguments (E.blockID requestedBlock) b

end
end Blockchain

/-- A library that finds no account and runs scripts without a value. -/
def Samples.reader : Reader where
  getAccount _ _ := .error .notFound
  runScript _ _ _ _ := .ok ⟨[],⟨[],[],0,0,none⟩⟩
  scriptID _ := zeroID

end FlowEmulator
