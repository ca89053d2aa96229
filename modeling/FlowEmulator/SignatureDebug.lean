import FlowEmulator.Accounts
import FlowEmulator.Execution
import FlowEmulator.LocalStores

/-!
The search for the reason of an invalid signature. When a transaction has failed,
its signatures are tried with other hashing algorithms, with the keys that their
accounts have at the latest block. The transaction was run on the ledger of the
pending block, so a key it was checked with may not be there yet, and its index is
then out of range. A transaction that asks for the debugger crashes before it is
run: in a debugging session the emulator has no debugger to pause.
-/
namespace FlowEmulator
open FlowEmulator.Fallible
open FlowEmulator.Text (Bytes)

/-- The two errors of invalid signatures. -/
inductive SignatureError where
  | invalidEnvelopeSignature
  | invalidPayloadSignature
deriving DecidableEq

/-- What the search takes from libraries: the codes in an error, the messages that
    are signed, and whether a signature of a message is valid for a public key
    under a hashing algorithm. -/
structure Signatures where
  hasErrorCode : VMError → SignatureError → Bool
  envelopeMessage : TransactionBody → Bytes
  payloadMessage : TransactionBody → Bytes
  verify : Bytes → HashingAlgorithm → Bytes → Bytes → Bool

/-- What is reported besides the error of a transaction. -/
inductive TransactionResultDebug where
  | invalidHashAlgo (key : AccountPublicKey) (address : Address) (invalidAlgo : HashingAlgorithm)
  | invalidSignature (tx : TransactionBody)
deriving DecidableEq

/-- A crash of the process. -/
inductive Crash where
  | indexOutOfRange (index length : Nat)
  | nilPointer
deriving DecidableEq

/-- A pragma of a program, with at most one argument. -/
structure Pragma where
  name : String
  argument : String
deriving DecidableEq

def pragmaDebug : String := "debug"

/-- Whether a debugging session is active, and the pragmas that the parser finds in a program. -/
structure Debugging where
  activeDebuggingSession : Bool
  extractPragmas : Bytes → List Pragma

/-- The debugger is asked to pause before the transaction is run. -/
def Debugging.pauses (D : Debugging) (tx : TransactionBody) : Bool :=
  D.activeDebuggingSession && (D.extractPragmas tx.script).any fun p => p.name = pragmaDebug

namespace Blockchain
section
variable {σ : Type} (E : Encoding) (M : Machine) (R : Reader) (S : Signatures) (D : Debugging) (B : Backend σ)

/-- The first hashing algorithm, other than the one of the key, under which a signature is valid. -/
def validAlternative (key : AccountPublicKey) (address : Address) (signature msg : Bytes) : Option TransactionResultDebug :=
  [.sha2_256,.sha3_256].findSome? fun algo =>
    if key.hashAlgo = algo then none
    else if S.verify key.publicKey algo signature msg then some (.invalidHashAlgo key address algo)
    else none

def testAlternativeHashAlgo (sig : TransactionSignature) (msg : Bytes) (b : Blockchain σ) :
    Except Crash (Option TransactionResultDebug) :=
  match getAccount R B sig.address b with
  | .error _ => .ok none
  | .ok acc => match acc.keys[sig.keyIndex]? with
    | none => .error (.indexOutOfRange sig.keyIndex acc.keys.length)
    | some key => .ok (validAlternative S key acc.address sig.signature msg)

/-- Try signatures of a message until one is explained. -/
def testSignatures (msg : Bytes) (b : Blockchain σ) : List TransactionSignature → Except Crash (Option TransactionResultDebug)
  | [] => .ok none
  | sig :: rest => do
    let debug ← testAlternativeHashAlgo R S B sig msg b
    match debug with
    | some debug => pure (some debug)
    | none => testSignatures msg b rest

/-- Signatures are tried if the error is about them. -/
def testSignaturesIf (present : Bool) (msg : Bytes) (b : Blockchain σ) (sigs : List TransactionSignature) :
    Except Crash (Option TransactionResultDebug) :=
  if present then testSignatures R S B msg b sigs else .ok none

def debugSignatureError (err : VMError) (tx : TransactionBody) (b : Blockchain σ) : Except Crash TransactionResultDebug := do
  let envelope ← testSignaturesIf R S B (S.hasErrorCode err .invalidEnvelopeSignature) (S.envelopeMessage tx) b
    tx.envelopeSignatures
  match envelope with
  | some debug => pure debug
  | none => do
    let payload ← testSignaturesIf R S B (S.hasErrorCode err .invalidPayloadSignature) (S.payloadMessage tx) b
      tx.payloadSignatures
    pure (payload.getD (.invalidSignature tx))

/-- A call that returns, its error taken as a value. -/
def returning {α : Type} (call : EmulatorM σ α) : Fallible Crash (Blockchain σ) (Except EmulatorError α) :=
  fun b => (.ok (call b).1,(call b).2)

/-- The execution of a transaction that is the next one, with the search for the reason of its error. -/
def executeDebugged (tx : TransactionBody) :
    Fallible Crash (Blockchain σ) (Except EmulatorError (TransactionResult × Option TransactionResultDebug)) := do
  let result ← returning (executeNextTransaction E M B)
  match result with
  | .error e => pure (.error e)
  | .ok tr => match tr.output.err with
    | none => pure (.ok (tr,none))
    | some err => do
      let debug ← attempt (debugSignatureError R S B err tx)
      pure (.ok (tr,some debug))

/-- The execution of the next transaction. Either it returns, with a result or an
    error, or it crashes. The emulator's debugger is never set. -/
def executeNextTransactionDebugged :
    Fallible Crash (Blockchain σ) (Except EmulatorError (TransactionResult × Option TransactionResultDebug)) := do
  let pending ← view Blockchain.pendingBlock
  if pending.executionComplete then pure (.error (.pendingBlockTransactionsExhausted (pending.id E)))
  else match pending.nextTransaction with
    | none => fail .nilPointer
    | some tx => if D.pauses tx then fail .nilPointer else executeDebugged E M R S B tx

end

/-! ### Where the search ends -/

section
variable {σ : Type} (R : Reader) (S : Signatures) (B : Backend σ) (b : Blockchain σ)

/-- The account of the signature has a key of this index at the latest block, or cannot be read. -/
def Indexed (sig : TransactionSignature) : Prop :=
  ∀ acc, getAccount R B sig.address b = .ok acc → sig.keyIndex < acc.keys.length

/-- The signature is valid with a hashing algorithm that is not the one of the key. -/
def Explained (entry : TransactionSignature × Bytes) : Prop :=
  ∃ acc key algo, getAccount R B entry.1.address b = .ok acc ∧ acc.keys[entry.1.keyIndex]? = some key ∧
    (algo = .sha2_256 ∨ algo = .sha3_256) ∧ key.hashAlgo ≠ algo ∧ S.verify key.publicKey algo entry.1.signature entry.2 = true

/-- The signatures the error of a transaction is about, with what they sign, in the order they are tried. -/
def tried (err : VMError) (tx : TransactionBody) : List (TransactionSignature × Bytes) :=
  (if S.hasErrorCode err .invalidEnvelopeSignature then tx.envelopeSignatures.map fun sig => (sig,S.envelopeMessage tx) else []) ++
  (if S.hasErrorCode err .invalidPayloadSignature then tx.payloadSignatures.map fun sig => (sig,S.payloadMessage tx) else [])

/-- Every signature that is tried, up to the first that is explained, has its key. -/
def Safe : List (TransactionSignature × Bytes) → Prop
  | [] => True
  | entry :: rest => Indexed R B b entry.1 ∧ (¬ Explained R S B b entry → Safe rest)

end

section
variable {σ : Type} {E : Encoding} {M : Machine} {R : Reader} {S : Signatures} {D : Debugging} {B : Backend σ} {b : Blockchain σ}

theorem validAlternative_isSome {key : AccountPublicKey} {address : Address} {signature msg : Bytes} :
    (validAlternative S key address signature msg).isSome ↔ ∃ algo, (algo = .sha2_256 ∨ algo = .sha3_256) ∧
      key.hashAlgo ≠ algo ∧ S.verify key.publicKey algo signature msg = true := by
  rw [validAlternative,List.findSome?_isSome_iff]
  constructor
  · rintro ⟨algo,member,some_debug⟩
    refine ⟨algo,by simpa using member,?_⟩
    split at some_debug
    · cases some_debug
    next other =>
    split at some_debug
    · next valid => exact ⟨other,valid⟩
    · cases some_debug
  · rintro ⟨algo,either,other,valid⟩
    exact ⟨algo,by simpa using either,by simp [other,valid]⟩

/-- One signature is tried without a crash exactly if its key is there, and then it is explained or not. -/
theorem testAlternativeHashAlgo_cases (sig : TransactionSignature) (msg : Bytes) :
    (¬ Indexed R B b sig ∧ ∃ crash, testAlternativeHashAlgo R S B sig msg b = .error crash) ∨
    (Indexed R B b sig ∧ ∃ debug, testAlternativeHashAlgo R S B sig msg b = .ok debug ∧
      (debug.isSome ↔ Explained R S B b (sig,msg))) := by
  rw [testAlternativeHashAlgo]
  cases read : getAccount R B sig.address b with
  | error e =>
    refine .inr ⟨fun acc wrong => by simp [read] at wrong,none,rfl,?_⟩
    simp [Explained,read]
  | ok acc =>
    cases key : acc.keys[sig.keyIndex]? with
    | none =>
      refine .inl ⟨fun indexed => ?_,.indexOutOfRange sig.keyIndex acc.keys.length,by simp only [key]⟩
      have inside := indexed acc read
      rw [List.getElem?_eq_getElem inside] at key
      cases key
    | some found =>
      refine .inr ⟨fun other same => ?_,validAlternative S found acc.address sig.signature msg,by simp only [key],?_⟩
      · cases read.symm.trans same
        exact (List.getElem?_eq_some_iff.mp key).1
      · rw [validAlternative_isSome]
        constructor
        · rintro ⟨algo,either,other,valid⟩
          exact ⟨acc,found,algo,read,key,either,other,valid⟩
        · rintro ⟨acc',found',algo,read',key',either,other,valid⟩
          cases read.symm.trans read'
          cases key.symm.trans key'
          exact ⟨algo,either,other,valid⟩

/-- What trying signatures one after the other ends with. -/
theorem testSignatures_append (msg : Bytes) (sigs : List TransactionSignature) (later : List (TransactionSignature × Bytes)) :
    Safe R S B b (sigs.map (fun sig => (sig,msg)) ++ later) ↔
      ∃ debug, testSignatures R S B msg b sigs = .ok debug ∧ (debug = none → Safe R S B b later) := by
  induction sigs with
  | nil => simp [testSignatures]
  | cons sig rest ih =>
    rw [List.map_cons,List.cons_append,Safe,testSignatures]
    rcases testAlternativeHashAlgo_cases (R := R) (S := S) (B := B) (b := b) sig msg with
      ⟨missing,crash,run⟩ | ⟨indexed,debug,run,explained⟩
    · rw [run]
      simp [missing,bind,Except.bind]
    · rw [run]
      cases debug with
      | none =>
        have not : ¬ Explained R S B b (sig,msg) := by simpa using explained
        simp only [indexed,not,not_false_eq_true,true_and,forall_const,ih,bind,Except.bind]
      | some debug =>
        have yes : Explained R S B b (sig,msg) := by simpa using explained
        simp [indexed,yes,bind,Except.bind,pure,Except.pure]

/-- The same where the signatures are tried only if the error is about them. -/
theorem testSignaturesIf_append (present : Bool) (msg : Bytes) (sigs : List TransactionSignature)
    (later : List (TransactionSignature × Bytes)) :
    Safe R S B b ((if present then sigs.map fun sig => (sig,msg) else []) ++ later) ↔
      ∃ debug, testSignaturesIf R S B present msg b sigs = .ok debug ∧ (debug = none → Safe R S B b later) := by
  cases present with
  | true => simpa [testSignaturesIf] using testSignatures_append msg sigs later
  | false => simp [testSignaturesIf]

/-- The search returns exactly if the signatures it tries have their keys. -/
theorem debugSignatureError_returns (err : VMError) (tx : TransactionBody) :
    (∃ debug, debugSignatureError R S B err tx b = .ok debug) ↔ Safe R S B b (tried S err tx) := by
  have second := testSignaturesIf_append (R := R) (S := S) (B := B) (b := b) (S.hasErrorCode err .invalidPayloadSignature)
    (S.payloadMessage tx) tx.payloadSignatures []
  rw [List.append_nil] at second
  rw [tried,testSignaturesIf_append,second,debugSignatureError]
  rcases testSignaturesIf R S B (S.hasErrorCode err .invalidEnvelopeSignature) (S.envelopeMessage tx) b
      tx.envelopeSignatures with crash | first
  · simp [bind,Except.bind]
  · cases first with
    | some debug => simp [bind,Except.bind,pure,Except.pure]
    | none =>
      rcases testSignaturesIf R S B (S.hasErrorCode err .invalidPayloadSignature) (S.payloadMessage tx) b
          tx.payloadSignatures with crash | last
      · simp [bind,Except.bind]
      · simp [Safe,bind,Except.bind,pure,Except.pure]

/-- Accounts at the latest block depend on the store alone. -/
theorem safe_storage (b after : Blockchain σ) (same : after.storage = b.storage) (entries : List (TransactionSignature × Bytes)) :
    Safe R S B after entries ↔ Safe R S B b entries := by
  have reads (address : Address) : getAccount R B address after = getAccount R B address b := by
    unfold getAccount getLatestBlock getAccountAtBlock ledger
    rw [same]
  induction entries with
  | nil => exact Iff.rfl
  | cons entry rest ih => simp only [Safe,Indexed,Explained,reads,ih]

/-- What the execution with the search returns, given what the execution returns. -/
theorem executeDebugged_run (tx : TransactionBody) (b : Blockchain σ) : (executeDebugged E M R S B tx b).1 =
    match (executeNextTransaction E M B b).1 with
      | .error e => .ok (.error e)
      | .ok tr => match tr.output.err with
        | none => .ok (.ok (tr,none))
        | some err => (debugSignatureError R S B err tx (executeNextTransaction E M B b).2).map fun debug => .ok (tr,some debug) := by
  rw [executeDebugged,bind_run,returning]
  rcases executeNextTransaction E M B b with ⟨e | tr,after⟩
  · rfl
  · dsimp only
    cases tr.output.err with
    | none => rfl
    | some err =>
      dsimp only
      rw [bind_run,attempt_run]
      cases debugSignatureError R S B err tx after <;> rfl

/-- Where the transaction is run and fails, the signatures that are tried have their keys. -/
def Searchable (E : Encoding) (M : Machine) (R : Reader) (S : Signatures) (B : Backend σ) (tx : TransactionBody)
    (b : Blockchain σ) : Prop :=
  ∀ writes output err, (M.on b.pendingBlock).run (b.context E .user) tx b.pendingBlock.index (b.registers B) = .ok (writes,output) →
    M.mergeable b.pendingBlock.ledgerState writes = true → M.convertible output.events = true →
    output.err = some err → Safe R S B b (tried S err tx)

/-- For a transaction that is run and merged the search is for the error of that run. -/
theorem searchable_ran {tx : TransactionBody} {writes : WriteSet} {output : ProcedureOutput}
    (opened : b.pendingBlock.finalized = false)
    (ran : M.run (b.context E .user) tx b.pendingBlock.index (b.registers B) = .ok (writes,output))
    (merged : M.mergeable b.pendingBlock.ledgerState writes = true) :
    Searchable E M R S B tx b ↔
      (M.convertible output.events = true → ∀ err, output.err = some err → Safe R S B b (tried S err tx)) := by
  unfold Searchable
  rw [on_open opened]
  constructor
  · exact fun all convertible err failed => all writes output err ran merged convertible failed
  · rintro one writes' output' err ran' - convertible failed
    rw [ran] at ran'
    cases ran'
    exact one convertible err failed

/-- A transaction that is the next one is executed without a crash exactly if the search for the reason of its error has none. -/
theorem executeDebugged_returns_iff {tx : TransactionBody} (incomplete : b.pendingBlock.executionComplete = false)
    (next : b.pendingBlock.nextTransaction = some tx) :
    (∃ result, (executeDebugged E M R S B tx b).1 = .ok result) ↔ Searchable E M R S B tx b := by
  rw [executeDebugged_run]
  have executes := executeNextTransaction_executes E M B b
  generalize executeNextTransaction E M B b = out at executes ⊢
  cases executes with
  | exhausted complete => rw [incomplete] at complete; cases complete
  | missing _ none => rw [next] at none; cases none
  | failed other _ found message fatal =>
    obtain rfl := Option.some.inj (next.symm.trans found)
    refine iff_of_true ⟨_,rfl⟩ (fun writes output err ran => ?_)
    rw [fatal] at ran
    cases ran
  | unmerged other _ found writes output ran fatal opened =>
    obtain rfl := Option.some.inj (next.symm.trans found)
    refine iff_of_true ⟨_,rfl⟩ (fun writes' output' err ran' merged => ?_)
    rw [on_open opened,ran] at ran'
    cases ran'
    simp [fatal] at merged
  | executed other _ found writes output ran merged opened =>
    obtain rfl := Option.some.inj (next.symm.trans found)
    rw [searchable_ran opened ran merged]
    cases convertible : M.convertible output.events with
    | false => simp
    | true =>
      cases failed : output.err with
      | none => simp [failed]
      | some err =>
        have search : (∃ debug, debugSignatureError R S B err tx
            { b with pendingBlock := afterRun E ⟨b.context E .user,tx,writes,output⟩ b.pendingBlock } = .ok debug) ↔
            Safe R S B b (tried S err tx) :=
          (debugSignatureError_returns err tx).trans (safe_storage b
            { b with pendingBlock := afterRun E ⟨b.context E .user,tx,writes,output⟩ b.pendingBlock } rfl (tried S err tx))
        simp only [if_true,failed,true_implies,Option.some.injEq,forall_eq',← search]
        cases debugSignatureError R S B err tx
          { b with pendingBlock := afterRun E ⟨b.context E .user,tx,writes,output⟩ b.pendingBlock } <;> simp [Except.map]

/-- The execution of the next transaction returns exactly if the block is complete,
    or there is a next transaction that does not ask for the debugger in a session
    and, where it is run and fails, the signatures that are tried have their keys. -/
theorem executeNextTransaction_returns_iff (b : Blockchain σ) :
    (∃ result, (executeNextTransactionDebugged E M R S D B b).1 = .ok result) ↔
      b.pendingBlock.executionComplete = true ∨ ∃ tx, b.pendingBlock.nextTransaction = some tx ∧ D.pauses tx = false ∧
        Searchable E M R S B tx b := by
  rw [executeNextTransactionDebugged,bind_ok (view_run _ b)]
  cases complete : b.pendingBlock.executionComplete with
  | true => simp
  | false =>
    rw [if_neg (by decide)]
    cases next : b.pendingBlock.nextTransaction with
    | none => simp
    | some tx =>
      cases pauses : D.pauses tx with
      | true => simp [pauses]
      | false =>
        have search := executeDebugged_returns_iff (E := E) (M := M) (R := R) (S := S) (B := B) complete next
        simpa [pauses] using search

end

/-! ### A key that is added in the pending block -/

section
open FlowEmulator.Samples

/-- The register that tells whether the second key was added. -/
def secondKey : RegisterID := ⟨[],[2]⟩

/-- A machine on which transaction 1 adds a second key and transaction 2 has an invalid signature. -/
def keyMachine : Machine :=
  { machine with
    run := fun _ tx _ _ =>
      if tx.gasLimit = 1 then .ok (AList.singleton secondKey [1],⟨[],[],0,0,none⟩)
      else if tx.gasLimit = 2 then .ok (∅,⟨[],[],0,0,some ⟨1009,"invalid envelope key"⟩⟩)
      else .ok (∅,⟨[],[],0,0,none⟩) }

def keyReader : Reader :=
  { reader with
    getAccount := fun address registers =>
      .ok ⟨address,0,⟨0,[],.sha3_256,0,1000⟩ :: match registers secondKey with
        | .ok (_ :: _) => [⟨1,[],.sha3_256,0,1000⟩]
        | _ => []⟩ }

/-- The codes of the two errors, and a check that no signature passes. -/
def keySignatures : Signatures where
  hasErrorCode err kind := err.code = match kind with
    | .invalidEnvelopeSignature => 1009
    | .invalidPayloadSignature => 1008
  envelopeMessage _ := []
  payloadMessage _ := []
  verify _ _ _ _ := false

def noSession : Debugging := ⟨false,fun _ => []⟩

/-- Transaction 2, signed with the key of an index. -/
def signedWith (keyIndex : Nat) : TransactionBody := { numbered 2 with envelopeSignatures := [⟨1,keyIndex,[]⟩] }

/-- A transaction adds a key to an account, and the next one of the block is
    signed with it. The key is in the ledger of the pending block and not in the
    one of the latest block, and the execution of the next transaction crashes. -/
theorem pending_key_crashes : ∃ b first second third : Blockchain (Memstore.Store (List WriteSet)),
    newBlockchain numberEncoding keyMachine config (Memstore.backend numberEncoding .ofLists) tick false Memstore.new = .ok b ∧
    addTransaction numberEncoding keyMachine (Memstore.backend numberEncoding .ofLists) (numbered 1) b = (.ok (),first) ∧
    addTransaction numberEncoding keyMachine (Memstore.backend numberEncoding .ofLists) (signedWith 1) first = (.ok (),second) ∧
    executeNextTransactionDebugged numberEncoding keyMachine keyReader keySignatures noSession (Memstore.backend numberEncoding .ofLists)
      second = (.ok (.ok (⟨digest 1,⟨[],[],0,0,none⟩⟩,none)),third) ∧
    (∃ acc, accountIn keyReader 1 (third.registers (Memstore.backend numberEncoding .ofLists)) = .ok acc ∧ 1 < acc.keys.length) ∧
    (executeNextTransactionDebugged numberEncoding keyMachine keyReader keySignatures noSession (Memstore.backend numberEncoding .ofLists)
      third).1 = .error (.indexOutOfRange 1 1) :=
  ⟨_,_,_,_,rfl,rfl,rfl,rfl,⟨_,rfl,by decide⟩,rfl⟩

theorem executeNextTransaction_returns_iff_known : ∃ b first : Blockchain (Memstore.Store (List WriteSet)),
    newBlockchain numberEncoding keyMachine config (Memstore.backend numberEncoding .ofLists) tick false Memstore.new = .ok b ∧
    addTransaction numberEncoding keyMachine (Memstore.backend numberEncoding .ofLists) (signedWith 0) b = (.ok (),first) ∧
    ∃ result, (executeNextTransactionDebugged numberEncoding keyMachine keyReader keySignatures noSession
      (Memstore.backend numberEncoding .ofLists) first).1 = .ok result := by
  refine ⟨_,_,rfl,rfl,(executeNextTransaction_returns_iff _).mpr (.inr ⟨_,rfl,rfl,?_⟩)⟩
  rintro writes output err ran - - failed
  cases ran
  cases failed
  refine ⟨fun acc read => ?_,fun _ => trivial⟩
  cases read
  decide

end
end Blockchain
end FlowEmulator
