import FlowEmulator.Failures

/-!
The identity of a block that is being executed. No transaction can be added any
more and executing leaves what the header is made of, so only the clock can still
change the header: it does exactly when it is set to another millisecond. The
transactions that were executed before have then seen a header that is not stored.
-/
namespace FlowEmulator

/-- The block with another time. -/
def Block.atTime (time : Nat) (block : Block) : Block := { block with timestamp := time }

namespace Blockchain
open FlowEmulator.Fallible FlowEmulator.Run

/-- The requests that build a block: those that add and execute transactions or set the clock. -/
def Request.builds : Request → Bool
  | .addTransaction _ | .executeNextTransaction | .executeBlock | .setClock _ => true
  | _ => false

section
variable {σ : Type} (E : Encoding) (M : Machine) (config : Config) (B : Backend σ)

/-- The identity of the pending block stays what it is: its identifier is the same
    after each of the requests, all their runs have the header it has now, and
    this is the block that is committed in the end. -/
structure IdentityFixed (requests : List Request) (b : Blockchain σ) : Prop where
  id : ∀ front, front <+: requests → (play (request E M config B) front b).pendingBlock.id E = b.pendingBlock.id E
  executed : ∀ front r, front ++ [r] <+: requests →
    Throughout (call E M config B) (fun s _ => s.pendingBlock.block E = b.pendingBlock.block E)
      (callsOf E M B r (play (request E M config B) front b)) (play (request E M config B) front b)
  committed : ∀ tick block after,
    commitBlock E M config B tick (play (request E M config B) requests b) = (.ok block,after) →
      block = b.pendingBlock.block E ∧ E.blockID block = b.pendingBlock.id E

/-- The clock is set to the millisecond of the pending block only. -/
def ClockKept (requests : List Request) (b : Blockchain σ) : Prop :=
  ∀ now, .setClock now ∈ requests → now.milliseconds = b.pendingBlock.timestamp.milliseconds

/-- Execution has started, and the header is the given one except for the time. -/
structure Executing (header : Block) (b : Blockchain σ) : Prop where
  started : 0 < b.pendingBlock.index
  header : b.pendingBlock.block E = header.atTime b.pendingBlock.timestamp.milliseconds

/-- The calls of requests that build a block, and the times the clock may be set to. -/
def Harmless (times : Time → Prop) : Call → Prop
  | .addTransaction _ | .executeNextTransaction => True
  | .setClock now => times now
  | _ => False

end

section
variable {σ : Type} {E : Encoding} {M : Machine} {config : Config} {B : Backend σ}

theorem builds_harmless {times : Time → Prop} {r : Request} (builds : r.builds = true)
    (kept : ∀ now, r = .setClock now → times now) (b : Blockchain σ) : ∀ c ∈ callsOf E M B r b, Harmless times c := by
  intro c member
  cases r with
  | addTransaction tx =>
    rw [List.mem_singleton.mp member]
    trivial
  | executeNextTransaction =>
    rw [List.mem_singleton.mp member]
    trivial
  | executeBlock =>
    rw [callsOfExecuteBlock_next member]
    trivial
  | setClock now =>
    rw [List.mem_singleton.mp member]
    exact kept now rfl
  | _ => cases builds

/-- Calls that build a block change nothing but the time, once execution has started. -/
theorem executing_call {times : Time → Prop} {header : Block} (b : Blockchain σ) (c : Call) (harmless : Harmless times c)
    (executing : Executing E header b) : Executing E header (call E M config B c b) := by
  cases c with
  | addTransaction tx =>
    have adds := addTransaction_adds E M B tx b
    show Executing E header (addTransaction E M B tx b).2
    generalize addTransaction E M B tx b = out at adds ⊢
    cases adds with
    | added idle fresh missing valid =>
      have started := executing.started
      omega
    | _ => exact executing
  | executeNextTransaction =>
    have executes := executeNextTransaction_executes E M B b
    show Executing E header (executeNextTransaction E M B b).2
    generalize executeNextTransaction E M B b = out at executes ⊢
    cases executes with
    | exhausted complete => exact executing
    | missing incomplete next => exact executing
    | _ => exact ⟨Nat.succ_pos _,executing.header⟩
  | setClock now =>
    refine ⟨executing.started,?_⟩
    show (b.pendingBlock.block E).atTime now.milliseconds = _
    rw [executing.header]
    rfl
  | _ => cases harmless

/-- The clock alone changes the time. -/
theorem harmless_timestamp {times : Time → Prop} (b : Blockchain σ) (c : Call) (harmless : Harmless times c) :
    (call E M config B c b).pendingBlock.timestamp = b.pendingBlock.timestamp ∨
      times (call E M config B c b).pendingBlock.timestamp := by
  cases c with
  | addTransaction tx =>
    left
    have adds := addTransaction_adds E M B tx b
    show (addTransaction E M B tx b).2.pendingBlock.timestamp = _
    generalize addTransaction E M B tx b = out at adds ⊢
    cases adds <;> rfl
  | executeNextTransaction =>
    left
    have executes := executeNextTransaction_executes E M B b
    show (executeNextTransaction E M B b).2.pendingBlock.timestamp = _
    generalize executeNextTransaction E M B b = out at executes ⊢
    cases executes <;> rfl
  | setClock now => exact .inr harmless
  | _ => cases harmless

/-- Execution has started, and the header is the given one. -/
def Settled (E : Encoding) (header : Block) (b : Blockchain σ) : Prop :=
  0 < b.pendingBlock.index ∧ b.pendingBlock.block E = header

/-- A call that keeps the millisecond keeps the header. -/
theorem settled_call {header : Block} (b : Blockchain σ) (c : Call) (settled : Settled E header b)
    (harmless : Harmless (fun now => now.milliseconds = header.timestamp) c) : Settled E header (call E M config B c b) := by
  have before : b.pendingBlock.timestamp.milliseconds = header.timestamp := congrArg Block.timestamp settled.2
  have executing : Executing E header (call E M config B c b) :=
    executing_call b c harmless ⟨settled.1,settled.2.trans (by rw [before]; rfl)⟩
  have timestamp : (call E M config B c b).pendingBlock.timestamp.milliseconds = header.timestamp := by
    rcases harmless_timestamp b c harmless with same | kept
    · rw [same,before]
    · exact kept
  refine ⟨executing.started,executing.header.trans ?_⟩
  rw [timestamp]
  rfl

section
variable {b : Blockchain σ} (started : 0 < b.pendingBlock.index)
include started

theorem building_executing {requests : List Request} (build : ∀ r ∈ requests, r.builds = true) :
    Executing E (b.pendingBlock.block E) (play (request E M config B) requests b) := by
  have step (s : Blockchain σ) (r : Request) (executing : Executing E (b.pendingBlock.block E) s) (builds : r.builds = true) :
      Executing E (b.pendingBlock.block E) (request E M config B r s) := by
    have harmless : ∀ c ∈ callsOf E M B r s, Harmless (fun _ => True) c := builds_harmless builds (fun _ _ => trivial) s
    rw [request_calls]
    exact play_keeps (fun s c executing harmless => executing_call s c harmless executing) executing (throughout_all harmless)
  have kept := play_keeps step ⟨started,rfl⟩ (throughout_all build)
  exact kept

/-- While the clock is kept the header is. -/
theorem building_settled {requests : List Request} (build : ∀ r ∈ requests, r.builds = true) (kept : ClockKept requests b) :
    Settled E (b.pendingBlock.block E) (play (request E M config B) requests b) := by
  have step (s : Blockchain σ) (r : Request) (settled : Settled E (b.pendingBlock.block E) s)
      (member : r ∈ requests) : Settled E (b.pendingBlock.block E) (request E M config B r s) := by
    rw [request_calls]
    exact play_keeps settled_call settled (throughout_all (builds_harmless (build r member)
      (fun now same => kept now (same ▸ member)) s))
  have settled := play_keeps step ⟨started,rfl⟩ (throughout_all fun r member => member)
  exact settled

end

/-- The block that is committed is the pending one. -/
theorem committed_block {tick : Tick} {b after : Blockchain σ} {block : Block}
    (done : commitBlock E M config B tick b = (.ok block,after)) : block = b.pendingBlock.block E := by
  have commits : Commits E M config B tick b (commitBlock E M config B tick b) := commitBlock_commits tick b
  rw [done] at commits
  cases commits with
  | committed ready c made sealed storage run => exact sealed.block

/-- Once execution has started, the identity of the block is fixed exactly when
    the clock is kept to the millisecond. The identifiers of blocks that differ in
    their times are taken to differ for the times that the clock is set to. -/
theorem identityFixed_iff {requests : List Request} {b : Blockchain σ} (started : 0 < b.pendingBlock.index)
    (build : ∀ r ∈ requests, r.builds = true)
    (distinct : ∀ now, .setClock now ∈ requests →
      E.blockID ((b.pendingBlock.block E).atTime now.milliseconds) = b.pendingBlock.id E →
        now.milliseconds = b.pendingBlock.timestamp.milliseconds) :
    IdentityFixed E M config B requests b ↔ ClockKept requests b := by
  constructor
  · intro fixed now member
    obtain ⟨front,back,rfl⟩ := List.append_of_mem member
    have initial : front ++ [.setClock now] <+: front ++ .setClock now :: back := ⟨back,by simp⟩
    have executing : Executing E (b.pendingBlock.block E) (play (request E M config B) (front ++ [.setClock now]) b) :=
      building_executing started (fun r inside => build r (initial.subset inside))
    have timestamp : (play (request E M config B) (front ++ [.setClock now]) b).pendingBlock.timestamp = now := by
      rw [play_append]
      rfl
    refine distinct now member ?_
    rw [← fixed.id _ initial,PendingBlock.id,executing.header,timestamp]
  · intro kept
    have settled {front : List Request} (initial : front <+: requests) :
        Settled E (b.pendingBlock.block E) (play (request E M config B) front b) :=
      building_settled started (fun r inside => build r (initial.subset inside))
        (fun now inside => kept now (initial.subset inside))
    refine ⟨fun front initial => congrArg E.blockID (settled initial).2,fun front r initial => ?_,
      fun tick block after done => ?_⟩
    · have before := settled ((List.prefix_append front [r]).trans initial)
      have member : r ∈ requests := initial.subset (List.mem_append_right front List.mem_cons_self)
      exact throughout_keeps settled_call (fun s c settled => settled.2) before
        (throughout_all (builds_harmless (build r member) (fun now same => kept now (same ▸ member)) _))
    · have committed := committed_block done
      rw [(settled List.prefix_rfl).2] at committed
      exact ⟨committed,congrArg E.blockID committed⟩

end
/-! ### A clock that is set while a block is executed -/

section
open FlowEmulator.Samples FlowEmulator.Chronicle

/-- The encoding under which blocks with different times have different identifiers. -/
def clockEncoding : Encoding := { numberEncoding with blockID := fun b => digest (b.height + 256 * b.timestamp) }

/-- A time in a millisecond. -/
def instant (milliseconds : Nat) (positive : 1 ≤ milliseconds) : Time :=
  ⟨1000000*milliseconds+999999,by omega⟩

theorem instant_milliseconds (milliseconds : Nat) (positive : 1 ≤ milliseconds) :
    (instant milliseconds positive).milliseconds = milliseconds := by
  show (1000000*milliseconds+999999)/1000000 = milliseconds
  omega

theorem time_milliseconds : time.milliseconds = 1 := by decide

/-- The pending block of a new emulator, with one transaction that was executed. -/
def clockPending : PendingBlock :=
  let first := (newPendingBlock clockEncoding tick (genesis machine .emulator)).addTransaction clockEncoding (numbered 10)
  afterRun clockEncoding ⟨⟨.user,first.block clockEncoding,zeroID⟩,numbered 10,∅,⟨[],[],0,0,none⟩⟩ first

theorem clock_executed : ∃ storage : Sqlite.Store,
    Running clockEncoding machine config (Sqlite.backend clockEncoding .earliest) .ok ⟨storage,clockPending,zeroID,false⟩ ∧
    Accounted clockEncoding machine config [genesisContents machine config ∅ []] [genesisContents machine config ∅ []] 0
      ⟨storage,clockPending,zeroID,false⟩ := by
  have bootstrapped (registers : Registers) : machine.bootstrap config.getChainID registers = .ok (∅,[]) := rfl
  obtain ⟨storage,created,_,executed,accounted⟩ := sample_ran (E := clockEncoding) bootstrapped (numbered 10)
    (fun _ _ => rfl) (fun _ _ => rfl) rfl
  have first : Running clockEncoding machine config (Sqlite.backend clockEncoding .earliest) .ok
      ⟨storage,newPendingBlock clockEncoding tick (genesis machine .emulator),zeroID,false⟩ :=
    reachable_initial ⟨tick,false,_,created⟩
  have second := reachable_step (a := .request (.addTransaction (numbered 10))) first trivial
  have third := reachable_step (a := .request .executeNextTransaction) second trivial
  have last : act clockEncoding machine config (Sqlite.backend clockEncoding .earliest) .ok (.request .executeNextTransaction)
      (act clockEncoding machine config (Sqlite.backend clockEncoding .earliest) .ok (.request (.addTransaction (numbered 10)))
        ⟨storage,newPendingBlock clockEncoding tick (genesis machine .emulator),zeroID,false⟩) =
      ⟨storage,clockPending,zeroID,false⟩ := executed
  rw [last] at third
  exact ⟨storage,third,accounted⟩

theorem identityFixed_iff_same_clock : ∃ b : Blockchain Sqlite.Store, 0 < b.pendingBlock.index ∧
    IdentityFixed clockEncoding machine config (Sqlite.backend clockEncoding .earliest)
      [.addTransaction (numbered 11),.setClock (instant 1 (by decide)),.executeBlock] b := by
  obtain ⟨storage,_⟩ := clock_executed
  have kept (now : Time) (member : Request.setClock now ∈
      [.addTransaction (numbered 11),.setClock (instant 1 (by decide)),.executeBlock]) :
      now.milliseconds = clockPending.timestamp.milliseconds := by
    simp only [List.mem_cons,List.not_mem_nil,or_false,false_or,reduceCtorEq,Request.setClock.injEq] at member
    rw [member,instant_milliseconds]
    exact time_milliseconds.symm
  refine ⟨⟨storage,clockPending,zeroID,false⟩,Nat.zero_lt_one,(identityFixed_iff Nat.zero_lt_one ?_ ?_).mpr kept⟩
  · decide
  · exact fun now member _ => kept now member

/-- The clock is set after the transaction of the block was executed. The pending
    block has another identifier then, and the block is committed under this one,
    with a time the transaction has not seen. -/
theorem setClock_changes_identity : ∃ b block after,
    Running clockEncoding machine config (Sqlite.backend clockEncoding .earliest) .ok b ∧ 0 < b.pendingBlock.index ∧
    (request clockEncoding machine config (Sqlite.backend clockEncoding .earliest) (.setClock (instant 5 (by decide))) b).pendingBlock.id
      clockEncoding ≠ b.pendingBlock.id clockEncoding ∧
    commitBlock clockEncoding machine config (Sqlite.backend clockEncoding .earliest) tick
      (request clockEncoding machine config (Sqlite.backend clockEncoding .earliest) (.setClock (instant 5 (by decide))) b) =
        (.ok block,after) ∧
    clockEncoding.blockID block ≠ b.pendingBlock.id clockEncoding ∧
    block.timestamp = 5 ∧ (b.pendingBlock.block clockEncoding).timestamp = 1 := by
  obtain ⟨storage,running,accounted⟩ := clock_executed
  have later := accounted_setClock accounted (instant 5 (by decide))
  let b : Blockchain Sqlite.Store := ⟨storage,clockPending.setClock (instant 5 (by decide)),zeroID,false⟩
  have other : digest (1 + 256 * (instant 5 (by decide)).milliseconds) ≠ digest (1 + 256 * time.milliseconds) := by
    rw [instant_milliseconds,time_milliseconds]
    decide
  obtain ⟨c,made,counted,block⟩ : ∃ c, (sealBlock clockEncoding machine config (Sqlite.backend clockEncoding .earliest) b).1 =
      .ok c ∧ c.Counted ∧ c.block = b.pendingBlock.block clockEncoding := by
    have tracked : Tracked clockEncoding b.pendingBlock := later.underway.tracked
    have ended : (attempted clockEncoding machine config (Sqlite.backend clockEncoding .earliest) b).2 = .ok (_,_) := rfl
    exact ⟨_,rfl,(sealed_counted tracked.listed (sealed_attempted ended)).mpr ⟨rfl,List.nodup_singleton _⟩,rfl⟩
  obtain ⟨after,run,_⟩ := accounted_commit_succeeds later tick rfl made counted
  refine ⟨_,c.block,after,running,Nat.zero_lt_one,other,run,?_,?_,?_⟩
  · rw [block]
    exact other
  · rw [block]
    exact instant_milliseconds 5 (by decide)
  · exact time_milliseconds

end
end Blockchain
end FlowEmulator
