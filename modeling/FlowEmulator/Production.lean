import FlowEmulator.Sessions

/-!
How the blocks of a chain were produced. Each block above the first has the runs
of its transactions, those of users and then those of the system, one after the
other on the ledger of the block below it; its write set, its events and its
results are those of the runs. Sessions keep this as long as no pending block is
committed again after a commit of it has failed.
-/
namespace FlowEmulator
open FlowEmulator.VersionedTable (lastWrite lastWrite_congr)

/-- The registers of a chain at a height. -/
def ledgerAt (cs : List BlockContents) (height : Nat) : RegisterID → RegisterValue :=
  fun r => (lastWrite (writesAt cs r) height).getD []

/-- The ledger at a block is its write set over the ledger at the block below it. -/
theorem ledgerAt_succ {cs : List BlockContents} {height : Nat} {c : BlockContents} (here : cs[height+1]? = some c) :
    ledgerAt cs (height+1) = overlay c.executionSnapshot (ledgerAt cs height) := by
  funext r
  have written : writesAt cs r (height+1) = c.executionSnapshot.lookup r := by
    unfold writesAt
    rw [here]
    rfl
  unfold ledgerAt overlay
  rw [lastWrite,written]
  cases c.executionSnapshot.lookup r <;> rfl

theorem ledgerAt_congr {cs ds : List BlockContents} {height : Nat} (same : ∀ n ≤ height, cs[n]? = ds[n]?) :
    ledgerAt cs height = ledgerAt ds height := by
  funext r
  have each (n : Nat) (low : n ≤ height) : writesAt cs r n = writesAt ds r n := by
    unfold writesAt
    rw [same n low]
  unfold ledgerAt
  rw [lastWrite_congr each]

theorem ledgerAt_append {cs : List BlockContents} {height : Nat} (inside : height < cs.length) (later : List BlockContents) :
    ledgerAt (cs ++ later) height = ledgerAt cs height :=
  ledgerAt_congr (fun n low => List.getElem?_append_left (by omega))

theorem ledgerAt_take {height n : Nat} (below : height < n) (cs : List BlockContents) :
    ledgerAt (cs.take n) height = ledgerAt cs height :=
  ledgerAt_congr (fun m low => List.getElem?_take_of_lt (by omega))

/-- Above the last block the ledger stays as it is there. -/
theorem ledgerAt_above {cs : List BlockContents} {latest height : Nat} (count : cs.length = latest+1) (above : latest ≤ height) :
    ledgerAt cs height = ledgerAt cs latest := by
  induction height, above using Nat.le_induction with
  | base => rfl
  | succ height above ih =>
    rw [← ih]
    funext r
    have none : writesAt cs r (height+1) = none := by
      unfold writesAt
      rw [List.getElem?_eq_none (by omega)]
      rfl
    unfold ledgerAt
    rw [lastWrite,none]
    rfl

namespace Chronicle
open FlowEmulator.Fallible FlowEmulator.Blockchain FlowEmulator.Run
open FlowEmulator.Sqlite (Choices)

/-- The block was made from a pending block with the runs of its transactions of
    users, by the runs of the system transactions after them. -/
structure Made (E : Encoding) (M : Machine) (config : Config) (base : Registers) (p : PendingBlock)
    (users system : List Execution) (c : BlockContents) : Prop where
  listed : Listed E p
  intact : Intact E M base p users
  complete : p.index = p.size
  sealed : Sealed E M config base p system c
  counted : c.Counted

/-- The registers of a ledger as the virtual machine reads them. -/
def reading (ledger : RegisterID → RegisterValue) : Registers := fun r => .ok (ledger r)

/-- The runs of the pending block are there, or one is missing and it cannot be committed. -/
def Progressed (E : Encoding) (M : Machine) (choices : Choices) (b : Blockchain Sqlite.Store) : Prop :=
  (∃ runs, Intact E M (b.base (Sqlite.backend E choices)) b.pendingBlock runs) ∨ Broken b.pendingBlock

/-- Each block above the first was made on the ledger below it, and so is the
    pending block being made, unless a commit of it has failed. -/
structure Traced (E : Encoding) (M : Machine) (config : Config) (choices : Choices) (cs : List BlockContents) (latest : Nat)
    (x : Session) : Prop where
  accounted : Accounted E M config cs x.seen latest x.emulator
  blocks : ∀ i c, cs[i+1]? = some c → ∃ p users system, Made E M config (reading (ledgerAt cs i)) p users system c
  progress : x.tainted = false → Progressed E M choices x.emulator

/-- A pending block is not committed again after a commit of it has failed. -/
def NotRetried (x : Session) : Call → Prop
  | .commitBlock _ => x.tainted = true → x.emulator.pendingBlock.index < x.emulator.pendingBlock.size
  | _ => True

section
variable {E : Encoding} {M : Machine} {config : Config} {choices : Choices} {cs seen : List BlockContents} {latest : Nat}
  {b after : Blockchain Sqlite.Store} {x : Session}

/-- The ledger of the store at a height. -/
theorem stored_ledger (choices : Choices) {s : Sqlite.Store} (stored : Stored E M config cs seen latest s) (height : Nat) :
    (fun r => (Sqlite.backend E choices).ledgerByHeight height r s) = reading (ledgerAt cs height) :=
  funext fun r => Sqlite.archived_ledger choices stored.archived stored.recorded.chain height r

/-- A block that is found at a height is the block of the chain at that place. -/
theorem stored_found {s : Sqlite.Store} (stored : Stored E M config cs seen latest s) {height : Nat} {block : Block}
    (found : (Sqlite.backend E choices).blockByHeight height s = .ok block) :
    ∃ c ∈ seen, c.block = block ∧ cs[height]? = some c := by
  obtain ⟨c,here,rfl,place⟩ := Sqlite.recorded_found choices stored.recorded found
  obtain ⟨i,atI⟩ := List.mem_iff_getElem?.mp here
  have index : i = height := by
    rw [← place,(chain_getElem stored.recorded.chain atI).1,Nat.zero_add]
  subst index
  exact ⟨c,stored.archived.known c here,rfl,atI⟩

/-- The pending block is on the ledger of the latest block. -/
theorem accounted_base (choices : Choices) (accounted : Accounted E M config cs seen latest b) :
    b.base (Sqlite.backend E choices) = reading (ledgerAt cs latest) := by
  unfold base
  rw [accounted.underway.ledgerHeight]
  exact stored_ledger choices accounted.stored latest

theorem progressed_new {tick : Tick} {block : Block} (pending : after.pendingBlock = newPendingBlock E tick block) :
    Progressed E M choices after := by
  unfold Progressed
  rw [pending]
  exact .inl ⟨[],intact_new E M _ tick block⟩

theorem progressed_add (accounted : Accounted E M config cs seen latest b) (progress : Progressed E M choices b)
    (tx : TransactionBody) : Progressed E M choices (addTransaction E M (Sqlite.backend E choices) tx b).2 := by
  have adds := addTransaction_adds E M (Sqlite.backend E choices) tx b
  rcases progress with ⟨runs,intact⟩ | broken
  · exact .inl ⟨runs,adds_intact adds accounted.underway.tracked.listed intact⟩
  · exact .inr (adds_broken adds broken)

theorem progressed_execute (accounted : Accounted E M config cs seen latest b) (progress : Progressed E M choices b) :
    Progressed E M choices (executeNextTransaction E M (Sqlite.backend E choices) b).2 := by
  have executes := executeNextTransaction_executes E M (Sqlite.backend E choices) b
  rcases progress with ⟨runs,intact⟩ | broken
  · exact (executes_intact executes accounted.underway.tracked.listed intact).imp_right And.right
  · exact .inr (executes_broken executes broken)

/-- A block that is committed without an earlier attempt was made. -/
theorem made_saved (accounted : Accounted E M config cs seen latest b) (progress : Progressed E M choices b)
    (ready : b.pendingBlock.size ≤ b.pendingBlock.index) {system : List Execution} {c : BlockContents} (counted : c.Counted)
    (sealed : Sealed E M config (b.base (Sqlite.backend E choices)) b.pendingBlock system c) :
    ∃ p users system, Made E M config (reading (ledgerAt cs latest)) p users system c := by
  have listed := accounted.underway.tracked.listed
  have count := ((sealed_counted listed sealed).mp counted).1
  have complete : b.pendingBlock.index = b.pendingBlock.size := Nat.le_antisymm listed.bound ready
  rw [accounted_base choices accounted] at sealed
  rcases progress with ⟨users,intact⟩ | broken
  · rw [accounted_base choices accounted] at intact
    exact ⟨_,users,system,listed,intact,complete,sealed,counted⟩
  · unfold Broken at broken
    omega

/-- Blocks that were made stay made when the chain grows or is cut. -/
theorem made_congr {ds : List BlockContents} {i : Nat} (same : ledgerAt ds i = ledgerAt cs i) {c : BlockContents}
    (made : ∃ p users system, Made E M config (reading (ledgerAt cs i)) p users system c) :
    ∃ p users system, Made E M config (reading (ledgerAt ds i)) p users system c := by
  rw [same]
  exact made

theorem traced_started {x : Session} (started : Started E M config choices x) :
    ∃ cs latest, Traced E M config choices cs latest x := by
  obtain ⟨_,_,_,seen,pending,accounted⟩ := started_accounted started
  refine ⟨x.seen,0,accounted,fun i c above => ?_,fun _ => progressed_new pending⟩
  rw [seen] at above
  cases above

/-- A commit under the condition. -/
theorem traced_commit (traced : Traced E M config choices cs latest x) (tick : Tick) (once : NotRetried x (.commitBlock tick)) :
    ∃ cs latest, Traced E M config choices cs latest (take E M config choices (.commitBlock tick) x) := by
  have accounted := traced.accounted
  have committed : Committed E M config choices cs x.seen latest tick x.emulator _ := accounted_commit accounted tick
  rcases run : commitBlock E M config (Sqlite.backend E choices) tick x.emulator with ⟨result,after⟩
  rw [run] at committed
  cases committed with
  | failed e _ runs pending waiting still =>
    rw [take_commit_failed run]
    refine ⟨cs,latest,still,traced.blocks,fun clean => ?_⟩
    -- a commit that leaves no taint was refused, and recorded nothing
    obtain ⟨before,refused⟩ := Bool.or_eq_false_iff.mp clean
    have left := waiting (Nat.lt_of_not_le (of_decide_eq_false refused))
    have same : after.base (Sqlite.backend E choices) = x.emulator.base (Sqlite.backend E choices) := by
      rw [accounted_base choices still,accounted_base choices accounted]
    unfold Progressed
    rw [left,same]
    exact traced.progress before
  | saved c _ ready made counted sealed pending longer =>
    rw [take_commit_saved run made]
    have clean : x.tainted = false := by
      by_contra retried
      exact absurd (once (by simpa using retried)) (Nat.not_lt.mpr ready)
    have count : cs.length = latest+1 := by have := accounted.stored.recorded.count; omega
    refine ⟨cs ++ [c],latest+1,longer,fun i d here => ?_,fun _ => progressed_new pending⟩
    obtain ⟨inside,_⟩ := List.getElem?_eq_some_iff.mp here
    have low : i < cs.length := by simp at inside; omega
    refine made_congr (ledgerAt_append low [c]) ?_
    by_cases last : i+1 = cs.length
    · rw [last,List.getElem?_concat_length] at here
      cases here
      obtain rfl : i = latest := by omega
      exact made_saved accounted (traced.progress clean) ready counted sealed
    · rw [List.getElem?_append_left (by omega)] at here
      exact traced.blocks i d here

theorem traced_take (x : Session) (c : Call) (traced : ∃ cs latest, Traced E M config choices cs latest x)
    (once : NotRetried x c) : ∃ cs latest, Traced E M config choices cs latest (take E M config choices c x) := by
  obtain ⟨cs,latest,traced⟩ := traced
  have accounted := traced.accounted
  have same {b : Blockchain Sqlite.Store} {accepted : List Identifier} {tainted : Bool}
      (still : Accounted E M config cs x.seen latest b) (progress : tainted = false → Progressed E M choices b) :
      ∃ cs latest, Traced E M config choices cs latest ⟨b,x.seen ++ [],accepted,tainted⟩ := by
    refine ⟨cs,latest,?_,traced.blocks,progress⟩
    rw [List.append_nil]
    exact still
  cases c with
  | addTransaction tx =>
    exact same (accounted_add accounted tx) (fun clean => progressed_add accounted (traced.progress clean) tx)
  | executeNextTransaction =>
    exact same (accounted_execute accounted) (fun clean => progressed_execute accounted (traced.progress clean))
  | commitBlock tick => exact traced_commit traced tick once
  | resetPendingBlock tick =>
    refine same (accounted_reset accounted.stored tick) (fun _ => ?_)
    have done : ∃ block, (Sqlite.backend E choices).latestBlock x.emulator.storage = .ok block ∧
        resetPendingBlock E (Sqlite.backend E choices) tick x.emulator =
          (.ok (),{ x.emulator with pendingBlock := newPendingBlock E tick block }) := reset_succeeds accounted.stored tick
    obtain ⟨block,_,done⟩ := done
    show Progressed E M choices (resetPendingBlock E (Sqlite.backend E choices) tick x.emulator).2
    rw [done]
    exact progressed_new rfl
  | setClock now =>
    refine same (accounted_setClock accounted now) (fun clean => ?_)
    rcases traced.progress clean with ⟨runs,intact⟩ | broken
    · exact .inl ⟨runs,intact.ids,intact.bodies,intact.results,intact.events,intact.ledger,intact.trail⟩
    · exact .inr broken
  | setAutoMine on => exact same (accounted_setAutoMine accounted on) (fun clean => traced.progress clean)

theorem traced_rollBack (x : Session) (tick : Tick) (height : Nat)
    (traced : ∃ cs latest, Traced E M config choices cs latest x) :
    ∃ cs latest, Traced E M config choices cs latest (rollBack E M config choices tick height x) := by
  obtain ⟨cs,latest,traced⟩ := traced
  rcases accounted_rollback traced.accounted tick height with refused | ⟨below,done,⟨block,pending⟩,cut⟩
  · have same : rollBack E M config choices tick height x = x := by
      unfold rollBack
      rw [refused]
    rw [same]
    exact ⟨cs,latest,traced⟩
  · refine ⟨cs.take (height+1),height,cut,fun i c here => ?_,fun _ => progressed_new pending⟩
    obtain ⟨inside,_⟩ := List.getElem?_eq_some_iff.mp here
    have low : i+1 < height+1 := by simp at inside; omega
    rw [List.getElem?_take_of_lt low] at here
    exact made_congr (ledgerAt_take (by omega) cs) (traced.blocks i c here)

/-- In every session without retried commits each block was made on the ledger below it. -/
theorem reached_traced {x : Session} (reached : Reached E M config choices NotRetried x) :
    ∃ cs latest, Traced E M config choices cs latest x :=
  reached_keeps (fun _ => traced_started) traced_take traced_rollBack reached

open FlowEmulator.Samples in
theorem sample_notRetried {start : Session} {c : BlockContents} (sample : SampleBlock start c) :
    Reached numberEncoding scheduler scheduledConfig .earliest NotRetried (sampleCommitted start) := by
  refine sample_reached sample.started trivial trivial (fun tainted => ?_)
  have tainted : start.tainted = true := tainted
  rw [sample.untainted] at tainted
  cases tainted

end
end Chronicle
end FlowEmulator
