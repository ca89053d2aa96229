import FlowEmulator.Queries
import FlowEmulator.Rounds
import FlowEmulator.Samples

/-!
The queries of events for some blocks and for a range of heights. Both collect
the events block by block and stop at the first read that fails; what they return
as their error is not the error of the read, so an answer that was cut short
looks like a complete one (`nothing_dropped_iff`). The range is counted in 64
bits.
-/
namespace FlowEmulator.EventQueries
open FlowEmulator.Fallible FlowEmulator.Rounds

/-- The events of a block as clients see them. The time is in milliseconds. -/
structure BlockEvents where
  blockID : Identifier
  blockHeight : Nat
  blockTimestamp : Int
  events : List Event
deriving DecidableEq

/-- What a query returns. -/
structure Reply where
  result : List BlockEvents
  err : Option StoreError

/-- The reads of a storage. What a read answers may depend on the reads before it. -/
structure Reader (σ : Type) where
  blockByID : Identifier → StoreM σ Block
  blockByHeight : Nat → StoreM σ Block
  eventsByHeight : Nat → String → StoreM σ (List Event)

/-- The reads of a store, which do not change it. -/
def Reader.of {σ : Type} (S : Store σ) : Reader σ where
  blockByID id := attempt (S.blockByID id)
  blockByHeight height := attempt (S.blockByHeight height)
  eventsByHeight height eventType := attempt (S.eventsByHeight height eventType)

/-- A read that failed. -/
inductive FailedRead where
  | blockByID (id : Identifier) (e : StoreError)
  | blockByHeight (height : Nat) (e : StoreError)
  | eventsByHeight (height : Nat) (e : StoreError)

/-- A read whose failure is told apart. -/
def noting {σ α : Type} (failed : StoreError → FailedRead) (read : StoreM σ α) : Fallible FailedRead σ α :=
  inside id (fun after _ => after) failed read

section
variable {σ : Type} (E : Encoding) (R : Reader σ) (eventType : String)

/-- The time of a timestamp, which is converted to a signed number of 64 bits. -/
def unixMilli (timestamp : Nat) : Int := (timestamp : Int).bmod (2^64)

/-- The entry of a block. -/
def entryOf (block : Block) (events : List Event) : BlockEvents :=
  ⟨E.blockID block,block.height,unixMilli block.timestamp,events⟩

/-- One turn of the loop in `GetEventsForBlockIDs`. -/
def eventsForBlockID (blockID : Identifier) : Fallible FailedRead σ BlockEvents := do
  let block ← noting (.blockByID blockID) (R.blockByID blockID)
  let events ← noting (.eventsByHeight block.height) (R.eventsByHeight block.height eventType)
  pure (entryOf E block events)

/-- The reads of one turn of the loop in `GetEventsForHeightRange`. -/
def eventsForHeight (height : Nat) : Fallible FailedRead σ BlockEvents := do
  let block ← noting (.blockByHeight height) (R.blockByHeight height)
  let events ← noting (.eventsByHeight height) (R.eventsByHeight height eventType)
  pure (entryOf E block events)

def getEventsForBlockIDs (blockIDs : List Identifier) (s : σ) : Reply × σ :=
  let returned := forEach (eventsForBlockID E R eventType) blockIDs s
  -- The errors of the reads are assigned to a variable of the loop, which hides the one that is returned.
  (⟨returned.results,none⟩,returned.state)

/-- One turn of the loop in `GetEventsForHeightRange`, which counts the height up in 64 bits. -/
def heightTurn (x : UInt64 × σ) : Except FailedRead BlockEvents × (UInt64 × σ) :=
  match eventsForHeight E R eventType x.1.toNat x.2 with
  | (.ok entry,after) => (.ok entry,x.1+1,after)
  | (.error failed,after) => (.error failed,x.1,after)

/-- The condition of the loop in `GetEventsForHeightRange`. -/
def inRange (endHeight : UInt64) (x : UInt64 × σ) : Bool := decide (x.1 ≤ endHeight)

/-- The loop over the heights, for a number of turns at most. -/
def heightLoop (endHeight : UInt64) (bound : Nat) (x : UInt64 × σ) : Returned (UInt64 × σ) FailedRead BlockEvents :=
  loop (inRange endHeight) (heightTurn E R eventType) bound x

/-- The call has returned after a number of turns at most. -/
def HasReturned (startHeight endHeight : UInt64) (bound : Nat) (s : σ) : Prop :=
  Ended (inRange endHeight) (heightLoop E R eventType endHeight bound (startHeight,s))

def getEventsForHeightRange (startHeight endHeight : UInt64) (bound : Nat) (s : σ) : Reply × σ :=
  let returned := heightLoop E R eventType endHeight bound (startHeight,s)
  -- The same as for block IDs: the error that is returned is never assigned.
  (⟨returned.results,none⟩,returned.state.2)

/-! ### What should be returned -/

/-- There is one entry for each identifier, in order, under this identifier and with
    the height of the block and the events that are read for it. -/
inductive OneEach : List Identifier → σ → List BlockEvents → Prop where
  | nil (s : σ) : OneEach [] s []
  | cons {blockID : Identifier} {blockIDs : List Identifier} {s t u : σ} {block : Block} {entry : BlockEvents}
      {entries : List BlockEvents} (block_read : R.blockByID blockID s = (.ok block,t))
      (events_read : R.eventsByHeight block.height eventType t = (.ok entry.events,u))
      (entry_id : entry.blockID = blockID) (entry_height : entry.blockHeight = block.height)
      (later : OneEach blockIDs u entries) : OneEach (blockID :: blockIDs) s (entry :: entries)

/-- For each identifier in turn a block with this identifier is read, and its events are. -/
def Answered : List Identifier → σ → Prop
  | [], _ => True
  | blockID :: rest, s => ∃ block t events u, R.blockByID blockID s = (.ok block,t) ∧
      R.eventsByHeight block.height eventType t = (.ok events,u) ∧ E.blockID block = blockID ∧ Answered rest u

/-- No read failed, unless it looked up a height above the latest. -/
def FailedAbove (latest : Nat) (failed : Option FailedRead) : Prop :=
  ∀ read, failed = some read → ∃ height e, read = .blockByHeight height e ∧ latest < height

/-- No height above the latest has a block. -/
def NoneAbove (latest : Nat) : Prop := ∀ height s, latest < height → ∃ e, (R.blockByHeight height s).1 = .error e

/-- The heights of a range up to the latest. -/
def heightsUpTo (latest : Nat) (startHeight endHeight : UInt64) : List Nat :=
  List.range' startHeight.toNat (min endHeight.toNat latest + 1 - startHeight.toNat)

end

section
variable {σ α : Type} {E : Encoding} {R : Reader σ} {eventType : String}

/-! ### What one turn does -/

theorem noting_ok {failed : StoreError → FailedRead} {read : StoreM σ α} {s t : σ} {a : α} :
    noting failed read s = (.ok a,t) ↔ read s = (.ok a,t) := by
  rcases run : read s with ⟨e | b,after⟩
  · have error : noting failed read s = (.error (failed e),after) := inside_error run
    simp [error]
  · have done : noting failed read s = (.ok b,after) := inside_ok run
    simp [done]

theorem noting_error {failed : StoreError → FailedRead} {read : StoreM σ α} {s t : σ} {e : StoreError}
    (run : read s = (.error e,t)) : noting failed read s = (.error (failed e),t) := inside_error run

theorem eventsForBlockID_ok {blockID : Identifier} {s u : σ} {entry : BlockEvents} :
    eventsForBlockID E R eventType blockID s = (.ok entry,u) ↔ ∃ block t events,
      R.blockByID blockID s = (.ok block,t) ∧ R.eventsByHeight block.height eventType t = (.ok events,u) ∧
        entry = entryOf E block events := by
  simp only [eventsForBlockID,bind_eq_ok,noting_ok,pure_run,Prod.mk.injEq,Except.ok.injEq]
  constructor
  · rintro ⟨block,t,blockRead,events,u,eventsRead,rfl,rfl⟩
    exact ⟨block,t,events,blockRead,eventsRead,rfl⟩
  · rintro ⟨block,t,events,blockRead,eventsRead,rfl⟩
    exact ⟨block,t,blockRead,events,u,eventsRead,rfl,rfl⟩

/-- The reads for a height: the block is not read, or its events are not, or both are. -/
theorem eventsForHeight_cases (E : Encoding) (R : Reader σ) (eventType : String) (height : Nat) (s : σ) :
    (∃ e t, eventsForHeight E R eventType height s = (.error (.blockByHeight height e),t)) ∨
      ∃ block t, R.blockByHeight height s = (.ok block,t) ∧
        ((∃ e u, eventsForHeight E R eventType height s = (.error (.eventsByHeight height e),u)) ∨
          ∃ events u, R.eventsByHeight height eventType t = (.ok events,u) ∧
            eventsForHeight E R eventType height s = (.ok (entryOf E block events),u)) := by
  unfold eventsForHeight
  rcases blockRead : R.blockByHeight height s with ⟨e | block,t⟩
  · exact .inl ⟨e,t,bind_error (noting_error blockRead) _⟩
  · refine .inr ⟨block,t,rfl,?_⟩
    rw [bind_ok (noting_ok.mpr blockRead)]
    rcases eventsRead : R.eventsByHeight height eventType t with ⟨e | events,u⟩
    · exact .inl ⟨e,u,bind_error (noting_error eventsRead) _⟩
    · exact .inr ⟨events,u,rfl,bind_ok (noting_ok.mpr eventsRead) _⟩

theorem heightTurn_ok {height : UInt64} {s t : σ} {entry : BlockEvents}
    (done : eventsForHeight E R eventType height.toNat s = (.ok entry,t)) :
    heightTurn E R eventType (height,s) = (.ok entry,height+1,t) := by
  unfold heightTurn
  simp only [done]

theorem heightTurn_error {height : UInt64} {s t : σ} {failed : FailedRead}
    (run : eventsForHeight E R eventType height.toNat s = (.error failed,t)) :
    heightTurn E R eventType (height,s) = (.error failed,height,t) := by
  unfold heightTurn
  simp only [run]

/-! ### The heights that are counted -/

theorem toNat_next {height : UInt64} (small : height.toNat < 2^64-1) : (height+1).toNat = height.toNat+1 := by
  rw [UInt64.toNat_add]
  exact Nat.mod_eq_of_lt (by simp; omega)

theorem heightsUpTo_nil {latest : Nat} {startHeight endHeight : UInt64}
    (past : min endHeight.toNat latest < startHeight.toNat) : heightsUpTo latest startHeight endHeight = [] := by
  have none : min endHeight.toNat latest + 1 - startHeight.toNat = 0 := by omega
  rw [heightsUpTo,none]
  rfl

theorem heightsUpTo_cons {latest : Nat} {startHeight endHeight : UInt64} (small : startHeight.toNat < 2^64-1)
    (inside : startHeight.toNat ≤ endHeight.toNat) (low : startHeight.toNat ≤ latest) :
    heightsUpTo latest startHeight endHeight = startHeight.toNat :: heightsUpTo latest (startHeight+1) endHeight := by
  have count : min endHeight.toNat latest + 1 - startHeight.toNat =
      min endHeight.toNat latest + 1 - (startHeight.toNat+1) + 1 := by omega
  rw [heightsUpTo,heightsUpTo,toNat_next small,count,List.range'_succ]

/-! ### Which answers are complete -/

theorem oneEach_iff (blockIDs : List Identifier) (s : σ) :
    OneEach R eventType blockIDs s (getEventsForBlockIDs E R eventType blockIDs s).1.result ↔
      Answered E R eventType blockIDs s := by
  show OneEach R eventType blockIDs s (forEach (eventsForBlockID E R eventType) blockIDs s).results ↔ _
  induction blockIDs generalizing s with
  | nil => exact iff_of_true (.nil s) trivial
  | cons blockID rest ih =>
    rcases run : eventsForBlockID E R eventType blockID s with ⟨failed | entry,t⟩
    · rw [forEach_error run]
      refine iff_of_false (fun each => by cases each) ?_
      rintro ⟨block,middle,events,after,blockRead,eventsRead,_,_⟩
      have done := eventsForBlockID_ok.mpr ⟨block,middle,events,blockRead,eventsRead,(rfl : entryOf E block events = _)⟩
      rw [run] at done
      cases done
    · obtain ⟨block,middle,events,blockRead,eventsRead,rfl⟩ := eventsForBlockID_ok.mp run
      rw [forEach_ok run]
      constructor
      · intro each
        cases each with
        | cons again events_again named _ later =>
          rw [blockRead] at again
          cases again
          rw [eventsRead] at events_again
          cases events_again
          exact ⟨block,middle,events,t,blockRead,eventsRead,named,(ih t).mp later⟩
      · rintro ⟨other,_,_,_,again,events_again,named,later⟩
        rw [blockRead] at again
        cases again
        rw [eventsRead] at events_again
        cases events_again
        exact .cons blockRead eventsRead named rfl ((ih t).mpr later)

section
variable {startHeight endHeight : UInt64} {bound : Nat} {s t : σ}

theorem inRange_iff : inRange endHeight (startHeight,s) = true ↔ startHeight.toNat ≤ endHeight.toNat := by
  unfold inRange
  rw [decide_eq_true_iff,UInt64.le_iff_toNat_le]

theorem inRange_past : inRange endHeight (startHeight,s) = false ↔ endHeight.toNat < startHeight.toNat := by
  rw [← Bool.not_eq_true,inRange_iff,Nat.not_le]

theorem heightLoop_stop (past : endHeight.toNat < startHeight.toNat) :
    heightLoop E R eventType endHeight bound (startHeight,s) = ⟨[],none,startHeight,s⟩ :=
  loop_stop (inRange_past.mpr past) bound

theorem heightLoop_error (go : startHeight.toNat ≤ endHeight.toNat) {failed : FailedRead}
    (run : eventsForHeight E R eventType startHeight.toNat s = (.error failed,t)) :
    heightLoop E R eventType endHeight (bound+1) (startHeight,s) = ⟨[],some failed,startHeight,t⟩ :=
  loop_error (inRange_iff.mpr go) (heightTurn_error run) bound

theorem heightLoop_ok (go : startHeight.toNat ≤ endHeight.toNat) {entry : BlockEvents}
    (done : eventsForHeight E R eventType startHeight.toNat s = (.ok entry,t)) :
    heightLoop E R eventType endHeight (bound+1) (startHeight,s) =
      (heightLoop E R eventType endHeight bound (startHeight+1,t)).after entry :=
  loop_ok (inRange_iff.mpr go) (heightTurn_ok done) bound

/-- A call that has returned has made all its turns. -/
theorem hasReturned_zero (returned : HasReturned E R eventType startHeight endHeight 0 s) :
    endHeight.toNat < startHeight.toNat := by
  rcases returned with failed | stop
  · cases failed
  · exact inRange_past.mp stop

theorem hasReturned_ok (go : startHeight.toNat ≤ endHeight.toNat) {entry : BlockEvents}
    (done : eventsForHeight E R eventType startHeight.toNat s = (.ok entry,t))
    (returned : HasReturned E R eventType startHeight endHeight (bound+1) s) :
    HasReturned E R eventType (startHeight+1) endHeight bound t := by
  unfold HasReturned at returned
  rw [heightLoop_ok go done] at returned
  exact returned

theorem failedAbove_block {latest height : Nat} {e : StoreError} :
    FailedAbove latest (some (.blockByHeight height e)) ↔ latest < height := by
  constructor
  · intro failed
    obtain ⟨_,_,same,above⟩ := failed _ rfl
    cases same
    exact above
  · intro above read same
    cases same
    exact ⟨height,e,rfl,above⟩

/-- A height whose block is read is not above the latest. -/
theorem readable_low {latest height : Nat} (vacant : NoneAbove R latest) {block : Block}
    (read : R.blockByHeight height s = (.ok block,t)) : height ≤ latest := by
  by_contra above
  obtain ⟨e,failed⟩ := vacant height s (by omega)
  rw [read] at failed
  cases failed

/-- Where the reads of the first height fail, not all of them succeed. -/
theorem not_readable {latest : Nat} (low : startHeight.toNat ≤ latest) (go : startHeight.toNat ≤ endHeight.toNat)
    {failed : FailedRead} (run : eventsForHeight E R eventType startHeight.toNat s = (.error failed,t)) :
    ¬ (min endHeight.toNat latest < 2^64-1 ∧
      Succeeds (eventsForHeight E R eventType) (heightsUpTo latest startHeight endHeight) s) := by
  rintro ⟨small,all⟩
  rw [heightsUpTo_cons (by omega) go low] at all
  obtain ⟨_,_,done,_⟩ := all
  rw [run] at done
  cases done

/-- A call that has returned failed to read nothing but a height above the latest
    exactly when all heights up to the latest can be read, and the last of them
    is not the last height there is, after which the count would begin anew. -/
theorem failedAbove_iff {latest : Nat} (vacant : NoneAbove R latest)
    (returned : HasReturned E R eventType startHeight endHeight bound s) :
    FailedAbove latest (heightLoop E R eventType endHeight bound (startHeight,s)).error ↔
      min endHeight.toNat latest < 2^64-1 ∧
        Succeeds (eventsForHeight E R eventType) (heightsUpTo latest startHeight endHeight) s := by
  induction bound generalizing startHeight s with
  | zero =>
    have past := hasReturned_zero returned
    have finite := startHeight.toNat_lt
    rw [heightLoop_stop past,heightsUpTo_nil (by omega)]
    exact iff_of_true (fun _ absent => nomatch absent) ⟨by omega,trivial⟩
  | succ bound ih =>
    have finite := startHeight.toNat_lt
    by_cases go : startHeight.toNat ≤ endHeight.toNat
    · rcases eventsForHeight_cases E R eventType startHeight.toNat s with
        ⟨e,t,run⟩ | ⟨block,t,blockRead,⟨e,u,run⟩ | ⟨events,u,eventsRead,run⟩⟩
      · -- The block is not read: it lies above the latest, or it is the first that should be read.
        rw [heightLoop_error go run,failedAbove_block]
        by_cases above : latest < startHeight.toNat
        · rw [heightsUpTo_nil (by omega)]
          exact iff_of_true above ⟨by omega,trivial⟩
        · exact iff_of_false above (not_readable (by omega) go run)
      · rw [heightLoop_error go run]
        refine iff_of_false (fun failed => ?_) (not_readable (readable_low vacant blockRead) go run)
        obtain ⟨_,_,other,_⟩ := failed _ rfl
        cases other
      · rw [heightLoop_ok go run]
        refine (ih (hasReturned_ok go run returned)).trans (and_congr_right fun small => ?_)
        have low := readable_low vacant blockRead
        rw [heightsUpTo_cons (by omega) go low,succeeds_cons run]
    · have past : endHeight.toNat < startHeight.toNat := Nat.not_le.mp go
      rw [heightLoop_stop past,heightsUpTo_nil (by omega)]
      exact iff_of_true (fun _ absent => nomatch absent) ⟨by omega,trivial⟩

end

variable (E R eventType) in
/-- The queries always return without an error. For block IDs the answer is
    complete exactly when the reads for all of them succeed, with blocks that have
    these IDs. For a range, nothing
    but a height above the latest failed to be read exactly when all heights up
    to the latest can be read and the last of them is not the last height there is. -/
theorem nothing_dropped_iff (s : σ) :
    (∀ blockIDs, ((getEventsForBlockIDs E R eventType blockIDs s).1.err = none →
        OneEach R eventType blockIDs s (getEventsForBlockIDs E R eventType blockIDs s).1.result) ↔
      Answered E R eventType blockIDs s) ∧
    ∀ latest startHeight endHeight bound, NoneAbove R latest →
      HasReturned E R eventType startHeight endHeight bound s →
      (((getEventsForHeightRange E R eventType startHeight endHeight bound s).1.err = none →
          FailedAbove latest (heightLoop E R eventType endHeight bound (startHeight,s)).error) ↔
        min endHeight.toNat latest < 2^64-1 ∧
          Succeeds (eventsForHeight E R eventType) (heightsUpTo latest startHeight endHeight) s) := by
  refine ⟨fun blockIDs => ?_,fun latest startHeight endHeight bound vacant returned => ?_⟩
  · rw [← oneEach_iff]
    exact ⟨fun complete => complete rfl,fun complete _ => complete⟩
  · rw [← failedAbove_iff vacant returned]
    exact ⟨fun above => above rfl,fun above _ => above⟩

/-! ### A store with three blocks -/

section
open FlowEmulator.Samples

/-- The reads of three blocks, where those of the events of some heights fail. -/
def threeBlocks (torn : Nat → Bool) : Reader Unit where
  blockByID blockID := attempt fun _ =>
    found (((List.range 3).find? fun height => decide (digest height = blockID)).map block)
  blockByHeight height := attempt fun _ => found (if height < 3 then some (block height) else none)
  eventsByHeight height _ := attempt fun _ => if torn height then .error .backend else .ok []

theorem threeBlocks_noneAbove (torn : Nat → Bool) : NoneAbove (threeBlocks torn) 2 := by
  intro height s above
  refine ⟨.notFound,?_⟩
  show found (if height < 3 then some (block height) else none) = _
  rw [if_neg (by omega)]
  rfl

theorem nothing_dropped_iff_readable :
    (OneEach (threeBlocks fun _ => false) "" [digest 2,digest 0] ()
        (getEventsForBlockIDs heightEncoding (threeBlocks fun _ => false) "" [digest 2,digest 0] ()).1.result) ∧
      HasReturned heightEncoding (threeBlocks fun _ => false) "" 1 7 3 () ∧
      FailedAbove 2 (heightLoop heightEncoding (threeBlocks fun _ => false) "" 7 3 (1,())).error := by
  have dropped := nothing_dropped_iff heightEncoding (threeBlocks fun _ => false) "" ()
  have returned : HasReturned heightEncoding (threeBlocks fun _ => false) "" 1 7 3 () := .inl rfl
  refine ⟨(dropped.1 _).mpr ⟨_,_,_,_,rfl,rfl,rfl,_,_,_,_,rfl,rfl,rfl,trivial⟩ rfl,returned,?_⟩
  exact (dropped.2 2 1 7 3 (threeBlocks_noneAbove _) returned).mpr ⟨by decide,_,_,rfl,_,_,rfl,trivial⟩ rfl

/-- The events of the middle one of three blocks cannot be read. Asked for all
    three, by their IDs or their heights, the queries return the first only, and no error. -/
theorem torn_blocks_dropped :
    (getEventsForBlockIDs heightEncoding (threeBlocks fun height => height = 1) "" [digest 0,digest 1,digest 2] ()).1 =
        ⟨[entryOf heightEncoding (block 0) []],none⟩ ∧
      HasReturned heightEncoding (threeBlocks fun height => height = 1) "" 0 2 2 () ∧
      (getEventsForHeightRange heightEncoding (threeBlocks fun height => height = 1) "" 0 2 2 ()).1 =
        ⟨[entryOf heightEncoding (block 0) []],none⟩ ∧
      (heightLoop heightEncoding (threeBlocks fun height => height = 1) "" 2 2 (0,())).error =
        some (.eventsByHeight 1 .backend) :=
  ⟨rfl,.inl rfl,rfl,rfl⟩

end
end
end FlowEmulator.EventQueries
