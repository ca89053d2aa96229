import FlowEmulator.Lookups
import FlowEmulator.Retry

/-!
Sessions with a journal of the system transactions. For the pending block it has
those that commits of it have run, and for each block of the chain those that were
run for it, by commits that had failed as well. The events of a block are those of
its transactions of users and those of the journal, in some order: a commit that
fails before the transactions are added leaves its events in front of theirs.
-/
namespace FlowEmulator.Journals
open FlowEmulator.Fallible FlowEmulator.Blockchain FlowEmulator.Chronicle FlowEmulator.Run
open FlowEmulator.Sqlite (Choices)

/-- A session, the system transactions run for the pending block, and those run
    for the block of each height. -/
structure Journal where
  session : Session
  pending : List Execution
  stored : List (List Execution)

/-- One value where a call succeeds, and another where it fails. -/
def byOutcome {ε α β : Type} (success failure : β) : Except ε α → β
  | .ok _ => success
  | .error _ => failure

section
variable (E : Encoding) (M : Machine) (config : Config) (choices : Choices)

def note : Call → Journal → Journal
  | .commitBlock tick, j =>
    let runs := j.pending ++ begun E M config (Sqlite.backend E choices) j.session.emulator
    let outcome := (commitBlock E M config (Sqlite.backend E choices) tick j.session.emulator).1
    ⟨take E M config choices (.commitBlock tick) j.session,byOutcome [] runs outcome,
      byOutcome (j.stored ++ [runs]) j.stored outcome⟩
  | .resetPendingBlock tick, j =>
    let outcome := (resetPendingBlock E (Sqlite.backend E choices) tick j.session.emulator).1
    ⟨take E M config choices (.resetPendingBlock tick) j.session,byOutcome [] j.pending outcome,j.stored⟩
  | c, j => { j with session := take E M config choices c j.session }

/-- A rollback removes the blocks above its height, and with them their entries. -/
def noteRollback (tick : Tick) (height : Nat) (j : Journal) : Journal :=
  let outcome := (rollbackToBlockHeight E M config (Sqlite.backend E choices) tick height j.session.emulator).1
  ⟨rollBack E M config choices tick height j.session,byOutcome [] j.pending outcome,
    byOutcome (j.stored.take (height+1)) j.stored outcome⟩

def noteStep : Step → Journal → Journal
  | .request r, j => play (note E M config choices) (calls E M choices j.session r) j
  | .rollback tick height, j => noteRollback E M config choices tick height j

/-- The journals of all sessions: an emulator that has just started has one block,
    for which no system transaction was run. -/
def Journaled (j : Journal) : Prop :=
  Reachable (noteStep E M config choices) (fun _ _ => True)
    (fun j => Started E M config choices j.session ∧ j.pending = [] ∧ j.stored = [[]]) j

end

/-- The run is one of a transaction of users. -/
def RanByUser (M : Machine) (run : Execution) : Prop :=
  run.context.kind = .user ∧ ∃ index registers, M.run run.context run.tx index registers = .ok (run.writes,run.output)

/-- The events of the pending block are those of the runs of its transactions and of some other runs. -/
structure Explained (E : Encoding) (M : Machine) (p : PendingBlock) (users others : List Execution) : Prop where
  tallied : Tallied E p users
  ran : ∀ run ∈ users, RanByUser M run
  events : p.events.Perm (emitted users ++ emitted others)

/-- The events of a block are those of the runs of its transactions, which its results have, and of some other runs. -/
structure Credited (E : Encoding) (M : Machine) (c : BlockContents) (users others : List Execution) : Prop where
  ids : c.userTransactions = transactionIDs E users
  results : ∀ run ∈ users, ∃ result, c.transactionResults.lookup (E.transactionID run.tx) = some result ∧
    result.events = run.output.events
  ran : ∀ run ∈ users, RanByUser M run
  events : c.events.Perm (emitted users ++ emitted others)

/-- The journal explains the events of the blocks with transactions of users, and
    those of the pending block unless it cannot be committed. -/
structure Explains (E : Encoding) (M : Machine) (config : Config) (cs : List BlockContents) (latest : Nat) (j : Journal) :
    Prop where
  accounted : Accounted E M config cs j.session.seen latest j.session.emulator
  count : j.stored.length = cs.length
  blocks : ∀ (height : Nat) c others, cs[height]? = some c → j.stored[height]? = some others → c.userTransactions ≠ [] →
    ∃ users, Credited E M c users others
  progress : (∃ users, Explained E M j.session.emulator.pendingBlock users j.pending) ∨
    Broken j.session.emulator.pendingBlock

section
variable {E : Encoding} {M : Machine} {config : Config} {choices : Choices}

/-- A journal changes nothing in its session. -/
theorem note_session (c : Call) (j : Journal) :
    (note E M config choices c j).session = take E M config choices c j.session := by
  cases c <;> rfl

theorem noteStep_session (s : Step) (j : Journal) :
    (noteStep E M config choices s j).session = step E M config choices s j.session := by
  cases s with
  | request r => exact play_project note_session _ j
  | rollback tick height => rfl

/-- Every session has a journal. -/
theorem reached_journaled {x : Session} (reached : Reached E M config choices (fun _ _ => True) x) :
    ∃ j, Journaled E M config choices j ∧ j.session = x := by
  obtain ⟨start,steps,started,_,rfl⟩ := reached
  exact ⟨play (noteStep E M config choices) steps ⟨start,[],[[]]⟩,
    ⟨⟨start,[],[[]]⟩,steps,⟨started,rfl,rfl⟩,throughout_all (fun _ _ => trivial),rfl⟩,play_project noteStep_session steps _⟩

/-! ### The pending block -/

theorem explained_new (E : Encoding) (M : Machine) (tick : Tick) (prev : Block) :
    Explained E M (newPendingBlock E tick prev) [] [] :=
  ⟨⟨rfl,rfl⟩,fun _ absent => absurd absent List.not_mem_nil,.nil⟩

theorem explained_record {p : PendingBlock} {users others : List Execution} (explained : Explained E M p users others)
    (runs : List Execution) : Explained E M (p.record runs) users (others ++ runs) := by
  refine ⟨⟨explained.tallied.ids,explained.tallied.results⟩,explained.ran,?_⟩
  show (p.events ++ emitted runs).Perm _
  rw [emitted_append,← List.append_assoc]
  exact explained.events.append_right _

theorem explained_left {p q : PendingBlock} {others runs : List Execution} (left : p.Left runs q)
    (progress : (∃ users, Explained E M p users others) ∨ Broken p) :
    (∃ users, Explained E M q users (others ++ runs)) ∨ Broken q := by
  rcases left with same | same <;> rw [same]
  · exact progress.imp (fun ⟨users,explained⟩ => ⟨users,explained_record explained runs⟩) id
  · refine progress.imp (fun ⟨users,explained⟩ => ⟨users,?_⟩) id
    obtain ⟨⟨ids,results⟩,ran,events⟩ := explained_record explained runs
    exact ⟨⟨ids,results⟩,ran,events⟩

/-- The events of a run come after those of other runs. -/
theorem explained_run {p : PendingBlock} {users others : List Execution} (explained : Explained E M p users others)
    (listed : Listed E p) {run : Execution} (here : p.transactionIDs[p.index]? = some (E.transactionID run.tx))
    (ran : RanByUser M run) : Explained E M (afterRun E run p) (users ++ [run]) others := by
  refine ⟨tallied_run explained.tallied listed here,fun each member => ?_,?_⟩
  · rcases List.mem_append.mp member with before | last
    · exact explained.ran each before
    · rw [List.mem_singleton.mp last]
      exact ran
  · have swapped : (emitted others ++ emitted [run]).Perm (emitted [run] ++ emitted others) := List.perm_append_comm
    show (p.events ++ emitted [run]).Perm _
    calc
      List.Perm (p.events ++ emitted [run]) ((emitted users ++ emitted others) ++ emitted [run]) :=
        explained.events.append_right _
      _ = emitted users ++ (emitted others ++ emitted [run]) := List.append_assoc ..
      List.Perm _ (emitted users ++ (emitted [run] ++ emitted others)) := swapped.append_left _
      _ = emitted (users ++ [run]) ++ emitted others := by rw [emitted_append,List.append_assoc]

/-- A block that is sealed from an explained pending block. -/
theorem credited_sealed {p : PendingBlock} {users others : List Execution} (explained : Explained E M p users others)
    (listed : Listed E p) (complete : p.index = p.size) {base : Registers} {runs : List Execution} {c : BlockContents}
    (sealed : Sealed E M config base p runs c) : Credited E M c users (others ++ runs) := by
  refine ⟨?_,fun run member => ?_,explained.ran,?_⟩
  · rw [sealed_userTransactions sealed,explained.tallied.ids,complete]
    exact (List.take_length ..).symm
  · obtain ⟨i,place⟩ := List.mem_iff_getElem?.mp member
    refine ⟨toStorableResult run.output (p.id E) p.height ((p.collections.head?.map E.collectionID).getD zeroID),?_,rfl⟩
    rw [sealed.transactionResults,convert_lookup,tallied_lookup explained.tallied listed place]
    rfl
  · rw [sealed.events]
    exact (explained_record explained runs).events

/-! ### Whole sessions -/

variable {cs : List BlockContents} {latest : Nat}

theorem explains_started {j : Journal} (started : Started E M config choices j.session) (pending : j.pending = [])
    (stored : j.stored = [[]]) : ∃ cs latest, Explains E M config cs latest j := by
  obtain ⟨writes,events,tick,seen,first,accounted⟩ := started_accounted started
  refine ⟨j.session.seen,0,accounted,by rw [stored,seen]; rfl,fun height c others here _ users => ?_,.inl ⟨[],?_⟩⟩
  · rw [seen] at here
    obtain rfl := List.mem_singleton.mp (List.mem_of_getElem? here)
    exact absurd rfl users
  · rw [pending,first]
    exact explained_new ..

theorem explained_add {b : Blockchain Sqlite.Store} {users others : List Execution} (listed : Listed E b.pendingBlock)
    (explained : Explained E M b.pendingBlock users others) (tx : TransactionBody) :
    Explained E M (addTransaction E M (Sqlite.backend E choices) tx b).2.pendingBlock users others := by
  have adds := addTransaction_adds E M (Sqlite.backend E choices) tx b
  have tallied := adds_tallied adds listed explained.tallied
  generalize addTransaction E M (Sqlite.backend E choices) tx b = out at adds tallied ⊢
  cases adds with
  | added idle fresh missing valid => exact ⟨tallied,explained.ran,explained.events⟩
  | _ => exact explained

theorem explained_execute {b : Blockchain Sqlite.Store} {users others : List Execution} (listed : Listed E b.pendingBlock)
    (explained : Explained E M b.pendingBlock users others) :
    (∃ users, Explained E M (executeNextTransaction E M (Sqlite.backend E choices) b).2.pendingBlock users others) ∨
      Broken (executeNextTransaction E M (Sqlite.backend E choices) b).2.pendingBlock := by
  have executes := executeNextTransaction_executes E M (Sqlite.backend E choices) b
  have count := tallied_count explained.tallied listed
  generalize executeNextTransaction E M (Sqlite.backend E choices) b = out at executes ⊢
  have fewer : b.pendingBlock.transactionResults.entries.length < b.pendingBlock.index+1 := by omega
  cases executes with
  | exhausted complete => exact .inl ⟨users,explained⟩
  | missing incomplete next => exact .inl ⟨users,explained⟩
  | failed tx incomplete next message fatal => exact .inr fewer
  | unmerged tx incomplete next writes output ran fatal => exact .inr fewer
  | executed tx incomplete next writes output ran merged =>
    obtain ⟨found,isNext,here,_⟩ := listed_next listed incomplete
    rw [next] at isNext
    cases isNext
    have run : RanByUser M ⟨b.context E .user,tx,writes,output⟩ := ⟨rfl,_,_,ran⟩
    exact .inl ⟨_,explained_run explained listed here run⟩

theorem note_commit_failed {j : Journal} {after : Blockchain Sqlite.Store} {tick : Tick} {e : EmulatorError}
    (failed : commitBlock E M config (Sqlite.backend E choices) tick j.session.emulator = (.error e,after)) :
    note E M config choices (.commitBlock tick) j = ⟨take E M config choices (.commitBlock tick) j.session,
      j.pending ++ begun E M config (Sqlite.backend E choices) j.session.emulator,j.stored⟩ := by
  have outcome : (commitBlock E M config (Sqlite.backend E choices) tick j.session.emulator).1 = .error e := by rw [failed]
  simp only [note,outcome,byOutcome]

theorem note_commit_saved {j : Journal} {after : Blockchain Sqlite.Store} {tick : Tick} {block : Block}
    (done : commitBlock E M config (Sqlite.backend E choices) tick j.session.emulator = (.ok block,after)) :
    note E M config choices (.commitBlock tick) j = ⟨take E M config choices (.commitBlock tick) j.session,[],
      j.stored ++ [j.pending ++ begun E M config (Sqlite.backend E choices) j.session.emulator]⟩ := by
  have outcome : (commitBlock E M config (Sqlite.backend E choices) tick j.session.emulator).1 = .ok block := by rw [done]
  simp only [note,outcome,byOutcome]

theorem explains_commit {j : Journal} (explains : Explains E M config cs latest j) (tick : Tick) :
    ∃ cs latest, Explains E M config cs latest (note E M config choices (.commitBlock tick) j) := by
  have accounted := explains.accounted
  have listed := accounted.underway.tracked.listed
  have committed : Committed E M config choices cs j.session.seen latest tick j.session.emulator _ :=
    accounted_commit accounted tick
  rcases run : commitBlock E M config (Sqlite.backend E choices) tick j.session.emulator with ⟨result,after⟩
  rw [run] at committed
  cases committed with
  | failed e _ runs pending waiting still =>
    rw [note_commit_failed run,take_commit_failed run]
    exact ⟨cs,latest,still,explains.count,explains.blocks,explained_left (failed_record run) explains.progress⟩
  | saved c _ ready made counted sealed pending longer =>
    have complete : j.session.emulator.pendingBlock.index = j.session.emulator.pendingBlock.size :=
      Nat.le_antisymm listed.bound ready
    have results := ((sealed_counted listed sealed).mp counted).1
    have runs : begun E M config (Sqlite.backend E choices) j.session.emulator =
        (attempted E M config (Sqlite.backend E choices) j.session.emulator).1 := if_neg (Nat.not_lt.mpr ready)
    rw [note_commit_saved run,take_commit_saved run made,runs]
    refine ⟨cs ++ [c],latest+1,longer,by simp [explains.count],fun height d others here there users => ?_,.inl ⟨[],?_⟩⟩
    · by_cases last : height = cs.length
      · rw [last,List.getElem?_concat_length] at here
        rw [last,← explains.count,List.getElem?_concat_length] at there
        cases here
        cases there
        rcases explains.progress with ⟨users,explained⟩ | broken
        · exact ⟨users,credited_sealed explained listed complete sealed⟩
        · unfold Broken at broken
          omega
      · obtain ⟨inside,_⟩ := List.getElem?_eq_some_iff.mp here
        have low : height < cs.length := by simp at inside; omega
        rw [List.getElem?_append_left low] at here
        rw [List.getElem?_append_left (by rw [explains.count]; exact low)] at there
        exact explains.blocks height d others here there users
    · show Explained E M after.pendingBlock [] []
      rw [pending]
      exact explained_new ..

theorem explains_note (j : Journal) (c : Call) (explains : ∃ cs latest, Explains E M config cs latest j) :
    ∃ cs latest, Explains E M config cs latest (note E M config choices c j) := by
  obtain ⟨cs,latest,explains⟩ := explains
  have accounted := explains.accounted
  have listed := accounted.underway.tracked.listed
  have same {b : Blockchain Sqlite.Store} {accepted : List Identifier} {tainted : Bool} {pending : List Execution}
      (still : Accounted E M config cs j.session.seen latest b)
      (progress : (∃ users, Explained E M b.pendingBlock users pending) ∨ Broken b.pendingBlock) :
      ∃ cs latest, Explains E M config cs latest ⟨⟨b,j.session.seen ++ [],accepted,tainted⟩,pending,j.stored⟩ := by
    refine ⟨cs,latest,?_,explains.count,explains.blocks,progress⟩
    rw [List.append_nil]
    exact still
  cases c with
  | addTransaction tx =>
    refine same (accounted_add accounted tx) ?_
    rcases explains.progress with ⟨users,explained⟩ | broken
    · exact .inl ⟨users,explained_add listed explained tx⟩
    · exact .inr (adds_broken (addTransaction_adds E M _ tx _) broken)
  | executeNextTransaction =>
    refine same (accounted_execute accounted) ?_
    rcases explains.progress with ⟨users,explained⟩ | broken
    · exact explained_execute listed explained
    · exact .inr (executes_broken (executeNextTransaction_executes E M _ _) broken)
  | commitBlock tick => exact explains_commit explains tick
  | resetPendingBlock tick =>
    have done : ∃ block, (Sqlite.backend E choices).latestBlock j.session.emulator.storage = .ok block ∧
        resetPendingBlock E (Sqlite.backend E choices) tick j.session.emulator =
          (.ok (),{ j.session.emulator with pendingBlock := newPendingBlock E tick block }) :=
      reset_succeeds accounted.stored tick
    obtain ⟨block,_,done⟩ := done
    have outcome : (resetPendingBlock E (Sqlite.backend E choices) tick j.session.emulator).1 = .ok () := by rw [done]
    simp only [note,outcome,byOutcome]
    refine same (accounted_reset accounted.stored tick) (.inl ⟨[],?_⟩)
    show Explained E M (resetPendingBlock E (Sqlite.backend E choices) tick j.session.emulator).2.pendingBlock [] []
    rw [done]
    exact explained_new ..
  | setClock now =>
    refine same (accounted_setClock accounted now) (explains.progress.imp (fun ⟨users,explained⟩ => ⟨users,?_⟩) id)
    exact ⟨⟨explained.tallied.ids,explained.tallied.results⟩,explained.ran,explained.events⟩
  | setAutoMine on => exact same (accounted_setAutoMine accounted on) explains.progress

theorem explains_noteRollback (j : Journal) (tick : Tick) (height : Nat)
    (explains : ∃ cs latest, Explains E M config cs latest j) :
    ∃ cs latest, Explains E M config cs latest (noteRollback E M config choices tick height j) := by
  obtain ⟨cs,latest,explains⟩ := explains
  rcases accounted_rollback explains.accounted tick height with refused | ⟨below,done,⟨block,pending⟩,cut⟩
  · have outcome : (rollbackToBlockHeight E M config (Sqlite.backend E choices) tick height j.session.emulator).1 =
        .error (.storage .rollbackHeight) := by rw [refused]
    have same : rollBack E M config choices tick height j.session = j.session := by
      unfold rollBack
      rw [refused]
    simp only [noteRollback,outcome,byOutcome,same]
    exact ⟨cs,latest,explains⟩
  · simp only [noteRollback,done,byOutcome]
    refine ⟨cs.take (height+1),height,cut,?_,fun place c others here there users => ?_,.inl ⟨[],?_⟩⟩
    · rw [List.length_take,List.length_take,explains.count]
    · obtain ⟨inside,_⟩ := List.getElem?_eq_some_iff.mp here
      have low : place < height+1 := by simp at inside; omega
      rw [List.getElem?_take_of_lt low] at here there
      exact explains.blocks place c others here there users
    · show Explained E M (rollbackToBlockHeight E M config (Sqlite.backend E choices) tick height
        j.session.emulator).2.pendingBlock [] []
      rw [pending]
      exact explained_new ..

theorem explains_noteStep (j : Journal) (s : Step) (explains : ∃ cs latest, Explains E M config cs latest j) (_ : True) :
    ∃ cs latest, Explains E M config cs latest (noteStep E M config choices s j) := by
  have noting (j : Journal) (c : Call) (explains : ∃ cs latest, Explains E M config cs latest j) (_ : True) :
      ∃ cs latest, Explains E M config cs latest (note E M config choices c j) := explains_note j c explains
  cases s with
  | request r => exact play_keeps noting explains (throughout_all fun _ _ => trivial)
  | rollback tick height => exact explains_noteRollback j tick height explains

/-- In every session the journal explains the events of the blocks. -/
theorem journaled_explains {j : Journal} (journaled : Journaled E M config choices j) :
    ∃ cs latest, Explains E M config cs latest j := by
  have first (j : Journal) (initial : Started E M config choices j.session ∧ j.pending = [] ∧ j.stored = [[]]) :
      ∃ cs latest, Explains E M config cs latest j := explains_started initial.1 initial.2.1 initial.2.2
  exact reachable_keeps (s := j) first explains_noteStep journaled

end
end FlowEmulator.Journals
