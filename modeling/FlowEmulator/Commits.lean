import FlowEmulator.Run
import FlowEmulator.Sqlite

/-!
Runs of commits on the SQL store: what a chain of blocks leaves in the tables,
in the cell of the latest height and in the current height, and that such a run
only depends on the tables it starts from.
-/
namespace FlowEmulator.Sqlite
open FlowEmulator.Text FlowEmulator.Keys FlowEmulator.Fallible FlowEmulator.VersionedTable FlowEmulator.DefaultStore

/-- An operation that commits a block by a list of writes, of which those to the
    globals make the block the latest. -/
structure Commits (E : Encoding) (op : BlockContents → StoreM Store Unit) (writes : Nat → BlockContents → List Write) :
    Prop where
  wrote : ∀ c s latest, c.Counted → Tip E s latest →
    ∃ after, op c s = (.ok (),after) ∧ Wrote c.block.height (writes (latest.getD 0) c) s after
  refused : ∀ c s, ¬ c.Counted → ∃ e, op c s = (.error e,s)
  tip : ∀ latest c, writesTo .global (writes latest c) = tipWrites E latest c.block

theorem commits_saveBlock (E : Encoding) (choices : Choices) (static : Identifier → Bool) :
    Commits E ((store E choices).saveBlock E static) (saveWrites E static) := by
  refine ⟨?_,?_,fun latest c => writesTo_saveWrites E static latest c .global⟩
  · intro c s latest counted tip
    obtain ⟨after,run,wrote⟩ := wrote_forM (wrote_nil c.block.height s) choices (saveWrites E static (latest.getD 0) c)
    exact ⟨after,(saveBlock_run E (dataStore choices) static c counted s (tip_read tip choices)).trans run,wrote⟩
  · exact fun c s uncounted => saveBlock_uncounted E (dataStore choices) static c uncounted s

theorem commits_commitBlock (E : Encoding) (choices : Choices) :
    Commits E (store E choices).commitBlock (commitWrites E) := by
  refine ⟨?_,?_,?_⟩
  · intro c s latest counted tip
    obtain ⟨after,run,wrote⟩ := wrote_forM (wrote_nil c.block.height s) choices (commitWrites E (latest.getD 0) c)
    exact ⟨after,(commitBlock_run E (dataStore choices) c counted s (tip_read tip choices)).trans run,wrote⟩
  · exact fun c s uncounted => commitBlock_uncounted E (dataStore choices) c uncounted s
  · intro latest c
    exact writesTo_commitWrites E latest c .global

/-- The table of globals after the writes of a block. -/
theorem wrote_global {E : Encoding} {writes : List Write} {latest : Nat} {block : Block}
    (tips : writesTo .global writes = tipWrites E latest block) {s after : Store} (wrote : Wrote block.height writes s after) :
    after.database .global = if latest ≤ block.height then (s.database .global).upsert (tipRow E block.height)
      else s.database .global := by
  rw [wrote.table,tips]
  unfold tipWrites
  split <;> rfl

theorem commits_tip {E : Encoding} {op : BlockContents → StoreM Store Unit} {writes : Nat → BlockContents → List Write}
    (commits : Commits E op writes) {s after : Store} {latest : Option Nat} {c : BlockContents} (tip : Tip E s latest)
    (wrote : Wrote c.block.height (writes (latest.getD 0) c) s after) :
    Tip E after (some (max (latest.getD 0) c.block.height)) := by
  have table := wrote_global (commits.tip _ _) wrote
  split at table
  · next low => rw [max_eq_right low]; exact tip_upsert tip table
  · next high =>
    cases latest with
    | none => exact absurd (Nat.zero_le _) high
    | some height =>
      rw [Option.getD_some] at high ⊢
      rw [max_eq_left (Nat.le_of_not_le high)]
      exact tip_of_table tip table

/-- A block that was saved had its counts right, and its writes were made. -/
theorem saved_wrote {E : Encoding} {choices : Choices} {static : Identifier → Bool} {c : BlockContents} {s after : Store}
    {latest : Nat} (tip : Tip E s (some latest))
    (run : (store E choices).saveBlock E static c s = (.ok (),after)) :
    c.Counted ∧ Wrote c.block.height (saveWrites E static latest c) s after := by
  have commits := commits_saveBlock E choices static
  by_cases counted : c.Counted
  · obtain ⟨written,done,wrote⟩ := commits.wrote c s (some latest) counted tip
    rw [done] at run
    cases run
    exact ⟨counted,wrote⟩
  · obtain ⟨e,refused⟩ := commits.refused c s counted
    rw [refused] at run
    cases run

/-- A block that was not saved has left the store. -/
theorem refused_same {E : Encoding} {choices : Choices} {static : Identifier → Bool} {c : BlockContents} {s after : Store}
    {latest : Nat} {e : StoreError} (tip : Tip E s (some latest))
    (run : (store E choices).saveBlock E static c s = (.error e,after)) : after = s := by
  have commits := commits_saveBlock E choices static
  by_cases counted : c.Counted
  · obtain ⟨written,done,_⟩ := commits.wrote c s (some latest) counted tip
    rw [done] at run
    cases run
  · obtain ⟨_,refused⟩ := commits.refused c s counted
    rw [refused] at run
    cases run
    rfl

/-- The store after some commits, those that were refused included. -/
def run (op : BlockContents → StoreM Store Unit) (cs : List BlockContents) (s : Store) : Store :=
  Run.play (fun c current => (op c current).2) cs s

theorem run_append (op : BlockContents → StoreM Store Unit) (front back : List BlockContents) (s : Store) :
    run op (front ++ back) s = run op back (run op front s) := Run.play_append ..

/-- The store before anything was committed. -/
def fresh (url : Url) : Store := new url (fun _ => none)

theorem fresh_database (url : Url) (name : StoreName) : (fresh url).database name = Table.empty := by
  unfold fresh
  rw [new_database]
  rfl

theorem fresh_others (url : Url) {name : DatabaseName} (other : name ≠ .main) : (fresh url).databases name = none := by
  show Function.update (fun _ => none) DatabaseName.main _ name = none
  rw [Function.update_of_ne other]

/-- What was in memory begins anew. -/
theorem reopen_memory {s : Store} (memory : s.url = .inMemory) : reopen s = fresh s.url := by
  unfold reopen
  rw [if_pos memory]
  rfl

/-- What is on disk is found again. -/
theorem reopen_databases {s : Store} (lasting : s.url ≠ .inMemory) (main : (s.databases .main).isSome) :
    (reopen s).databases = s.databases := by
  obtain ⟨content,found⟩ := Option.isSome_iff_exists.mp main
  unfold reopen new
  dsimp only
  rw [if_neg lasting,found,Option.getD_some,← found,Function.update_eq_self]

theorem fresh_tip (E : Encoding) (url : Url) : Tip E (fresh url) none :=
  ⟨fun _ => none,by rw [fresh_database]; exact cells_empty,rfl⟩

/-- Blocks were committed from a first height on, as many as counted: rows were
    added at these heights only, and nothing else was done. -/
structure Grown (E : Encoding) (first count : Nat) (s t : Store) : Prop where
  url : t.url = s.url
  db : t.db = s.db
  others : ∀ name, name ≠ s.db → t.databases name = s.databases name
  snapshotNames : t.snapshotNames = s.snapshotNames
  below : ∀ limit, limit < first → ∀ name, name ≠ .global →
    (t.database name).deleteAbove limit = (s.database name).deleteAbove limit
  rows : ∀ name, name ≠ .global → ∀ row ∈ (t.database name).rows,
    row ∈ (s.database name).rows ∨ row.height < first+count
  global : ∀ height, (t.database .global).upsert (tipRow E height) = (s.database .global).upsert (tipRow E height)

theorem grown_refl (E : Encoding) (first : Nat) (s : Store) : Grown E first 0 s s :=
  ⟨rfl,rfl,fun _ _ => rfl,rfl,fun _ _ _ _ => rfl,fun _ _ _ member => .inl member,fun _ => rfl⟩

theorem grown_trans {E : Encoding} {first count more : Nat} {s t u : Store} (left : Grown E first count s t)
    (right : Grown E (first+count) more t u) : Grown E first (count+more) s u := by
  refine ⟨right.url.trans left.url,right.db.trans left.db,?_,right.snapshotNames.trans left.snapshotNames,?_,?_,?_⟩
  · intro name other
    rw [right.others name (left.db ▸ other),left.others name other]
  · intro limit low name proper
    rw [right.below limit (by omega) name proper,left.below limit low name proper]
  · intro name proper row member
    rcases right.rows name proper row member with before | new
    · rcases left.rows name proper row before with old | new
      · exact .inl old
      · exact .inr (by omega)
    · exact .inr (by omega)
  · intro height
    rw [right.global,left.global]

section
variable {E : Encoding} {op : BlockContents → StoreM Store Unit} {writes : Nat → BlockContents → List Write}

theorem grown_wrote (commits : Commits E op writes) {s after : Store} {latest : Nat} {c : BlockContents}
    (wrote : Wrote c.block.height (writes latest c) s after) : Grown E c.block.height 1 s after := by
  refine ⟨wrote.url,wrote.db,wrote.others,wrote.snapshotNames,?_,?_,?_⟩
  · exact fun limit low name proper => wrote_deleteAbove wrote low proper
  · intro name proper row member
    rcases wrote_height wrote proper member with here | old
    · exact .inr (by omega)
    · exact .inl old
  · intro height
    rw [wrote_global (commits.tip _ _) wrote]
    split
    · exact upsert_overwrite _ rfl
    · rfl

/-- A commit of a block of the chain. -/
theorem commit_step (commits : Commits E op writes) {s : Store} {latest : Option Nat} {c : BlockContents}
    (tip : Tip E s latest) (counted : c.Counted) (low : latest.getD 0 ≤ c.block.height) :
    Tip E (op c s).2 (some c.block.height) ∧ (op c s).2.currentHeight = c.block.height ∧
      Grown E c.block.height 1 s (op c s).2 := by
  obtain ⟨after,done,wrote⟩ := commits.wrote c s latest counted tip
  have latestAfter := commits_tip commits tip wrote
  rw [max_eq_right low] at latestAfter
  rw [done]
  exact ⟨latestAfter,wrote.currentHeight,grown_wrote commits wrote⟩

/-- The latest height after a chain of blocks. -/
theorem run_tip (commits : Commits E op writes) {cs : List BlockContents} {first : Nat} {s : Store}
    {latest : Option Nat} (chain : Chain first cs) (tip : Tip E s latest) (low : latest.getD 0 ≤ first)
    (some_block : cs ≠ []) :
    Tip E (run op cs s) (some (first+cs.length-1)) ∧ (run op cs s).currentHeight = first+cs.length-1 := by
  induction cs generalizing first s latest with
  | nil => exact absurd rfl some_block
  | cons c rest ih =>
    obtain ⟨rfl,counted,restChain⟩ := chain
    obtain ⟨nextTip,current,_⟩ := commit_step commits tip counted low
    cases rest with
    | nil => exact ⟨nextTip,current⟩
    | cons d others =>
      have after := ih restChain nextTip (by simp) (by simp)
      have last : c.block.height+(c :: d :: others).length-1 = c.block.height+1+(d :: others).length-1 := by simp; omega
      rw [last]
      exact after

theorem run_grown (commits : Commits E op writes) {cs : List BlockContents} {first : Nat} {s : Store}
    {latest : Option Nat} (chain : Chain first cs) (tip : Tip E s latest) (low : latest.getD 0 ≤ first) :
    Grown E first cs.length s (run op cs s) := by
  induction cs generalizing first s latest with
  | nil => exact grown_refl E first s
  | cons c rest ih =>
    obtain ⟨rfl,counted,restChain⟩ := chain
    obtain ⟨nextTip,_,grown⟩ := commit_step commits tip counted low
    have after := grown_trans grown (ih restChain nextTip (by simp))
    rw [List.length_cons,Nat.add_comm]
    exact after

/-- A table after a chain of blocks holds the rows of all writes to it, in order. -/
theorem run_table (commits : Commits E op writes) {target : BlockContents → List Write} {name : StoreName}
    (fixed : ∀ latest c, writesTo name (writes latest c) = target c) {cs : List BlockContents} {first : Nat} {s : Store}
    {latest : Option Nat} (chain : Chain first cs) (tip : Tip E s latest) (low : latest.getD 0 ≤ first) :
    (run op cs s).database name =
      (cs.flatMap fun c => (target c).map (rowAt c.block.height)).foldl Table.upsert (s.database name) := by
  induction cs generalizing first s latest with
  | nil => rfl
  | cons c rest ih =>
    obtain ⟨rfl,counted,restChain⟩ := chain
    obtain ⟨after,done,wrote⟩ := commits.wrote c s latest counted tip
    obtain ⟨nextTip,_,_⟩ := commit_step commits tip counted low
    have later := ih restChain nextTip (by simp)
    rw [done] at later
    have table := wrote.table name
    rw [fixed] at table
    rw [List.flatMap_cons,List.foldl_append,← table]
    show (run op rest (op c s).2).database name = _
    rw [done]
    exact later

/-- Commits leave equal tables equal, when the cell of the latest height is among them. -/
theorem run_same (commits : Commits E op writes) (among : StoreName → Prop) (global : among .global)
    (cs : List BlockContents) {s t : Store} {latest : Option Nat} (tip : Tip E s latest)
    (same : ∀ name, among name → t.database name = s.database name) :
    ∀ name, among name → (run op cs t).database name = (run op cs s).database name := by
  induction cs generalizing s t latest with
  | nil => exact same
  | cons c rest ih =>
    by_cases counted : c.Counted
    · obtain ⟨after,done,wrote⟩ := commits.wrote c s latest counted tip
      obtain ⟨other,otherDone,otherWrote⟩ := commits.wrote c t latest counted (tip_of_table tip (same .global global))
      unfold run at ih ⊢
      rw [Run.play_cons,Run.play_cons,done,otherDone]
      refine ih (commits_tip commits tip wrote) (fun name here => ?_)
      rw [otherWrote.table,wrote.table,same name here]
    · obtain ⟨e,refused⟩ := commits.refused c s counted
      obtain ⟨e',otherRefused⟩ := commits.refused c t counted
      unfold run at ih ⊢
      rw [Run.play_cons,Run.play_cons,refused,otherRefused]
      exact ih tip same

end
end FlowEmulator.Sqlite
