import FlowEmulator.Commits
import FlowEmulator.Samples

/-!
Commits over a backend of which one write fails. A commit is not undone: the
writes before the failing one stay. It answers as before exactly when the first
write is the one that fails, or the block is refused before anything is written.
-/
namespace FlowEmulator.DefaultStore
open FlowEmulator.Text FlowEmulator.Keys FlowEmulator.Fallible

/-- Fail at the call of a setter with a given position, counted from 0, without
    any effect; all other calls go through. -/
def failingAt {σ : Type} (position : Nat) (set : StoreM σ Unit) : StoreM (σ × Nat) Unit := fun s =>
  if s.2 = position then (.error .backend,s)
  else match set s.1 with
    | (result,after) => (result,after,s.2+1)

/-- A backend whose setter call at a position fails. -/
def faulty {σ : Type} (D : DataStore σ) (position : Nat) : DataStore (σ × Nat) where
  getBytes name key s := D.getBytes name key s.1
  getBytesAtVersion name key version s := D.getBytesAtVersion name key version s.1
  setBytes name key value := failingAt position (D.setBytes name key value)
  setBytesWithVersion name key value version := failingAt position (D.setBytesWithVersion name key value version)
  setCurrentHeight height s := (D.setCurrentHeight height s.1,s.2)

theorem perform_faulty {σ : Type} (D : DataStore σ) (position : Nat) (w : Write) :
    w.perform (faulty D position) = failingAt position (w.perform D) := by
  cases w <;> rfl

end FlowEmulator.DefaultStore

namespace FlowEmulator.Sqlite
open FlowEmulator.Text FlowEmulator.Keys FlowEmulator.Fallible FlowEmulator.VersionedTable FlowEmulator.DefaultStore

section
variable {E : Encoding} {choices : Choices} {c : BlockContents} {s : Store} {latest position : Nat}

/-- The writes before the failing one are performed, and no other. -/
theorem faulty_forM (choices : Choices) {height : Nat} {done : List Write} {after : Store}
    (wrote : Wrote height done s after) (early : done.length ≤ position) (writes : List Write) :
    ∃ final, writes.forM (Write.perform (faulty (dataStore choices) position)) (after,done.length) =
        (if position < done.length+writes.length then (.error .backend,final,position)
          else (.ok (),final,done.length+writes.length)) ∧
      Wrote height ((done ++ writes).take position) s final := by
  induction writes generalizing done after with
  | nil =>
    refine ⟨after,by rw [if_neg (by simp; omega)]; rfl,?_⟩
    rw [List.append_nil,List.take_of_length_le early]
    exact wrote
  | cons w rest ih =>
    rw [forM_cons,perform_faulty]
    by_cases here : done.length = position
    · have stopped : failingAt position (w.perform (dataStore choices)) (after,done.length) =
          (.error .backend,after,done.length) := if_pos here
      refine ⟨after,?_,?_⟩
      · rw [bind_error stopped,if_pos (by simp; omega),here]
      · rw [List.take_append_of_le_length (Nat.le_of_eq here.symm),← here,List.take_length]
        exact wrote
    · obtain ⟨next,performed,nextWrote⟩ := wrote_snoc wrote choices w
      have went : failingAt position (w.perform (dataStore choices)) (after,done.length) =
          (.ok (),next,(done ++ [w]).length) := by
        unfold failingAt
        rw [if_neg here,performed,List.length_append]
        rfl
      have length : (done ++ [w]).length+rest.length = done.length+(w :: rest).length := by simp; omega
      obtain ⟨final,run,finalWrote⟩ := ih nextWrote (by simp; omega)
      rw [List.append_assoc,length] at *
      exact ⟨final,by rw [bind_ok went,run],finalWrote⟩

/-- What a commit with a failing write leaves. -/
theorem commitBlock_faulty (counted : c.Counted)
    (read : latestBlockHeightOrZero E (dataStore choices) s = .ok latest) (position : Nat) :
    ∃ final, commitBlock E (faulty (dataStore choices) position) c (s,0) =
        (if position < (commitWrites E latest c).length then (.error .backend,final,position)
          else (.ok (),final,(commitWrites E latest c).length)) ∧
      Wrote c.block.height ((commitWrites E latest c).take position) s final := by
  have run := commitBlock_run E (faulty (dataStore choices) position) c counted (s,0) read
  obtain ⟨final,written,wrote⟩ := faulty_forM choices (wrote_nil c.block.height s) (Nat.zero_le position)
    (commitWrites E latest c)
  rw [List.nil_append,List.length_nil,Nat.zero_add] at *
  exact ⟨final,run.trans written,wrote⟩

end

/-- If a commit whose setter call at a position fails returns an error, every
    read answers as before. -/
def Atomic (E : Encoding) (choices : Choices) (position : Nat) (c : BlockContents) (s : Store) : Prop :=
  ∀ e after, commitBlock E (faulty (dataStore choices) position) c (s,0) = (.error e,after) →
    ∀ query, (store E choices).answer query after.1 = (store E choices).answer query s

/-- Nothing is written before the error, or there is none: the counts disagree,
    the first call fails, or the position lies behind the last call. -/
def Unbroken (E : Encoding) (latest position : Nat) (c : BlockContents) : Prop :=
  ¬ c.Counted ∨ position = 0 ∨ (commitWrites E latest c).length ≤ position

section
variable {E : Encoding} {choices : Choices} {c : BlockContents} {s : Store} {latest position : Nat}

theorem atomic_of_unbroken (read : latestBlockHeightOrZero E (dataStore choices) s = .ok latest)
    (unbroken : Unbroken E latest position c) : Atomic E choices position c s := by
  intro e after failed query
  by_cases counted : c.Counted
  · obtain ⟨final,run,wrote⟩ := commitBlock_faulty counted read position
    rw [run] at failed
    split at failed
    · next before =>
      cases failed
      have first : position = 0 := by
        rcases unbroken with uncounted | first | late
        · exact absurd counted uncounted
        · exact first
        · omega
      rw [first] at wrote
      exact answer_congr E query (fun name _ => sameBytes_of_table (wrote.table name))
    · cases failed
  · obtain ⟨e',refused⟩ := commitBlock_uncounted E (faulty (dataStore choices) position) c counted (s,0)
    rw [refused] at failed
    cases failed
    rfl

theorem blockByHeight_notFound {height : Nat} : (store E choices).blockByHeight height s = .error .notFound ↔
    ∀ row ∈ (s.database .blocks).rows, row.key = hexEncode (blockHeight height) → 0 < row.version :=
  (bind_decode_notFound E.block _).trans selectAtVersion_notFound

/-- A write after the first one fails: the block is stored all the same. -/
theorem unbroken_of_atomic (read : latestBlockHeightOrZero E (dataStore choices) s = .ok latest)
    (unstored : (store E choices).blockByHeight c.block.height s = .error .notFound)
    (atomic : Atomic E choices position c s) : Unbroken E latest position c := by
  by_contra broken
  unfold Unbroken at broken
  push Not at broken
  obtain ⟨counted,later,inside⟩ := broken
  obtain ⟨final,run,wrote⟩ := commitBlock_faulty counted read position
  rw [if_pos inside] at run
  have same := atomic .backend (final,position) run (.blockByHeight c.block.height)
  let w : Write := .plain .blocks (blockHeight c.block.height) (E.block.encode c.block)
  have written : rowAt c.block.height w ∈
      (writesTo .blocks ((commitWrites E latest c).take position)).map (rowAt c.block.height) := by
    obtain ⟨n,rfl⟩ := Nat.exists_eq_succ_of_ne_zero later
    refine List.mem_map_of_mem (List.mem_filter.mpr ⟨?_,rfl⟩)
    exact List.mem_cons_self
  have slot : (rowAt c.block.height w).slot ∈ (final.database .blocks).rows.map Row.slot := by
    rw [wrote.table]
    exact slot_foldl_upsert.mpr (.inl (List.mem_map_of_mem written))
  obtain ⟨row,member,rowSlot⟩ := List.mem_map.mp slot
  have missing : (store E choices).blockByHeight c.block.height final = .error .notFound := Eq.trans same unstored
  have above := blockByHeight_notFound.mp missing row member (congrArg Prod.fst rowSlot)
  have zero : row.version = 0 := congrArg (·.2.1) rowSlot
  omega

end

theorem commitWrites_length (E : Encoding) (latest : Nat) (c : BlockContents) :
    (commitWrites E latest c).length ≤ (commitWrites E 0 c).length := by
  have tip : (tipWrites E latest c.block).length ≤ (tipWrites E 0 c.block).length := by
    unfold tipWrites
    rw [if_pos (Nat.zero_le _)]
    split <;> simp
  simp only [commitWrites,blockWrites,List.length_append,List.length_cons]
  omega

theorem fresh_blockByHeight (E : Encoding) (choices : Choices) (url : Url) (height : Nat) :
    (store E choices).blockByHeight height (fresh url) = .error .notFound := by
  rw [blockByHeight_notFound]
  intro row member
  rw [fresh_database] at member
  cases member

/-- A commit of which the call at a position fails leaves every store as it was
    exactly when nothing is written before the failing call. In a store that does
    not have the block yet this holds for the store itself. -/
theorem commit_atomic_iff (E : Encoding) (choices : Choices) (position : Nat) (c : BlockContents) :
    ((∀ s latest, latestBlockHeightOrZero E (dataStore choices) s = .ok latest → Atomic E choices position c s) ↔
      Unbroken E 0 position c) ∧
    ∀ s latest, latestBlockHeightOrZero E (dataStore choices) s = .ok latest →
      (store E choices).blockByHeight c.block.height s = .error .notFound →
      (Atomic E choices position c s ↔ Unbroken E latest position c) := by
  refine ⟨⟨fun atomic => ?_,fun unbroken s latest read => ?_⟩,fun s latest read unstored => ?_⟩
  · have read := tip_read (fresh_tip E .inMemory) choices
    exact unbroken_of_atomic read (fresh_blockByHeight E choices .inMemory _) (atomic _ _ read)
  · refine atomic_of_unbroken read ?_
    rcases unbroken with uncounted | first | late
    · exact .inl uncounted
    · exact .inr (.inl first)
    · exact .inr (.inr ((commitWrites_length E latest c).trans late))
  · exact ⟨unbroken_of_atomic read unstored,atomic_of_unbroken read⟩

/-- Once the call that advances the latest height went through, the block is the
    latest one, whatever of its contents is missing. -/
theorem tip_advanced {E : Encoding} (choices : Choices) {c : BlockContents} {s : Store} {latest : Option Nat}
    {position : Nat} (counted : c.Counted) (tip : Tip E s latest) (low : latest.getD 0 ≤ c.block.height)
    (late : 3 ≤ position) (inside : position < (commitWrites E (latest.getD 0) c).length) :
    ∃ final, commitBlock E (faulty (dataStore choices) position) c (s,0) = (.error .backend,final,position) ∧
      Tip E final (some c.block.height) := by
  obtain ⟨final,run,wrote⟩ := commitBlock_faulty counted (tip_read tip choices) position
  rw [if_pos inside] at run
  refine ⟨final,run,tip_upsert tip ?_⟩
  let w : Write := .plain .global Keys.latestBlock (E.uint64.encode c.block.height)
  have all : writesTo .global (commitWrites E (latest.getD 0) c) = [w] := by
    rw [writesTo_commitWrites]
    exact if_pos low
  have member : w ∈ writesTo .global ((commitWrites E (latest.getD 0) c).take position) := by
    obtain ⟨n,rfl⟩ := Nat.exists_eq_add_of_le' late
    refine List.mem_filter.mpr ⟨?_,rfl⟩
    unfold commitWrites blockWrites tipWrites
    rw [if_pos low]
    simp [w]
  have front : writesTo .global ((commitWrites E (latest.getD 0) c).take position) <+: [w] := by
    rw [← all]
    exact (List.take_prefix _ _).filter _
  have only : writesTo .global ((commitWrites E (latest.getD 0) c).take position) = [w] := by
    refine front.eq_of_length_le ?_
    exact List.length_pos_of_mem member
  rw [wrote.table,only]
  rfl

/-- The last of the four calls for an empty block 1 fails: block 1 is the latest block. -/
theorem commit_error_advances_latest :
    ¬ Atomic Samples.encoding .earliest 3 (Samples.emptyContents 1)
      (run (store Samples.encoding .earliest).commitBlock [Samples.emptyContents 0] (fresh .inMemory)) := by
  have chain : Chain 0 [Samples.emptyContents 0] := ⟨rfl,by decide,trivial⟩
  obtain ⟨tip,_⟩ := run_tip (commits_commitBlock Samples.encoding .earliest) chain (fresh_tip Samples.encoding .inMemory)
    (Nat.le_refl 0) (by simp)
  have counted : (Samples.emptyContents 1).Counted := by decide
  obtain ⟨final,failed,advanced⟩ := tip_advanced .earliest counted tip (by decide) (Nat.le_refl 3) (by decide)
  intro atomic
  have same := atomic _ _ failed .latestBlockHeight
  have before := tip_latestBlockHeight tip .earliest
  have after := tip_latestBlockHeight advanced .earliest
  have heights : (Except.ok 1 : Except StoreError Nat) = .ok 0 := after.symm.trans (Eq.trans same before)
  cases heights

end FlowEmulator.Sqlite
