import FlowEmulator.Accounts
import FlowEmulator.Logged

/-!
Reads at a height: an account, some registers, the result of a script. Over the
SQL store and over the store in memory the log of the store is what the reads of
blocks and of ledgers answer from. Scripts ask for the block of the height first
and the other two do not, so above the latest block only scripts fail.
-/
namespace FlowEmulator
open FlowEmulator.Fallible FlowEmulator.Logged

/-- The reads of a store answer from a chain. That there is no block is never why a ledger is not read. -/
structure Answers {σ : Type} (E : Encoding) (B : Backend σ) (cs : List BlockContents) (s : σ) : Prop where
  blocks : ∀ height, B.blockByHeight height s = found (cs[height]?.map BlockContents.block)
  ids : (∀ c ∈ cs, ∀ d ∈ cs, E.blockID c.block = E.blockID d.block → c.block = d.block) →
    ∀ c ∈ cs, B.blockByID (E.blockID c.block) s = .ok c.block
  heights : ∀ (height : Nat) (c : BlockContents), cs[height]? = some c → c.block.height = height
  ledger : ∀ height, height < cs.length → ∀ r, B.ledgerByHeight height r s = .ok (ledgerAt cs height r)
  unaware : ∀ height r, B.ledgerByHeight height r s ≠ .error (.blockNotFoundByHeight height)

/-! ### The store over SQL -/

namespace Sqlite
open FlowEmulator.DefaultStore FlowEmulator.VersionedTable

def places : Places Store := ⟨Store.db,fun s => s.url = .inMemory⟩

/-- The database has the blocks of a list and their write sets. -/
structure Contains (E : Encoding) (cs : List BlockContents) (content : Database) : Prop where
  recorded : ∃ latest, Recorded E 0 none cs latest content
  ledger : Held (ledgerWrites E) cs (content .ledger)

/-- Each database has the blocks of its log. -/
def Logs (E : Encoding) (log : Log) (s : Store) : Prop :=
  ∀ name content, s.databases name = some content → Contains E (log name) content

/-- Rollbacks that take effect go to heights that are not above the latest. -/
def Effective (E : Encoding) (choices : Choices) (height : Nat) (s : Store) : Prop :=
  height < s.currentHeight → NotAboveLatest E choices height s

section
variable {E : Encoding} {choices : Choices} {latest : Nat} {s after : Store} {log : Log}

theorem logs_open (logs : Logs E log s) : Contains E (log s.db) s.database := logs _ _ s.databases_db

/-- A change of the open database. -/
theorem logs_put (logs : Logs E log s) (db : after.db = s.db)
    (others : ∀ name, name ≠ s.db → after.databases name = s.databases name) {cs : List BlockContents}
    (contains : Contains E cs after.database) : Logs E (Function.update log s.db cs) after := by
  intro name content kept
  by_cases opened : name = s.db
  · subst opened
    rw [← db,after.databases_db] at kept
    cases kept
    rw [Function.update_self]
    exact contains
  · rw [others name opened] at kept
    rw [Function.update_of_ne opened]
    exact logs name content kept

theorem contains_first {c : BlockContents} (empty : ∀ name, s.database name = Table.empty) (counted : c.Counted)
    (height : c.block.height = 0) (wrote : Wrote c.block.height (commitWrites E 0 c) s after) :
    Contains E [c] after.database := by
  have fixed (latest : Nat) (c : BlockContents) : writesTo .ledger (commitWrites E latest c) = ledgerWrites E c :=
    writesTo_commitWrites E latest c .ledger
  have none : Held (ledgerWrites E) [] (s.database .ledger) := by rw [empty]; exact held_empty _
  exact ⟨⟨0,recorded_first empty counted height wrote⟩,held_wrote fixed none wrote⟩

/-- The latest height of the chain is the one in the cells of the store. -/
theorem contains_latest {cs : List BlockContents} (contains : Contains E cs s.database) (filed : Filed E none latest s.database) :
    Recorded E 0 none cs latest s.database := by
  obtain ⟨other,recorded⟩ := contains.recorded
  have same := (recorded_latestBlockHeight .earliest recorded).symm.trans (filed_latestBlockHeight .earliest filed)
  cases same
  exact recorded

theorem contains_saved {static : Identifier → Bool} {c : BlockContents} {cs : List BlockContents}
    (contains : Contains E cs s.database) (recorded : Recorded E 0 none cs latest s.database) (counted : c.Counted)
    (height : c.block.height = latest+1) (wrote : Wrote c.block.height (saveWrites E static latest c) s after) :
    Contains E (cs ++ [c]) after.database := by
  have fixed (latest : Nat) (c : BlockContents) : writesTo .ledger (saveWrites E static latest c) = ledgerWrites E c :=
    writesTo_saveWrites E static latest c .ledger
  exact ⟨⟨_,recorded_saved recorded counted height wrote⟩,held_wrote fixed contains.ledger wrote⟩

theorem contains_rolledBack {cs : List BlockContents} (contains : Contains E cs s.database)
    (recorded : Recorded E 0 none cs latest s.database) {height : Nat} (rolled : RolledBack E height s after)
    (below : height ≤ latest) : Contains E (cs.filter fun c => c.block.height ≤ height) after.database := by
  refine ⟨⟨height,?_⟩,?_⟩
  · rw [chain_filter recorded.chain]
    exact recorded_rolledBack recorded rolled (Nat.zero_le _) below
  · rw [rolled.table]
    refine held_deleteAbove contains.ledger (fun c _ w written => ?_) height
    obtain ⟨entry,_,rfl⟩ := List.mem_map.mp written
    exact fun same => by cases same

variable (choices) in
theorem contains_answers {cs : List BlockContents} (contains : Contains E cs s.database) :
    Answers E (backend E choices) cs s := by
  obtain ⟨latest,recorded⟩ := contains.recorded
  have reads (height : Nat) (r : RegisterID) :
      ledgerByHeight E (dataStore choices) height r s = .ok (ledgerAt cs height r) :=
    held_ledger contains.ledger recorded.chain height r
  have heights (height : Nat) (c : BlockContents) (here : cs[height]? = some c) : c.block.height = height := by
    rw [(chain_getElem recorded.chain here).1,Nat.zero_add]
  refine ⟨fun height => ?_,fun distinct c here => recorded_blockByID choices recorded distinct here,heights,
    fun height _ r => reads height r,fun height r missing => nomatch (reads height r).symm.trans missing⟩
  show blockByHeight E (dataStore choices) height s = _
  cases here : cs[height]? with
  | none =>
    have count := recorded.count
    have outside := List.getElem?_eq_none_iff.mp here
    exact recorded_noBlock choices recorded (.inr (by omega))
  | some c =>
    have read := recorded_blockByHeight choices recorded (List.mem_of_getElem? here)
    rw [heights height c here] at read
    exact read

variable (E choices) in
/-- The chain grows under all rollbacks that do not take effect above the latest height. -/
theorem growing_effective : Growing E (backend E choices) (fun s => .ok (reopen s)) (fun s => ∃ url, s = fresh url)
    (AllChained E) (Effective E choices) :=
  { growing_backend E choices with
    rollback := by
      intro rollback height latest s provider effective holds
      cases provider
      by_cases low : s.currentHeight ≤ height
      · show Leads _ _ (rollbackToBlockHeight E choices height s)
        rw [rollback_refused low]
        exact holds
      · exact allChained_rollback holds (effective (Nat.not_le.mp low)) }

variable (E choices) in
/-- The store over SQL contains what its log says. -/
theorem keeping_backend : Keeping E (backend E choices) places (fun s => .ok (reopen s)) (fun s => ∃ url, s = fresh url)
    (AllChained E) (Effective E choices) (Logs E) where
  growing := growing_effective E choices
  first := by
    rintro _ c after ⟨url,rfl⟩ height run
    have commits := commits_commitBlock E choices
    by_cases counted : c.Counted
    · obtain ⟨written,done,wrote⟩ := commits.wrote c _ none counted (fresh_tip E url)
      cases done.symm.trans run
      have contains := contains_first (fresh_database url) counted height wrote
      intro name content kept
      by_cases main : name = .main
      · have opened : name = after.db := main.trans wrote.db.symm
        rw [opened,after.databases_db] at kept
        cases kept
        subst main
        exact contains
      · have absent := (wrote.others name main).trans (fresh_others url main)
        cases kept.symm.trans absent
    · obtain ⟨e,refused⟩ := commits.refused c (fresh url) counted
      cases run.symm.trans refused
  saved holds logs height run := by
    obtain ⟨counted,wrote⟩ := saved_wrote (filed_tip holds.chained.filed) run
    have contains := logs_open logs
    have recorded := contains_latest contains holds.chained.filed
    exact logs_put logs wrote.db wrote.others (contains_saved contains recorded counted height wrote)
  refused {latest s static c e after} holds run := by
    refine ⟨refused_same (filed_tip holds.chained.filed) run,fun middle commit => ?_⟩
    by_cases counted : c.Counted
    · obtain ⟨_,saved,_⟩ := (commits_saveBlock E choices static).wrote c s _ counted (filed_tip holds.chained.filed)
      cases saved.symm.trans run
    · obtain ⟨_,refused⟩ := (commits_commitBlock E choices).refused c s counted
      cases commit.symm.trans refused
  rollback {rollback height latest s log after} provider effective holds logs run := by
    cases provider
    by_cases low : s.currentHeight ≤ height
    · cases (rollback_refused low).symm.trans run
    · obtain ⟨_,done,rolled⟩ := rollback_run E choices (Nat.not_le.mp low)
      cases done.symm.trans run
      have below := effective (Nat.not_le.mp low) latest (filed_latestBlockHeight choices holds.chained.filed)
      have contains := logs_open logs
      have recorded := contains_latest contains holds.chained.filed
      exact logs_put logs rolled.db rolled.others (contains_rolledBack contains recorded rolled below)
  rollbackFailed {rollback height s e after} provider run := by
    cases provider
    by_cases low : s.currentHeight ≤ height
    · cases (rollback_refused low).symm.trans run
      rfl
    · obtain ⟨_,done,_⟩ := rollback_run E choices (Nat.not_le.mp low)
      cases done.symm.trans run
  created {name s log after} logs run := by
    obtain ⟨_,_,_,databases,_⟩ := createSnapshot_ok.mp run
    intro other content kept
    rw [databases] at kept
    by_cases new : other = .snapshot name
    · subst new
      rw [Function.update_self] at kept
      cases kept
      rw [copied,Function.update_self]
      exact logs_open logs
    · rw [Function.update_of_ne new] at kept
      rw [copied,Function.update_of_ne new]
      exact logs other content kept
  createFailed run := createSnapshot_error run
  loaded logs run := by
    obtain ⟨_,_,_,databases,_⟩ := loadSnapshot_ok.mp run
    exact fun name content kept => logs name content (databases ▸ kept)
  loadFailed run := loadSnapshot_error run
  reopened {latest s log after} holds logs opened := by
    cases opened
    by_cases memory : s.url = .inMemory
    · simp only [places,memory,decide_true,if_true]
      exact ⟨s.url,reopen_memory memory⟩
    · simp only [places,memory,decide_false,Bool.false_eq_true,if_false]
      have databases := reopen_databases memory holds.main
      exact ⟨fun name content kept => logs name content (databases ▸ kept),allChained_reopen_lasting holds memory⟩

end
end Sqlite
/-! ### The store in memory -/

namespace Memstore

def places {τ : Type} : Places (Store τ) := ⟨fun _ => .main,fun _ => true⟩

/-- The maps have the blocks of a list and the trees of their write sets. -/
structure Contains {τ : Type} (E : Encoding) (T : SnapshotTree τ) (cs : List BlockContents) (s : Store τ) : Prop where
  heights : ∀ (height : Nat) (c : BlockContents), cs[height]? = some c → c.block.height = height
  blocks : ∀ height, s.blocks height = cs[height]?.map BlockContents.block
  ids : ∀ id height, s.blockIDToHeight id = some height → ∃ c, cs[height]? = some c ∧ E.blockID c.block = id
  known : ∀ c ∈ cs, (s.blockIDToHeight (E.blockID c.block)).isSome
  ledger : ∀ height, height < cs.length → ∃ tree, s.ledger height = some tree ∧ ∀ r, T.get tree r = ledgerAt cs height r
  unwritten : ∀ height, cs.length ≤ height → s.ledger height = none

section
variable {τ : Type} {E : Encoding} {T : SnapshotTree τ} {static : Identifier → Bool} {c : BlockContents}
  {cs : List BlockContents} {s after : Store τ}

/-- What the reads of blocks and of the ledger use. -/
def core (s : Store τ) : (Nat → Option Block) × (Identifier → Option Nat) × (Nat → Option τ) :=
  (s.blocks,s.blockIDToHeight,s.ledger)

theorem commitBlock_counted (run : commitBlock E T c s = (.ok (),after)) : c.Counted := by
  unfold commitBlock at run
  split at run
  · cases run
  split at run
  · cases run
  next first second => exact ⟨not_not.mp first,not_not.mp second⟩

/-- A commit leaves what saving the block leaves; only indexes follow. -/
theorem commitBlock_core (run : commitBlock E T c s = (.ok (),after)) :
    core after = core (saved E T (fun _ => true) c s) := by
  have later : Keeps (fun t : Store τ => core t = core after) (indexing (store E T) E (fun _ => true) c) := by
    refine keeps_bind (keeps_forM (fun _ _ same => same) _) (fun _ => keeps_forM (fun _ => keeps_pure _ ()) _)
  have kept := later after rfl
  have whole : (store E T).saveBlock E (fun _ => true) c s = indexing (store E T) E (fun _ => true) c after := bind_ok run _
  rw [saveBlock_run E T (fun _ => true) c (commitBlock_counted run)] at whole
  rw [← whole] at kept
  exact kept.symm

theorem ledgerAt_next (contains : Contains E T cs s) (r : RegisterID) :
    T.get (T.append ((s.ledger (before cs.length)).getD T.empty) c.executionSnapshot) r =
      ledgerAt (cs ++ [c]) cs.length r := by
  rw [T.get_append]
  cases length : cs.length with
  | zero =>
    obtain rfl := List.eq_nil_of_length_eq_zero length
    rw [contains.unwritten _ (Nat.zero_le _),Option.getD_none,T.get_empty]
    rfl
  | succ n =>
    obtain ⟨tree,here,reads⟩ := contains.ledger n (by omega)
    have last : (cs ++ [c])[n+1]? = some c := by rw [← length,List.getElem?_concat_length]
    have previous : before (n+1) = n := rfl
    rw [ledgerAt_succ last,ledgerAt_append (by omega),previous,here,Option.getD_some,reads]
    rfl

/-- One more block in the maps. -/
theorem contains_core (contains : Contains E T cs s) (next : c.block.height = cs.length)
    (same : core after = core (saved E T static c s)) : Contains E T (cs ++ [c]) after := by
  have blocks : after.blocks = Function.update s.blocks c.block.height (some c.block) := congrArg Prod.fst same
  have index : after.blockIDToHeight = Function.update s.blockIDToHeight (E.blockID c.block) (some c.block.height) :=
    congrArg (fun parts => parts.2.1) same
  have ledger : after.ledger = Function.update s.ledger c.block.height
      (some (T.append ((s.ledger (before c.block.height)).getD T.empty) c.executionSnapshot)) :=
    congrArg (fun parts => parts.2.2) same
  rw [next] at blocks index ledger
  have last : (cs ++ [c])[cs.length]? = some c := List.getElem?_concat_length ..
  have old {height : Nat} (other : height ≠ cs.length) : (cs ++ [c])[height]? = cs[height]? := by
    by_cases low : height < cs.length
    · exact List.getElem?_append_left low
    · rw [List.getElem?_eq_none (by simp; omega),List.getElem?_eq_none (by omega)]
  refine ⟨fun height d here => ?_,fun height => ?_,fun id height here => ?_,fun d member => ?_,fun height low => ?_,
    fun height high => ?_⟩
  · by_cases tip : height = cs.length
    · subst tip
      cases last.symm.trans here
      exact next
    · rw [old tip] at here
      exact contains.heights height d here
  · rw [blocks]
    by_cases tip : height = cs.length
    · subst tip
      rw [Function.update_self,last]
      rfl
    · rw [Function.update_of_ne tip,old tip]
      exact contains.blocks height
  · rw [index] at here
    by_cases own : id = E.blockID c.block
    · subst own
      rw [Function.update_self] at here
      cases here
      exact ⟨c,last,rfl⟩
    · rw [Function.update_of_ne own] at here
      obtain ⟨d,there,named⟩ := contains.ids id height here
      obtain ⟨inside,_⟩ := List.getElem?_eq_some_iff.mp there
      exact ⟨d,by rw [old (by omega)]; exact there,named⟩
  · rw [index]
    by_cases own : E.blockID d.block = E.blockID c.block
    · rw [own,Function.update_self]
      rfl
    · rw [Function.update_of_ne own]
      rcases List.mem_append.mp member with before | new
      · exact contains.known d before
      · exact absurd (by rw [List.mem_singleton.mp new]) own
  · rw [ledger]
    by_cases tip : height = cs.length
    · subst tip
      rw [Function.update_self]
      exact ⟨_,rfl,ledgerAt_next contains⟩
    · rw [List.length_append,List.length_singleton] at low
      obtain ⟨tree,here,reads⟩ := contains.ledger height (by omega)
      refine ⟨tree,by rw [Function.update_of_ne tip]; exact here,fun r => ?_⟩
      rw [ledgerAt_append (by omega)]
      exact reads r
  · rw [List.length_append,List.length_singleton] at high
    rw [ledger,Function.update_of_ne (by omega)]
    exact contains.unwritten height (by omega)

/-- The list is as long as the chain. -/
theorem contains_length {latest : Nat} (contains : Contains E T cs s) (chained : Chained latest s) : cs.length = latest+1 := by
  obtain ⟨block,here,_⟩ := chained.found latest (Nat.le_refl latest)
  have above := chained.above (latest+1) (Nat.lt_succ_self latest)
  rw [contains.blocks] at here above
  have low : latest < cs.length := by
    by_contra outside
    rw [List.getElem?_eq_none (by omega)] at here
    cases here
  have high : cs.length ≤ latest+1 := by simpa using above
  omega

theorem contains_answers (contains : Contains E T cs s) : Answers E (backend E T) cs s := by
  refine ⟨fun height => ?_,fun distinct c here => ?_,contains.heights,fun height low r => ?_,fun height r => nofun⟩
  · show found (s.blocks height) = _
    rw [contains.blocks]
  · obtain ⟨height,index⟩ := Option.isSome_iff_exists.mp (contains.known c here)
    obtain ⟨d,there,named⟩ := contains.ids _ height index
    have same := distinct d (List.mem_of_getElem? there) c here named
    show (found (s.blockIDToHeight (E.blockID c.block))).bind (fun height => blockByHeight height s) = _
    rw [index]
    show found (s.blocks height) = _
    rw [contains.blocks,there]
    exact congrArg Except.ok same
  · obtain ⟨tree,here,reads⟩ := contains.ledger height low
    show Except.ok (T.get ((s.ledger height).getD T.empty) r) = _
    rw [here,Option.getD_some,reads]

variable (E T) in
/-- The store in memory contains what its log says. -/
theorem keeping_backend : Keeping E (backend E T) places (fun _ => .ok new) (fun s => s = new) Chained (fun _ _ => True)
    (fun log s => Contains E T (log .main) s) where
  growing := growing_backend E T
  first := by
    rintro _ c after rfl height run
    have nothing : Contains E T [] (new : Store τ) :=
      ⟨by simp,fun _ => rfl,fun _ _ wrong => (nomatch wrong),by simp,by simp,fun _ _ => rfl⟩
    exact contains_core nothing height (commitBlock_core run)
  saved {latest s log static c after} holds logs height run := by
    obtain ⟨_,commit⟩ := saveBlock_commits run
    have stored := saveBlock_run E T static c (commitBlock_counted commit) s
    cases stored.symm.trans run
    have same : core (saved E T static c s) = core (saved E T static c s) := rfl
    exact contains_core logs (height.trans (contains_length logs holds).symm) same
  refused {latest s static c e after} holds run := by
    refine ⟨saveBlock_refused run,fun middle commit => ?_⟩
    cases (saveBlock_run E T static c (commitBlock_counted commit) s).symm.trans run
  rollback provider := nomatch provider
  rollbackFailed provider := nomatch provider
  created _ run := nomatch run
  createFailed run := by
    cases run
    rfl
  loaded _ run := nomatch run
  loadFailed run := by
    cases run
    rfl
  reopened _ _ opened := by
    cases opened
    rfl

end
end Memstore
/-! ### Both of them -/

namespace Local
variable {τ : Type}

def places : (store : Local τ) → Places store.Storage
  | .sqlite _ => Sqlite.places
  | .redis _ => ⟨fun _ => .main,fun _ => false⟩
  | .memory _ => Memstore.places

/-- The stores that keep the heights of registers as they are. Redis keeps them as floating point numbers. -/
def Exact : Local τ → Prop
  | .redis _ => False
  | .sqlite _ | .memory _ => True

/-- Where there are rollbacks, those that take effect go to heights that are not above the latest. -/
def Effective (E : Encoding) : (store : Local τ) → Nat → store.Storage → Prop
  | .sqlite choices => Sqlite.Effective E choices
  | .redis _ | .memory _ => fun _ _ => True

/-- The store with its log. -/
def logged (E : Encoding) (store : Local τ) : Backend (store.Storage × Log) := Logged.backend store.places (store.backend E)

/-- The emulators, with the logs of their stores, that actions reach from a start on an empty store. -/
def Followed (E : Encoding) (M : Machine) (config : Config) (store : Local τ) (b : Blockchain (store.Storage × Log)) : Prop :=
  ReachedFrom E M config (store.logged E) (Logged.reopen store.places store.reopen) (Logged.Empty store.Empty)
    (fun height x => store.Effective E height x.1) b

/-- The blocks of the database that is open: those that are committed. -/
def blocks (store : Local τ) (b : Blockchain (store.Storage × Log)) : List BlockContents :=
  b.storage.2 (store.places.current b.storage.1)

/-- Blocks are read, and ledgers at their heights, as they were committed. -/
theorem followed_answers {E : Encoding} {M : Machine} {config : Config} {store : Local τ}
    {b : Blockchain (store.Storage × Log)} (exact : store.Exact) (followed : store.Followed E M config b) :
    Answers E (store.logged E) (store.blocks b) b.storage := by
  have plain (answers : Answers E (store.backend E) (store.blocks b) b.storage.1) :
      Answers E (store.logged E) (store.blocks b) b.storage :=
    ⟨answers.blocks,answers.ids,answers.heights,answers.ledger,answers.unaware⟩
  cases store with
  | sqlite choices =>
    obtain ⟨_,⟨_,logs⟩,_⟩ := reachedFrom_grown (growing_logged (Sqlite.keeping_backend E choices)) followed
    exact plain (Sqlite.contains_answers choices (Sqlite.logs_open logs))
  | redis choice => exact absurd exact id
  | memory tree =>
    obtain ⟨_,⟨_,logs⟩,_⟩ := reachedFrom_grown (growing_logged (Memstore.keeping_backend E tree)) followed
    exact plain (Memstore.contains_answers logs)

end Local

namespace Blockchain
open FlowEmulator.Text (Bytes)
open FlowEmulator.Chronicle (reading)

section
variable {σ : Type} (E : Encoding) (M : Machine) (R : Reader) (B : Backend σ)

/-- A read at a height, with what it is given. -/
structure Reads where
  address : Address
  registerIDs : List RegisterID
  script : Bytes
  arguments : List Bytes

def blockNotFound (height : Nat) : ReadError := .query (.storage (.blockNotFoundByHeight height))

/-- The three reads answer from the ledger of the block that is committed at the
    height; without one they fail for that reason. -/
def Agree (cs : List BlockContents) (reads : Reads) (height : Nat) (b : Blockchain σ) : Prop :=
  match cs[height]? with
  | some c =>
    getAccountAtBlock R B reads.address height b = accountIn R reads.address (reading (ledgerAt cs height)) ∧
    getRegisterValues B reads.registerIDs height b = .ok (reads.registerIDs.map (ledgerAt cs height)) ∧
    executeScriptAtBlockHeight E M R B reads.script reads.arguments height b =
      runScriptAt M R c.block reads.script reads.arguments (reading (ledgerAt cs height))
  | none =>
    getAccountAtBlock R B reads.address height b = .error (blockNotFound height) ∧
    getRegisterValues B reads.registerIDs height b = .error (blockNotFound height) ∧
    executeScriptAtBlockHeight E M R B reads.script reads.arguments height b = .error (blockNotFound height)

end

section
variable {σ : Type} {E : Encoding} {M : Machine} {R : Reader} {B : Backend σ} {cs : List BlockContents} {b : Blockchain σ}

theorem ledger_reading (answers : Answers E B cs b.storage) {height : Nat} (inside : height < cs.length) :
    b.ledger B height = reading (ledgerAt cs height) := funext (answers.ledger height inside)

/-- Reads of registers do not fail because there is no block. -/
theorem getRegisterValues_unaware (answers : Answers E B cs b.storage) (ids : List RegisterID) (height : Nat) :
    getRegisterValues B ids height b ≠ .error (blockNotFound height) := by
  intro failed
  obtain ⟨i,id,_,read⟩ := traverse_error failed
  cases found : b.ledger B height id with
  | ok value => rw [found] at read; cases read
  | error e =>
    rw [found] at read
    cases read
    exact answers.unaware height id found

theorem agree_iff (answers : Answers E B cs b.storage)
    (distinct : ∀ c ∈ cs, ∀ d ∈ cs, E.blockID c.block = E.blockID d.block → c.block = d.block) (reads : Reads) (height : Nat) :
    Agree E M R B cs reads height b ↔ ∃ block, getBlockByHeight B height b = .ok block := by
  have block := answers.blocks height
  rw [Agree]
  cases here : cs[height]? with
  | none =>
    rw [here] at block
    simp [getRegisterValues_unaware answers reads.registerIDs height,getBlockByHeight,block,found,orMissing]
  | some c =>
    rw [here] at block
    have inside : height < cs.length := (List.getElem?_eq_some_iff.mp here).1
    have ledger := ledger_reading answers inside
    have own := answers.ids distinct c (List.mem_of_getElem? here)
    have same := answers.heights height c here
    have found : getBlockByHeight B height b = .ok c.block := by simp [getBlockByHeight,block,found,orMissing]
    refine iff_of_true ⟨?_,?_,?_⟩ ⟨c.block,found⟩
    · rw [getAccountAtBlock,ledger]
    · rw [getRegisterValues,ledger]
      exact traverse_ok (fun _ _ _ => rfl) 0
    · simp [executeScriptAtBlockHeight,executeScriptAtBlockID,found,own,same,ledger,bind,Except.bind,Except.mapError]

/-- In every run the three reads at a height agree exactly if a block is committed at it. -/
theorem historicalReads_agree_iff {τ : Type} {config : Config} {store : Local τ} {b : Blockchain (store.Storage × Log)}
    (exact : store.Exact) (followed : store.Followed E M config b)
    (distinct : ∀ c ∈ store.blocks b, ∀ d ∈ store.blocks b, E.blockID c.block = E.blockID d.block → c.block = d.block)
    (reads : Reads) (height : Nat) :
    (store.logged E).blockByHeight height b.storage = found ((store.blocks b)[height]?.map BlockContents.block) ∧
    (Agree E M R (store.logged E) (store.blocks b) reads height b ↔
      ∃ block, getBlockByHeight (store.logged E) height b = .ok block) := by
  have answers := Local.followed_answers exact followed
  exact ⟨answers.blocks height,agree_iff answers distinct reads height⟩

end

/-- Emulators that have just started over the SQL store and over the one in memory. -/
theorem sample_followed {τ : Type} {store : Local τ} (exact : store.Exact) :
    ∃ b, store.Followed Samples.encoding Samples.machine Samples.config b ∧
      store.blocks b = [genesisContents Samples.machine Samples.config ∅ []] := by
  have start {s after : store.Storage} (empty : store.Empty s)
      (none : (store.backend Samples.encoding).latestBlock s = .error .notFound)
      (run : (store.backend Samples.encoding).commitBlock (genesisContents Samples.machine Samples.config ∅ []) s = (.ok (),after))
      (same : store.places.current after = store.places.current s) :
      ∃ b, store.Followed Samples.encoding Samples.machine Samples.config b ∧
        store.blocks b = [genesisContents Samples.machine Samples.config ∅ []] := by
    have noted : (store.logged Samples.encoding).commitBlock (genesisContents Samples.machine Samples.config ∅ []) (s,fun _ => []) =
        (.ok (),(after,committed store.places (genesisContents Samples.machine Samples.config ∅ []) s fun _ => [])) := by
      show noting _ ((store.backend Samples.encoding).commitBlock _) _ = _
      rw [noting_run,run]
    have none' : (store.logged Samples.encoding).latestBlock (s,fun _ => []) = .error .notFound := none
    refine ⟨_,Run.reachable_initial ⟨Samples.tick,false,(s,fun _ => []),⟨empty,rfl⟩,
      new_bootstrapped Samples.tick false none' rfl noted⟩,?_⟩
    simp [Local.blocks,same,committed]
  cases store with
  | sqlite choices =>
    have tip := Sqlite.fresh_tip Samples.encoding .inMemory
    obtain ⟨after,run,wrote⟩ := (Sqlite.commits_commitBlock Samples.encoding choices).wrote
      (genesisContents Samples.machine Samples.config ∅ []) _ none ⟨rfl,rfl⟩ tip
    exact start ⟨.inMemory,rfl⟩ (LinkedChain.empty_latestBlock choices tip) run wrote.db
  | redis choice => exact absurd exact id
  | memory tree => exact start rfl rfl rfl rfl

/-- On a new emulator, above its only block, a script fails as there is no block, and registers and accounts are read. -/
def DisagreesAbove (store : Local (List WriteSet)) : Prop :=
  ∃ b, store.Followed Samples.encoding Samples.machine Samples.config b ∧
    executeScriptAtBlockHeight Samples.encoding Samples.machine Samples.reader (store.logged Samples.encoding) [] [] 1 b =
      .error (blockNotFound 1) ∧
    getAccountAtBlock Samples.reader (store.logged Samples.encoding) 1 1 b = .error (.accountNotFound 1) ∧
    getRegisterValues (store.logged Samples.encoding) [] 1 b = .ok [] ∧
    ¬ Agree Samples.encoding Samples.machine Samples.reader (store.logged Samples.encoding) (store.blocks b) ⟨1,[],[],[]⟩ 1 b

theorem disagreesAbove_exact {store : Local (List WriteSet)} (exact : store.Exact) : DisagreesAbove store := by
  obtain ⟨b,followed,blocks⟩ := sample_followed exact
  have none := (Local.followed_answers exact followed).blocks 1
  rw [blocks] at none
  refine ⟨b,followed,?_,rfl,rfl,?_⟩
  · simp [executeScriptAtBlockHeight,getBlockByHeight,none,found,orMissing,bind,Except.bind,Except.mapError,blockNotFound]
  · rw [blocks]
    rintro ⟨wrong,_⟩
    cases wrong

theorem read_above_latest : DisagreesAbove (.sqlite .earliest) ∧ DisagreesAbove (.memory Memstore.SnapshotTree.ofLists) :=
  ⟨disagreesAbove_exact trivial,disagreesAbove_exact trivial⟩

/-- A machine on which every transaction writes a register. -/
def registerWriter : Machine :=
  { Samples.machine with run := fun _ _ _ _ => .ok (AList.singleton ⟨[1],[2]⟩ [7],⟨[],[],0,0,none⟩) }

abbrev memory : Local (List WriteSet) := .memory Memstore.SnapshotTree.ofLists

/-- An emulator in memory has committed a block after the genesis block. -/
theorem register_committed : ∃ b x y, memory.Followed Samples.numberEncoding registerWriter Samples.config b ∧
    memory.blocks b = [x,y] ∧ x.block.height = 0 ∧ y.block.height = 1 ∧
    getRegisterValues (memory.logged Samples.numberEncoding) [⟨[1],[2]⟩] 1 b = .ok [[7]] := by
  obtain ⟨start,started⟩ : ∃ start, newBlockchain Samples.numberEncoding registerWriter Samples.config
      (memory.logged Samples.numberEncoding) Samples.tick false (Memstore.new,fun _ => []) = .ok start := ⟨_,rfl⟩
  have first : memory.Followed Samples.numberEncoding registerWriter Samples.config start :=
    Run.reachable_initial ⟨Samples.tick,false,(Memstore.new,fun _ => []),⟨rfl,rfl⟩,started⟩
  have second : memory.Followed Samples.numberEncoding registerWriter Samples.config
      (commitBlock Samples.numberEncoding registerWriter Samples.config (memory.logged Samples.numberEncoding) Samples.tick start).2 :=
    Run.reachable_step (a := .request (.commitBlock Samples.tick)) first trivial
  cases started
  exact ⟨_,_,_,second,rfl,rfl,rfl,rfl⟩

/-- At the height of the block its register, an account and a script are read. -/
theorem historicalReads_agree_iff_register : ∃ b, memory.Followed Samples.numberEncoding registerWriter Samples.config b ∧
    getRegisterValues (memory.logged Samples.numberEncoding) [⟨[1],[2]⟩] 1 b = .ok [[7]] ∧
    Agree Samples.numberEncoding registerWriter Samples.reader (memory.logged Samples.numberEncoding) (memory.blocks b)
      ⟨1,[⟨[1],[2]⟩],[9],[]⟩ 1 b := by
  have exact : memory.Exact := trivial
  obtain ⟨b,x,y,followed,blocks,low,high,read⟩ := register_committed
  have distinct (c : BlockContents) (here : c ∈ memory.blocks b) (d : BlockContents) (there : d ∈ memory.blocks b)
      (same : Samples.digest c.block.height = Samples.digest d.block.height) : c.block = d.block := by
    rw [blocks] at here there
    simp only [List.mem_cons,List.not_mem_nil,or_false] at here there
    rcases here with rfl | rfl <;> rcases there with rfl | rfl
    · rfl
    · rw [low,high] at same
      exact absurd same (by decide)
    · rw [low,high] at same
      exact absurd same (by decide)
    · rfl
  have agrees := historicalReads_agree_iff (R := Samples.reader) exact followed distinct ⟨1,[⟨[1],[2]⟩],[9],[]⟩ 1
  refine ⟨b,followed,read,agrees.2.mpr ⟨y.block,?_⟩⟩
  have found := agrees.1
  rw [blocks] at found
  simp [getBlockByHeight,found]
  rfl

end Blockchain
end FlowEmulator
