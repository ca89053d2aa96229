import FlowEmulator.BlockStreams
import FlowEmulator.Restarts

/-!
The administration of an emulator over HTTP, on the SQL store: new blocks,
rollbacks, and snapshots that are created and loaded. Behind the requests is a
simple machine, a chain for each database and one of them current (`Branches`):
a request that is answered with success makes its step of that machine and, but for
a rollback, shows the block it leads to; any other answer leaves everything as it was.
-/
namespace FlowEmulator.Admin
open FlowEmulator.Fallible FlowEmulator.Blockchain FlowEmulator.Logged FlowEmulator.Run
open FlowEmulator.LinkedChain (Follows Next)
open FlowEmulator.Sqlite (Choices DatabaseName)
open FlowEmulator.Text (Bytes isDigit decimalValue)

/-- A number in decimal digits that fits in 64 bits. -/
def parseUint (text : Bytes) : Option Nat :=
  if text = [] ∨ ¬ text.all isDigit ∨ 2^64 ≤ decimalValue text then none else some (decimalValue text)

/-- The requests that may change the emulator. -/
inductive Request where
  | newBlock (tick : Tick)
  | rollback (tick : Tick) (height : Bytes)
  | snapshotCreate (tick : Tick) (name : String)
  | snapshotJump (tick : Tick) (name : String)

inductive Status where
  | ok
  | notFound
  | conflict
  | internalServerError
deriving DecidableEq

structure BlockResponse where
  height : Nat
  blockID : Identifier
  context : String
deriving DecidableEq

structure Response where
  status : Status
  body : Option BlockResponse
deriving DecidableEq

def failure (status : Status) : Response := ⟨status,none⟩

/-- The response that shows a block. -/
def shows (E : Encoding) (block : Block) (context : String) : Response := ⟨.ok,some ⟨block.height,E.blockID block,context⟩⟩

/-- The store lists a snapshot. In memory it lists what it was told to create, on disk what it finds. -/
def listed (name : String) (s : Sqlite.Store) : Bool :=
  if s.url = .inMemory then decide (name ∈ s.snapshotNames) else (s.databases (.snapshot name)).isSome

section
variable (E : Encoding) (M : Machine) (config : Config) (choices : Choices)

/-- The store with its log. -/
abbrev backend : Backend (Sqlite.Store × Log) := Logged.backend Sqlite.places (Sqlite.backend E choices)

def latestBlockResponse (name : String) (b : Blockchain (Sqlite.Store × Log)) : Response :=
  match (backend E choices).latestBlock b.storage with
  | .error _ => failure .internalServerError
  | .ok block => shows E block name

/-- Answer an operation with the latest block it leads to. -/
def thenLatest {α : Type} (name : String) :
    Except EmulatorError α × Blockchain (Sqlite.Store × Log) → Response × Blockchain (Sqlite.Store × Log)
  | (.error _,after) => (failure .internalServerError,after)
  | (.ok _,after) => (latestBlockResponse E choices name after,after)

/-- The response to a request, and the emulator after it. -/
def serve : Request → Blockchain (Sqlite.Store × Log) → Response × Blockchain (Sqlite.Store × Log)
  | .newBlock tick, b => thenLatest E choices "" (commitBlock E M config (backend E choices) tick b)
  | .rollback tick text, b => match parseUint text with
    | none => (failure .internalServerError,b)
    | some height => match rollbackToBlockHeight E M config (backend E choices) tick height b with
      | (.error _,after) => (failure .internalServerError,after)
      | (.ok _,after) => (⟨.ok,none⟩,after)
  | .snapshotCreate tick name, b =>
    if name = "" then (failure .internalServerError,b)
    else if (backend E choices).supportSnapshots b.storage = false then (failure .internalServerError,b)
    else if listed name b.storage.1 then (failure .conflict,b)
    else thenLatest E choices name (createSnapshot E M config (backend E choices) tick name b)
  | .snapshotJump tick name, b =>
    if (backend E choices).supportSnapshots b.storage = false then (failure .internalServerError,b)
    else if listed name b.storage.1 = false then (failure .notFound,b)
    else thenLatest E choices name (loadSnapshot E M config (backend E choices) tick name b)

/-- The requests one after the other, with their responses. -/
def serveAll : List Request → Blockchain (Sqlite.Store × Log) → List (Request × Response) × Blockchain (Sqlite.Store × Log)
  | [], b => ([],b)
  | r :: rest, b => ((r,(serve E M config choices r b).1) :: (serveAll rest (serve E M config choices r b).2).1,
      (serveAll rest (serve E M config choices r b).2).2)

end

/-! ### The machine behind the requests -/

/-- The chains of the databases that exist, which database is current, and whether there can be snapshots. -/
structure Branches where
  snapshots : Bool
  current : DatabaseName
  chains : DatabaseName → Option (List BlockContents)

namespace Branches

def chain (x : Branches) : List BlockContents := (x.chains x.current).getD []

def put (cs : List BlockContents) (x : Branches) : Branches :=
  { x with chains := Function.update x.chains x.current (some cs) }

def commit (c : BlockContents) (x : Branches) : Branches := x.put (x.chain ++ [c])

def rollback (height : Nat) (x : Branches) : Branches := x.put (x.chain.filter fun c => c.block.height ≤ height)

def snapshot (name : String) (x : Branches) : Branches :=
  { x with chains := Function.update x.chains (.snapshot name) (some x.chain) }

def jump (name : String) (x : Branches) : Branches := { x with current := .snapshot name }

@[simp] theorem put_chain (cs : List BlockContents) (x : Branches) : (x.put cs).chain = cs := by simp [chain,put]

/-- A snapshot leaves the current chain, also where it goes by the same name. -/
@[simp] theorem snapshot_chain (name : String) (x : Branches) : (x.snapshot name).chain = x.chain := by
  unfold snapshot chain
  dsimp only
  by_cases own : x.current = .snapshot name
  · rw [own,Function.update_self]
    rfl
  · rw [Function.update_of_ne own]

theorem jump_chain {name : String} {x : Branches} {cs : List BlockContents} (there : x.chains (.snapshot name) = some cs) :
    (x.jump name).chain = cs := by
  unfold jump chain
  dsimp only
  rw [there]
  rfl

end Branches

/-- The request can fail although the store supports snapshots. -/
def Request.fallible : Request → Prop
  | .newBlock _ | .rollback _ _ => True
  | .snapshotCreate _ name => name = ""
  | .snapshotJump _ _ => False

/-- What a request does, by its response. -/
inductive Serves (E : Encoding) : Request → Response → Branches → Branches → Prop where
  | failed {r : Request} (x : Branches) (excuse : x.snapshots = false ∨ r.fallible) :
      Serves E r (failure .internalServerError) x x
  | committed (tick : Tick) {x : Branches} {last : BlockContents} (isLast : x.chain.getLast? = some last) (c : BlockContents)
      (height : c.block.height = last.block.height+1) (follows : Follows E last.block c.block) :
      Serves E (.newBlock tick) (shows E c.block "") x (x.commit c)
  | rolledBack (tick : Tick) {text : Bytes} {height : Nat} (parsed : parseUint text = some height) (x : Branches) :
      Serves E (.rollback tick text) ⟨.ok,none⟩ x (x.rollback height)
  | conflict (tick : Tick) {name : String} {x : Branches} (there : (x.chains (.snapshot name)).isSome) :
      Serves E (.snapshotCreate tick name) (failure .conflict) x x
  | created (tick : Tick) {name : String} {x : Branches} (new : x.chains (.snapshot name) = none) {last : BlockContents}
      (isLast : x.chain.getLast? = some last) :
      Serves E (.snapshotCreate tick name) (shows E last.block name) x (x.snapshot name)
  | missing (tick : Tick) {name : String} {x : Branches} (absent : x.chains (.snapshot name) = none) :
      Serves E (.snapshotJump tick name) (failure .notFound) x x
  | jumped (tick : Tick) {name : String} {x : Branches} {cs : List BlockContents} (there : x.chains (.snapshot name) = some cs)
      {last : BlockContents} (isLast : cs.getLast? = some last) :
      Serves E (.snapshotJump tick name) (shows E last.block name) x (x.jump name)

/-- Requests and responses of a whole session. -/
inductive Trace (E : Encoding) : List (Request × Response) → Branches → Branches → Prop where
  | nil (x : Branches) : Trace E [] x x
  | cons {r : Request} {response : Response} {rest : List (Request × Response)} {x y z : Branches}
      (serves : Serves E r response x y) (later : Trace E rest y z) :
      Trace E ((r,response) :: rest) x z

/-- The databases of an emulator with what was committed to them. -/
def branches (b : Blockchain (Sqlite.Store × Log)) : Branches :=
  ⟨Sqlite.supportSnapshotsWithCurrentConfig b.storage.1,b.storage.1.db,
    fun name => (b.storage.1.databases name).map fun _ => b.storage.2 name⟩

theorem branches_chain (b : Blockchain (Sqlite.Store × Log)) : (branches b).chain = b.storage.2 b.storage.1.db := by
  unfold Branches.chain branches
  dsimp only
  rw [b.storage.1.databases_db]
  rfl

/-! ### What the store lists -/

/-- In memory the names of the snapshots are those of the databases. -/
def Named (s : Sqlite.Store) : Prop :=
  s.url = .inMemory → ∀ name, name ∈ s.snapshotNames ↔ (s.databases (.snapshot name)).isSome

section
variable {E : Encoding} {M : Machine} {config : Config} {choices : Choices} {s after : Sqlite.Store}

/-- The databases are the same but for what the open one holds. -/
theorem exists_same (db : after.db = s.db) (others : ∀ name, name ≠ s.db → after.databases name = s.databases name)
    (name : DatabaseName) : (after.databases name).isSome = (s.databases name).isSome := by
  by_cases opened : name = s.db
  · have left := after.opened
    rw [db] at left
    rw [opened,left,s.opened]
  · rw [others name opened]

theorem named_same (named : Named s) (url : after.url = s.url) (db : after.db = s.db)
    (others : ∀ name, name ≠ s.db → after.databases name = s.databases name) (names : after.snapshotNames = s.snapshotNames) :
    Named after := by
  intro memory name
  rw [names,exists_same db others]
  exact named (url.symm.trans memory) name

theorem named_fresh (url : Sqlite.Url) : Named (Sqlite.fresh url) := by
  intro memory name
  rw [Sqlite.fresh_others url (by simp)]
  simp [Sqlite.fresh,Sqlite.new]

theorem named_created {name : String} (named : Named s) (run : Sqlite.createSnapshot name s = (.ok (),after)) : Named after := by
  obtain ⟨_,_,url,databases,_,_,names⟩ := Sqlite.createSnapshot_ok.mp run
  intro memory other
  rw [names,databases,List.mem_append,List.mem_singleton]
  by_cases own : other = name
  · subst own
    simp
  · rw [Function.update_of_ne (by simpa using own),← named (url.symm.trans memory) other]
    simp [own]

theorem named_loaded {name : String} (named : Named s) (run : Sqlite.loadSnapshot name s = (.ok (),after)) : Named after := by
  obtain ⟨_,_,url,databases,_,_,names⟩ := Sqlite.loadSnapshot_ok.mp run
  intro memory other
  rw [names,databases]
  exact named (url.symm.trans memory) other

variable (E choices) in
/-- The store contains what its log says and lists what it has. -/
theorem keeping_named : Keeping E (Sqlite.backend E choices) Sqlite.places (fun s => .ok (Sqlite.reopen s))
    (fun s => ∃ url, s = Sqlite.fresh url) (Sqlite.AllChained E) (Sqlite.Effective E choices)
    (fun log s => Sqlite.Logs E log s ∧ Named s) :=
  have keeping := Sqlite.keeping_backend E choices
  { growing := keeping.growing
    first := by
      rintro _ c after ⟨url,rfl⟩ height run
      refine ⟨keeping.first ⟨url,rfl⟩ height run,?_⟩
      have commits := Sqlite.commits_commitBlock E choices
      by_cases counted : c.Counted
      · obtain ⟨written,done,wrote⟩ := commits.wrote c _ none counted (Sqlite.fresh_tip E url)
        cases done.symm.trans run
        exact named_same (named_fresh url) wrote.url wrote.db wrote.others wrote.snapshotNames
      · obtain ⟨e,refused⟩ := commits.refused c (Sqlite.fresh url) counted
        cases run.symm.trans refused
    saved := by
      intro latest s log static c after holds logs height run
      obtain ⟨_,wrote⟩ := Sqlite.saved_wrote (Sqlite.filed_tip holds.chained.filed) run
      exact ⟨keeping.saved holds logs.1 height run,named_same logs.2 wrote.url wrote.db wrote.others wrote.snapshotNames⟩
    refused := keeping.refused
    rollback := by
      intro rollback height latest s log after provider allowed holds logs run
      refine ⟨keeping.rollback provider allowed holds logs.1 run,?_⟩
      cases provider
      by_cases low : s.currentHeight ≤ height
      · cases (Sqlite.rollback_refused low).symm.trans run
      · obtain ⟨_,done,rolled⟩ := Sqlite.rollback_run E choices (Nat.not_le.mp low)
        cases done.symm.trans run
        exact named_same logs.2 rolled.url rolled.db rolled.others rolled.snapshotNames
    rollbackFailed := keeping.rollbackFailed
    created := fun logs run => ⟨keeping.created logs.1 run,named_created logs.2 run⟩
    createFailed := keeping.createFailed
    loaded := fun logs run => ⟨keeping.loaded logs.1 run,named_loaded logs.2 run⟩
    loadFailed := keeping.loadFailed
    reopened := by
      intro latest s log after holds logs opened
      have kept := keeping.reopened holds logs.1 opened
      cases opened
      by_cases memory : s.url = .inMemory
      · simp only [Sqlite.places,memory,decide_true,if_true] at kept ⊢
        exact kept
      · simp only [Sqlite.places,memory,decide_false,Bool.false_eq_true,if_false] at kept ⊢
        exact ⟨⟨kept.1,fun inMemory => absurd inMemory memory⟩,kept.2⟩ }

end

/-! ### What the operations do to the branches -/

section
variable {E : Encoding} {M : Machine} {config : Config} {choices : Choices} {b after : Blockchain (Sqlite.Store × Log)}

/-- Another chain in the open database. -/
theorem branches_put {cs : List BlockContents} (url : after.storage.1.url = b.storage.1.url)
    (db : after.storage.1.db = b.storage.1.db)
    (others : ∀ name, name ≠ b.storage.1.db → after.storage.1.databases name = b.storage.1.databases name)
    (log : after.storage.2 = Function.update b.storage.2 b.storage.1.db cs) : branches after = (branches b).put cs := by
  unfold branches Branches.put Sqlite.supportSnapshotsWithCurrentConfig
  dsimp only
  rw [url,db]
  congr 1
  funext name
  rw [log]
  by_cases opened : name = b.storage.1.db
  · subst opened
    rw [← db,after.storage.1.databases_db,db,Function.update_self,Function.update_self]
    rfl
  · rw [others name opened,Function.update_of_ne opened,Function.update_of_ne opened]

theorem branches_saved {latest : Nat} (holds : Sqlite.AllChained E latest b.storage.1) {static : Identifier → Bool}
    {c : BlockContents} (run : (backend E choices).saveBlock E static c b.storage = (.ok (),after.storage)) :
    branches after = (branches b).commit c := by
  have noted := run.symm.trans (saveBlock_run b.storage)
  rcases save : (Sqlite.backend E choices).saveBlock E static c b.storage.1 with ⟨e | _,middle⟩
  · rw [save] at noted
    cases noted
  obtain ⟨_,commit⟩ := saveBlock_commits save
  rw [save,commit] at noted
  have storage : after.storage = (middle,committed Sqlite.places c b.storage.1 b.storage.2) := congrArg Prod.snd noted
  obtain ⟨_,wrote⟩ := Sqlite.saved_wrote (Sqlite.filed_tip holds.chained.filed) save
  rw [Branches.commit,branches_chain]
  exact branches_put (by rw [storage]; exact wrote.url) (by rw [storage]; exact wrote.db)
    (by rw [storage]; exact wrote.others) (by rw [storage]; rfl)

/-- A block that is not saved leaves the store and its log. -/
theorem refused_storage {latest : Nat} (holds : Sqlite.AllChained E latest b.storage.1) {static : Identifier → Bool}
    {c : BlockContents} {e : StoreError} {storage : Sqlite.Store × Log}
    (run : (backend E choices).saveBlock E static c b.storage = (.error e,storage)) : storage = b.storage := by
  have noted := run.symm.trans (saveBlock_run b.storage)
  rcases save : (Sqlite.backend E choices).saveBlock E static c b.storage.1 with ⟨other | _,middle⟩
  · obtain ⟨same,uncommitted⟩ := (Sqlite.keeping_backend E choices).refused holds save
    rcases commit : (Sqlite.backend E choices).commitBlock c b.storage.1 with ⟨another | _,left⟩
    · rw [save,commit,same] at noted
      exact congrArg Prod.snd noted
    · exact absurd commit (uncommitted left)
  · rw [save] at noted
    cases noted

theorem branches_rolledBack {height : Nat} (rolled : Sqlite.RolledBack E height b.storage.1 after.storage.1)
    (log : after.storage.2 = cut Sqlite.places height b.storage.1 b.storage.2) :
    branches after = (branches b).rollback height := by
  rw [Branches.rollback,branches_chain]
  exact branches_put rolled.url rolled.db rolled.others log

theorem branches_created {name : String} (run : Sqlite.createSnapshot name b.storage.1 = (.ok (),after.storage.1))
    (log : after.storage.2 = copied Sqlite.places name b.storage.1 b.storage.2) :
    branches after = (branches b).snapshot name := by
  obtain ⟨_,_,url,databases,db,_,_⟩ := Sqlite.createSnapshot_ok.mp run
  unfold Branches.snapshot
  rw [branches_chain]
  unfold branches Sqlite.supportSnapshotsWithCurrentConfig
  dsimp only
  rw [url,db]
  congr 1
  funext other
  rw [databases,log]
  by_cases own : other = .snapshot name
  · subst own
    rw [Function.update_self,copied,Function.update_self,Function.update_self]
    rfl
  · rw [Function.update_of_ne own,copied,Function.update_of_ne own,Function.update_of_ne own]

theorem branches_loaded {name : String} (run : Sqlite.loadSnapshot name b.storage.1 = (.ok (),after.storage.1))
    (log : after.storage.2 = b.storage.2) : branches after = (branches b).jump name := by
  obtain ⟨_,_,url,databases,db,_,_⟩ := Sqlite.loadSnapshot_ok.mp run
  unfold branches Branches.jump Sqlite.supportSnapshotsWithCurrentConfig
  rw [url,databases,log,db]

/-! ### The requests -/

/-- The emulators on the SQL store that are reached from a start. -/
abbrev Reached (E : Encoding) (M : Machine) (config : Config) (choices : Choices) (b : Blockchain (Sqlite.Store × Log)) : Prop :=
  (Local.sqlite choices : Local Unit).Followed E M config b

theorem reached_state (reached : Reached E M config choices b) :
    ∃ latest, Sqlite.AllChained E latest b.storage.1 ∧ Sqlite.Logs E b.storage.2 b.storage.1 ∧ Named b.storage.1 := by
  obtain ⟨latest,holds,_⟩ := reachedFrom_grown (growing_logged (keeping_named E choices)) reached
  exact ⟨latest,holds⟩

theorem reached_listed (reached : Reached E M config choices b) (name : String) :
    listed name b.storage.1 = ((branches b).chains (.snapshot name)).isSome := by
  obtain ⟨_,_,_,named⟩ := reached_state reached
  unfold listed branches
  split
  · next memory =>
    rw [Bool.eq_iff_iff]
    simpa using named memory name
  · simp

/-- The latest block is the last of the current chain. -/
theorem reached_tip (reached : Reached E M config choices b) : ∃ last,
    (branches b).chain.getLast? = some last ∧ (backend E choices).latestBlock b.storage = .ok last.block := by
  have exact : (Local.sqlite choices : Local Unit).Exact := trivial
  obtain ⟨last,isLast,found⟩ := BlockStreams.followed_tip exact reached
  exact ⟨last,by rw [branches_chain]; exact isLast,found⟩

theorem reached_shows (reached : Reached E M config choices b) (name : String) : ∃ last,
    (branches b).chain.getLast? = some last ∧ latestBlockResponse E choices name b = shows E last.block name := by
  obtain ⟨last,isLast,found⟩ := reached_tip reached
  exact ⟨last,isLast,by rw [latestBlockResponse,found]⟩

/-- The pending block is built on the latest block. -/
def Built (E : Encoding) (choices : Choices) (b : Blockchain (Sqlite.Store × Log)) : Prop :=
  ∀ block, (backend E choices).latestBlock b.storage = .ok block → Next E block b.pendingBlock

theorem built_new {tick : Tick} {block : Block} (found : (backend E choices).latestBlock b.storage = .ok block)
    (pending : b.pendingBlock = newPendingBlock E tick block) : Built E choices b := by
  intro latest read
  cases read.symm.trans found
  rw [pending]
  exact LinkedChain.next_new E tick block

variable (M config choices) in
/-- A reload succeeds on a store that holds a chain. -/
theorem reload_succeeds {op : StoreM (Sqlite.Store × Log) Unit} {storage : Sqlite.Store × Log}
    (run : op b.storage = (.ok (),storage)) {latest : Nat} (holds : Sqlite.AllChained E latest storage.1) (tick : Tick) :
    ∃ block, (backend E choices).latestBlock storage = .ok block ∧
      (do inStorage op; reloadBlockchain E M config (backend E choices) tick : EmulatorM _ Unit) b =
        (.ok (),{ b with storage := storage, pendingBlock := newPendingBlock E tick block }) := by
  obtain ⟨block,found,_⟩ := ((Sqlite.growing_effective E choices).chain holds).latestBlock
  have found : (backend E choices).latestBlock ({ b with storage := storage } : Blockchain _).storage = .ok block := found
  exact ⟨block,found,by rw [bind_ok (inStorage_ok run),reload_ok tick found]⟩

theorem built_same (built : Built E choices b) (storage : after.storage = b.storage)
    (place : SamePlace b.pendingBlock after.pendingBlock) : Built E choices after := by
  intro block found
  rw [storage] at found
  exact LinkedChain.next_same (built block found) place

/-- An operation of the store and then a reload. -/
theorem built_reloaded (built : Built E choices b) {op : StoreM Sqlite.Store Unit} {note : Sqlite.Store → Log → Log}
    {latest : Nat} (leads : Leads (Sqlite.AllChained E) latest (op b.storage.1))
    (failed : ∀ {e after}, op b.storage.1 = (.error e,after) → after = b.storage.1) (tick : Tick) :
    Built E choices
      ((do inStorage (noting note op); reloadBlockchain E M config (backend E choices) tick : EmulatorM _ Unit) b).2 := by
  rcases run : op b.storage.1 with ⟨e | _,store⟩
  · have noted : noting note op b.storage = (.error e,b.storage) := by rw [noting_run,run,failed run]
    rw [bind_error (inStorage_error noted)]
    exact built
  · have noted : noting note op b.storage = (.ok (),(store,note b.storage.1 b.storage.2)) := by rw [noting_run,run]
    rw [run] at leads
    obtain ⟨next,holds⟩ := leads
    obtain ⟨block,found,reloaded⟩ := reload_succeeds M config choices noted holds tick
    rw [reloaded]
    exact built_new found rfl

theorem built_request (reached : Reached E M config choices b) (built : Built E choices b) (r : Blockchain.Request) :
    Built E choices (request E M config (backend E choices) r b) := by
  have exact : (Local.sqlite choices : Local Unit).Exact := trivial
  obtain ⟨latest,holds,_⟩ := reached_state reached
  have kept : Reached E M config choices (request E M config (backend E choices) r b) :=
    reachable_step reached (a := .request r) trivial
  cases request_effect r b with
  | still still => exact built_same built still.storage still.place
  | refused c e run place => exact built_same built (refused_storage holds run) place
  | saved c tick placed run pending =>
    obtain ⟨last,isLast,found⟩ := BlockStreams.followed_tip exact kept
    rw [Local.blocks_saved exact reached run,List.getLast?_concat] at isLast
    cases isLast
    exact built_new found pending
  | reset tick block storage found pending => exact built_new (storage ▸ found) pending

theorem built_started {storage : Sqlite.Store × Log} (reached : Reached E M config choices b)
    (stored : Logged.Empty (fun s => ∃ url, s = Sqlite.fresh url) storage ∨ ∃ latest, Sqlite.AllChained E latest storage.1)
    {tick : Tick} {autoMine : Bool} (started : newBlockchain E M config (backend E choices) tick autoMine storage = .ok b) :
    Built E choices b := by
  have growing := Sqlite.growing_effective E choices
  rcases stored with ⟨⟨url,fresh⟩,unlogged⟩ | ⟨latest,holds⟩
  · have exact : (Local.sqlite choices : Local Unit).Exact := trivial
    have none : (backend E choices).latestBlock storage = .error .notFound := growing.empty ⟨url,fresh⟩
    obtain ⟨writes,events,_,run,pending⟩ := new_first none started
    obtain ⟨last,isLast,found⟩ := BlockStreams.followed_tip exact reached
    have noted := run.symm.trans (noting_run _ _ storage)
    obtain ⟨written,done,wrote⟩ := (Sqlite.commits_commitBlock E choices).wrote (genesisContents M config writes events) _
      Option.none ⟨rfl,rfl⟩ (Sqlite.fresh_tip E url)
    rw [← fresh] at done wrote
    have done : (Sqlite.backend E choices).commitBlock (genesisContents M config writes events) storage.1 = _ := done
    rw [done] at noted
    have store : b.storage = (written,committed Sqlite.places (genesisContents M config writes events) storage.1 storage.2) :=
      congrArg Prod.snd noted
    have opened : Local.blocks (.sqlite choices : Local Unit) b = [genesisContents M config writes events] := by
      show b.storage.2 b.storage.1.db = _
      rw [store,wrote.db,unlogged]
      show committed Sqlite.places _ storage.1 (fun _ => []) storage.1.db = _
      rw [committed]
      simp [Sqlite.places]
    rw [opened] at isLast
    cases isLast
    exact built_new found pending
  · obtain ⟨block,found,_⟩ := (growing.chain holds).latestBlock
    have found : (backend E choices).latestBlock storage = .ok block := found
    rw [new_existing tick autoMine found] at started
    cases started
    exact built_new found rfl

theorem built_act (reached : Reached E M config choices b) (built : Built E choices b) (a : Action)
    (allows : Allows (fun height x => Sqlite.Effective E choices height x.1) b a) :
    Built E choices (act E M config (backend E choices) (Logged.reopen Sqlite.places fun s => .ok (Sqlite.reopen s)) a b) := by
  have keeping := Sqlite.keeping_backend E choices
  obtain ⟨latest,holds,logs⟩ := reached_state reached
  cases a with
  | request r => exact built_request reached built r
  | rollback tick height =>
    exact built_reloaded built (keeping.growing.rollback rfl allows holds) (keeping.rollbackFailed rfl) tick
  | createSnapshot tick name =>
    show Built E choices (createSnapshot E M config (backend E choices) tick name b).2
    unfold createSnapshot
    rw [bind_ok (view_run _ b)]
    split
    · next supported =>
      exact built_reloaded built (keeping.growing.createSnapshot name holds supported) keeping.createFailed tick
    · exact built
  | loadSnapshot tick name =>
    show Built E choices (loadSnapshot E M config (backend E choices) tick name b).2
    unfold loadSnapshot
    rw [bind_ok (view_run _ b)]
    split
    · next supported =>
      show Built E choices (((inStorage (aside (Sqlite.loadSnapshot name)) >>= fun _ =>
        reloadBlockchain E M config (backend E choices) tick) : EmulatorM _ Unit) b).2
      rw [← noting_same]
      exact built_reloaded built (keeping.growing.loadSnapshot name holds supported) keeping.loadFailed tick
    · exact built
  | restart tick autoMine =>
    have kept : Reached E M config choices (restart E M config (backend E choices)
        (Logged.reopen Sqlite.places fun s => .ok (Sqlite.reopen s)) tick autoMine b) :=
      reachable_step reached (a := .restart tick autoMine) trivial
    show Built E choices (restart E M config (backend E choices) _ tick autoMine b)
    unfold restart at kept ⊢
    cases opened : Logged.reopen Sqlite.places (fun s => .ok (Sqlite.reopen s)) b.storage with
    | error e => exact built
    | ok storage =>
      rw [opened] at kept
      dsimp only at kept ⊢
      cases started : newBlockchain E M config (backend E choices) tick autoMine storage with
      | error e => exact built
      | ok fresh =>
        rw [started] at kept
        refine built_started kept ?_ started
        rcases (growing_logged (keeping_named E choices)).reopened ⟨holds,logs⟩ opened with empty | ⟨latest,stored⟩
        · exact .inl empty
        · exact .inr ⟨latest,stored.1⟩

theorem reached_built (reached : Reached E M config choices b) : Built E choices b := by
  let Invariant (b : Blockchain (Sqlite.Store × Log)) : Prop := Reached E M config choices b ∧ Built E choices b
  have both : Invariant b := by
    refine reachable_keeps (fun b first => ?_) (fun b a (kept : Invariant b) allows => ?_) reached
    · have started : Reached E M config choices b := reachable_initial first
      obtain ⟨tick,autoMine,storage,empty,done⟩ := first
      exact ⟨started,built_started started (.inl empty) done⟩
    · exact ⟨reachable_step kept.1 allows,built_act kept.1 kept.2 a allows⟩
  exact both.2

/-- The pending block is built on the last block of the current chain. -/
theorem reached_next (reached : Reached E M config choices b) :
    ∃ last, (branches b).chain.getLast? = some last ∧ Next E last.block b.pendingBlock := by
  obtain ⟨last,isLast,found⟩ := reached_tip reached
  exact ⟨last,isLast,reached_built reached last.block found⟩

/-- A request was answered as it should: the emulator is one that is reached, and its branches are those the response says. -/
def Answered (E : Encoding) (M : Machine) (config : Config) (choices : Choices) (r : Request) (b : Blockchain (Sqlite.Store × Log))
    (out : Response × Blockchain (Sqlite.Store × Log)) : Prop :=
  Reached E M config choices out.2 ∧
    Serves E r out.1 (branches b) (branches out.2)

theorem answered_latest {α : Type} {r : Request} {name : String} {a : α} (kept : Reached E M config choices after)
    (serves : ∀ last, (branches after).chain.getLast? = some last →
      Serves E r (shows E last.block name) (branches b) (branches after)) :
    Answered E M config choices r b (thenLatest E choices name (.ok a,after)) := by
  obtain ⟨last,isLast,response⟩ := reached_shows kept name
  refine ⟨kept,?_⟩
  show Serves E r (latestBlockResponse E choices name after) _ (branches after)
  rw [response]
  exact serves last isLast

theorem answered_newBlock (reached : Reached E M config choices b) (tick : Tick) :
    Answered E M config choices (.newBlock tick) b (serve E M config choices (.newBlock tick) b) := by
  obtain ⟨latest,holds,_⟩ := reached_state reached
  have kept : Reached E M config choices (commitBlock E M config (backend E choices) tick b).2 :=
    reachable_step reached (a := .request (.commitBlock tick)) trivial
  have commits : Commits E M config (backend E choices) tick b (commitBlock E M config (backend E choices) tick b) :=
    commitBlock_commits tick b
  show Answered E M config choices _ b (thenLatest E choices "" (commitBlock E M config (backend E choices) tick b))
  generalize commitBlock E M config (backend E choices) tick b = out at kept commits ⊢
  cases commits with
  | refused waiting => exact ⟨kept,.failed _ (.inr trivial)⟩
  | unsealed ready e failed => exact ⟨kept,.failed _ (.inr trivial)⟩
  | unsaved ready c sealed e storage run =>
    obtain rfl := refused_storage holds run
    exact ⟨kept,.failed _ (.inr trivial)⟩
  | committed ready c made sealed storage run =>
    refine answered_latest kept fun last isLast => ?_
    have committed : branches { b with
        storage := storage
        pendingBlock := newPendingBlock E tick c.block
        latestEntropy := E.blockID c.block } = (branches b).commit c := branches_saved holds run
    rw [committed] at isLast ⊢
    rw [Branches.commit,Branches.put_chain,List.getLast?_concat] at isLast
    cases isLast
    obtain ⟨before,isBefore,next⟩ := reached_next reached
    have placed : Placed c.block b.pendingBlock := by
      rw [sealed.block]
      exact ⟨rfl,rfl,rfl⟩
    exact .committed tick isBefore c (placed.height.trans next.height) (LinkedChain.follows_placed next placed)

/-- A name that stands for the file of a snapshot and no other, whatever the directory. -/
def plainName (name : String) : Bool := name.toList.all fun c => c.isAlphanum || c == '_' || c == '-'

/-- The rollbacks that take effect go to heights that are not above the latest, and the names of snapshots are plain. -/
def Allowed (E : Encoding) (choices : Choices) (b : Blockchain (Sqlite.Store × Log)) : Request → Prop
  | .newBlock _ => True
  | .rollback _ text => ∀ height, parseUint text = some height → Sqlite.Effective E choices height b.storage.1
  | .snapshotCreate _ name | .snapshotJump _ name => plainName name

theorem answered_rollback (reached : Reached E M config choices b) (tick : Tick) (text : Bytes)
    (allowed : Allowed E choices b (.rollback tick text)) :
    Answered E M config choices (.rollback tick text) b (serve E M config choices (.rollback tick text) b) := by
  obtain ⟨latest,holds,_⟩ := reached_state reached
  show Answered E M config choices _ b (match parseUint text with
    | none => (failure .internalServerError,b)
    | some height => match rollbackToBlockHeight E M config (backend E choices) tick height b with
      | (.error _,after) => (failure .internalServerError,after)
      | (.ok _,after) => (⟨.ok,none⟩,after))
  cases parsed : parseUint text with
  | none => exact ⟨reached,.failed _ (.inr trivial)⟩
  | some height =>
    have effective := allowed height parsed
    have kept : Reached E M config choices (rollbackToBlockHeight E M config (backend E choices) tick height b).2 :=
      reachable_step reached (a := .rollback tick height) effective
    have unfolded : rollbackToBlockHeight E M config (backend E choices) tick height b =
        (do inStorage (noting (cut Sqlite.places height) (Sqlite.rollbackToBlockHeight E choices height))
            reloadBlockchain E M config (backend E choices) tick : EmulatorM _ Unit) b := rfl
    dsimp only
    by_cases low : b.storage.1.currentHeight ≤ height
    · have refused : noting (cut Sqlite.places height) (Sqlite.rollbackToBlockHeight E choices height) b.storage =
          (.error .rollbackHeight,b.storage) := by
        rw [noting_run,Sqlite.rollback_refused low]
      rw [unfolded,bind_error (inStorage_error refused)]
      exact ⟨reached,.failed _ (.inr trivial)⟩
    · obtain ⟨rolledStore,run,rolled⟩ := Sqlite.rollback_run E choices (Nat.not_le.mp low)
      have noted : noting (cut Sqlite.places height) (Sqlite.rollbackToBlockHeight E choices height) b.storage =
          (.ok (),(rolledStore,cut Sqlite.places height b.storage.1 b.storage.2)) := by
        rw [noting_run,run]
      have leads := (Sqlite.growing_effective E choices).rollback rfl effective holds
      rw [run] at leads
      obtain ⟨next,chained⟩ := leads
      obtain ⟨block,_,done⟩ := reload_succeeds M config choices noted chained tick
      rw [unfolded,done] at kept ⊢
      refine ⟨kept,?_⟩
      have branched : branches { b with
          storage := (rolledStore,cut Sqlite.places height b.storage.1 b.storage.2)
          pendingBlock := newPendingBlock E tick block } = (branches b).rollback height := branches_rolledBack rolled rfl
      dsimp only
      rw [branched]
      exact .rolledBack tick parsed _

/-- An operation on the snapshots and then a reload. -/
theorem answered_reloaded {r : Request} {name : String} {op : StoreM (Sqlite.Store × Log) Unit} {storage : Sqlite.Store × Log}
    (run : op b.storage = (.ok (),storage)) {latest : Nat} (holds : Sqlite.AllChained E latest storage.1) {tick : Tick}
    (kept : Reached E M config choices
      ((do inStorage op; reloadBlockchain E M config (backend E choices) tick : EmulatorM _ Unit) b).2)
    (serves : ∀ after : Blockchain (Sqlite.Store × Log), after.storage = storage →
      ∀ last, (branches after).chain.getLast? = some last →
      Serves E r (shows E last.block name) (branches b) (branches after)) :
    Answered E M config choices r b (thenLatest E choices name
      ((do inStorage op; reloadBlockchain E M config (backend E choices) tick : EmulatorM _ Unit) b)) := by
  obtain ⟨block,_,done⟩ := reload_succeeds M config choices run holds tick
  rw [done] at kept ⊢
  exact answered_latest kept (serves _ rfl)

theorem answered_snapshotCreate (reached : Reached E M config choices b) (tick : Tick) (name : String) :
    Answered E M config choices (.snapshotCreate tick name) b (serve E M config choices (.snapshotCreate tick name) b) := by
  obtain ⟨latest,holds,_⟩ := reached_state reached
  have shown := reached_listed reached name
  have kept : Reached E M config choices (createSnapshot E M config (backend E choices) tick name b).2 :=
    reachable_step reached (a := .createSnapshot tick name) trivial
  rw [serve]
  split
  · next empty => exact ⟨reached,.failed _ (.inr empty)⟩
  split
  · next unsupported => exact ⟨reached,.failed _ (.inl unsupported)⟩
  split
  · next there => exact ⟨reached,.conflict tick (shown.symm.trans there)⟩
  next unsupported unlisted =>
  have supported : (backend E choices).supportSnapshots b.storage = true := by simpa using unsupported
  have absent : (branches b).chains (.snapshot name) = none := by simpa [shown] using unlisted
  have free : b.storage.1.databases (.snapshot name) = none := by simpa [branches] using absent
  have leads := (Sqlite.growing_effective E choices).createSnapshot name holds supported
  obtain ⟨store,run⟩ := Sqlite.createSnapshot_free supported free
  obtain ⟨next,chained⟩ : ∃ next, Sqlite.AllChained E next store := by
    change Leads _ _ (Sqlite.createSnapshot name b.storage.1) at leads
    rw [run] at leads
    exact leads
  unfold createSnapshot at kept ⊢
  rw [bind_ok (view_run _ b),if_pos supported] at kept ⊢
  refine answered_reloaded (Local.createSnapshot_noted run) chained kept fun after stored last isLast => ?_
  have branched : branches after = (branches b).snapshot name :=
    branches_created (by rw [stored]; exact run) (by rw [stored])
  rw [branched] at isLast ⊢
  rw [Branches.snapshot_chain] at isLast
  exact .created tick absent isLast

theorem answered_snapshotJump (reached : Reached E M config choices b) (tick : Tick) (name : String) :
    Answered E M config choices (.snapshotJump tick name) b (serve E M config choices (.snapshotJump tick name) b) := by
  obtain ⟨latest,holds,_⟩ := reached_state reached
  have shown := reached_listed reached name
  have kept : Reached E M config choices (loadSnapshot E M config (backend E choices) tick name b).2 :=
    reachable_step reached (a := .loadSnapshot tick name) trivial
  rw [serve]
  split
  · next unsupported => exact ⟨reached,.failed _ (.inl unsupported)⟩
  split
  · next unlisted => exact ⟨reached,.missing tick (by simpa [shown] using unlisted)⟩
  next unsupported listed =>
  have supported : (backend E choices).supportSnapshots b.storage = true := by simpa using unsupported
  obtain ⟨cs,there⟩ : ∃ cs, (branches b).chains (.snapshot name) = some cs := by
    rw [shown,Bool.not_eq_false] at listed
    exact Option.isSome_iff_exists.mp listed
  have found : (b.storage.1.databases (.snapshot name)).isSome := by
    have : ((branches b).chains (.snapshot name)).isSome := by rw [there]; rfl
    simpa [branches] using this
  have leads := (Sqlite.growing_effective E choices).loadSnapshot name holds supported
  obtain ⟨store,run⟩ : ∃ store, Sqlite.loadSnapshot name b.storage.1 = (.ok (),store) :=
    ⟨{ b.storage.1 with db := .snapshot name, opened := found },
      Sqlite.loadSnapshot_ok.mpr ⟨supported,found,rfl,rfl,rfl,rfl,rfl⟩⟩
  obtain ⟨next,chained⟩ : ∃ next, Sqlite.AllChained E next store := by
    change Leads _ _ (Sqlite.loadSnapshot name b.storage.1) at leads
    rw [run] at leads
    exact leads
  unfold loadSnapshot at kept ⊢
  rw [bind_ok (view_run _ b),if_pos supported] at kept ⊢
  refine answered_reloaded (Local.loadSnapshot_noted run) chained kept fun after stored last isLast => ?_
  have branched : branches after = (branches b).jump name :=
    branches_loaded (by rw [stored]; exact run) (by rw [stored])
  rw [branched] at isLast ⊢
  rw [Branches.jump_chain there] at isLast
  exact .jumped tick there isLast

theorem answered_serve (reached : Reached E M config choices b) {r : Request} (allowed : Allowed E choices b r) :
    Answered E M config choices r b (serve E M config choices r b) := by
  cases r with
  | newBlock tick => exact answered_newBlock reached tick
  | rollback tick text => exact answered_rollback reached tick text allowed
  | snapshotCreate tick name => exact answered_snapshotCreate reached tick name
  | snapshotJump tick name => exact answered_snapshotJump reached tick name

end

/-- Whatever is asked in whatever order, the responses and the databases are those of the branches. -/
theorem admin_refines (E : Encoding) (M : Machine) (config : Config) (choices : Choices) (requests : List Request)
    (b : Blockchain (Sqlite.Store × Log)) (reached : Reached E M config choices b)
    (allowed : Throughout (fun r b => (serve E M config choices r b).2) (Allowed E choices) requests b) :
    Reached E M config choices (serveAll E M config choices requests b).2 ∧
      Trace E (serveAll E M config choices requests b).1 (branches b) (branches (serveAll E M config choices requests b).2) := by
  induction requests generalizing b with
  | nil => exact ⟨reached,.nil _⟩
  | cons r rest later =>
    obtain ⟨kept,serves⟩ := answered_serve reached allowed.1
    obtain ⟨end_,trace⟩ := later _ kept allowed.2
    exact ⟨end_,.cons serves trace⟩

open FlowEmulator.Samples in
/-- A snapshot of the first block, and back to it after another one. -/
theorem admin_refines_snapshot : ∃ b, Reached encoding machine config .earliest b ∧
    Trace encoding (serveAll encoding machine config .earliest
        [.snapshotCreate tick "first",.newBlock tick,.snapshotJump tick "first",.rollback tick []] b).1 (branches b)
      (branches (serveAll encoding machine config .earliest
        [.snapshotCreate tick "first",.newBlock tick,.snapshotJump tick "first",.rollback tick []] b).2) := by
  obtain ⟨b,reached,_⟩ := Local.sample_followed .inMemory
  have plain : plainName "first" := by decide
  have unreadable (s : Sqlite.Store) : ∀ height, parseUint [] = some height → Sqlite.Effective encoding .earliest height s :=
    fun height parsed => nomatch parsed
  refine ⟨b,reached,(admin_refines encoding machine config .earliest _ b reached ?_).2⟩
  exact ⟨plain,trivial,plain,unreadable _,trivial⟩

end FlowEmulator.Admin
