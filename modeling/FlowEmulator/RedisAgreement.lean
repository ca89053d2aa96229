import FlowEmulator.StoreIndependence

/-!
The store over Redis and the store in memory agree, but for the past of the
ledger. Every key that holds a text has the last text that was written to it, as
the maps in memory have; and the sorted set of a register, which loses old values
when a value returns, still has the latest value on top. Requests read no more
than that, so an emulator over Redis answers as one in memory does.
-/
namespace FlowEmulator.Redis
open FlowEmulator.Text FlowEmulator.Keys FlowEmulator.Fallible FlowEmulator.DefaultStore FlowEmulator.Run
open FlowEmulator.SortedSet FlowEmulator.Float64 FlowEmulator.VersionedTable

/-! ### What the server holds -/

/-- The versions and values that some writes give to a key of the ledger. -/
def ledgerCalls (key : Bytes) (writes : List Write) : List (Nat × Bytes) :=
  (writes.filter fun w => decide (w.store = .ledger ∧ w.key = key)).map fun w => (w.version,w.value)

/-- The texts that some writes leave under their keys. -/
def textsOf (writes : List Write) : List (Bytes × Value) := writes.map fun w => (w.key,.text (hexEncode w.value))

/-- The heights and values of the writes to a register. -/
def registerCalls (cs : List BlockContents) (r : RegisterID) : List (Nat × Bytes) :=
  cs.filterMap fun c => (c.executionSnapshot.lookup r).map fun value => (c.block.height,value)

/-- The server after some blocks. -/
def run (E : Encoding) (choice : TopChoice (score (M := Bytes))) (static : Identifier → Bool) (cs : List BlockContents) :
    Database :=
  play (fun c db => ((backend E choice).saveBlock E static c db).2) cs fun _ => none

/-- The server holds what some blocks have written, and nothing else. -/
structure Holds (E : Encoding) (static : Identifier → Bool) (cs : List BlockContents) (db : Database) : Prop where
  start : cs = [] → db = fun _ => none
  chained : cs ≠ [] → Chained E (cs.length-1) db
  texts : ∀ name, name ≠ .ledger → name ≠ .global → ∀ key, db (storeKey name key) =
    assign (fun _ => none) (cs.flatMap fun c => textsOf (savedTo E static 0 c name)) key
  ledger : ∀ r, db (storeKey .ledger (E.registerText r)) = logged (registerCalls cs r)

section
variable {E : Encoding} {choice : TopChoice (score (M := Bytes))} {static : Identifier → Bool} {latest : Nat}
  {c : BlockContents} {cs : List BlockContents} {db after : Database}

theorem logged_append (own : List (Nat × Bytes)) (version : Nat) (value : Bytes) : logged (own ++ [(version,value)]) =
    some (.sorted (zadd (log float64 (own.map fun c => (c.1,hexEncode c.2))) (hexEncode value) (float64 version))) := by
  rw [logged,if_neg (by simp),log_append]

theorem ledgerCalls_append (key : Bytes) (front back : List Write) :
    ledgerCalls key (front ++ back) = ledgerCalls key front ++ ledgerCalls key back := by
  rw [ledgerCalls,List.filter_append,List.map_append]
  rfl

/-- A write to the ledger is added to the calls for its key, and any other is not. -/
theorem perform_ledger (choice : TopChoice (score (M := Bytes))) {w : Write}
    (proper : w.isVersioned = decide (w.store = .ledger)) {key : Bytes} {own : List (Nat × Bytes)}
    (holds : db (storeKey .ledger key) = logged own) :
    (w.perform (dataStore choice) db).2 (storeKey .ledger key) = logged (own ++ ledgerCalls key [w]) := by
  cases w with
  | plain store other value =>
    have elsewhere : store ≠ .ledger := of_decide_eq_false proper.symm
    have none : ledgerCalls key [.plain store other value] = [] := by simp [ledgerCalls,Write.store,elsewhere]
    rw [none,List.append_nil,← holds]
    exact Function.update_of_ne (fun same => elsewhere (storeKey_injective same).1.symm) ..
  | versioned store other value version =>
    obtain rfl : store = .ledger := of_decide_eq_true proper.symm
    show (zAdd (storeKey .ledger other) (float64 version) (hexEncode value) db).2 _ = _
    by_cases same : other = key
    · subst same
      have one : ledgerCalls other [.versioned .ledger other value version] = [(version,value)] := by
        simp [ledgerCalls,Write.store,Write.key,Write.version,Write.value]
      rw [one,logged_append,zAdd,holds,logged]
      by_cases unused : own = []
      · simp [unused,log]
      · simp [unused]
    · have none : ledgerCalls key [.versioned .ledger other value version] = [] := by
        simp [ledgerCalls,Write.store,Write.key,same]
      have apart : storeKey .ledger key ≠ storeKey .ledger other := fun keys => same (storeKey_injective keys).2.symm
      rw [none,List.append_nil,← holds,zAdd]
      split
      · exact Function.update_of_ne apart ..
      · exact Function.update_of_ne apart ..
      · rfl

theorem forM_ledger (choice : TopChoice (score (M := Bytes))) {writes : List Write}
    (proper : ∀ w ∈ writes, w.isVersioned = decide (w.store = .ledger)) (sorted : Sorted db)
    {key : Bytes} {own : List (Nat × Bytes)} (holds : db (storeKey .ledger key) = logged own) :
    (writes.forM (Write.perform (dataStore choice)) db).2 (storeKey .ledger key) = logged (own ++ ledgerCalls key writes) := by
  induction writes generalizing db own with
  | nil =>
    rw [show ledgerCalls key [] = [] from rfl,List.append_nil]
    exact holds
  | cons w rest ih =>
    obtain ⟨middle,first,middleSorted,_⟩ := perform_texts choice (proper w List.mem_cons_self) sorted
    have step := perform_ledger choice (proper w List.mem_cons_self) holds
    rw [first] at step
    have more := ih (fun v later => proper v (List.mem_cons_of_mem w later)) middleSorted step
    rw [forM_cons,bind_ok first,more,List.append_assoc,← ledgerCalls_append]
    rfl

/-- Of the entries of a map at most one has a given key. -/
theorem entries_filter {K V : Type} [DecidableEq K] {entries : List (Sigma fun _ : K => V)} (distinct : entries.NodupKeys)
    (key : K) : (entries.filter fun entry => decide (entry.1 = key)).map Sigma.snd = (entries.dlookup key).toList := by
  induction entries with
  | nil => rfl
  | cons entry rest ih =>
    obtain ⟨own,value⟩ := entry
    obtain ⟨fresh,restDistinct⟩ := List.nodupKeys_cons.mp distinct
    by_cases same : own = key
    · subst same
      have none : rest.filter (fun other => decide (other.1 = own)) = [] := by
        refine List.filter_eq_nil_iff.mpr fun other member => ?_
        have key := List.mem_keys_of_mem member
        simpa using fun equal : other.1 = own => fresh (by rw [equal] at key; exact key)
      simp [none,List.dlookup_cons_eq]
    · rw [List.dlookup_cons_ne rest ⟨own,value⟩ (Ne.symm same),← ih restDistinct,List.filter_cons_of_neg (by simpa using same)]

/-- The calls a block makes for a register: one if it writes it. -/
theorem ledgerCalls_saved (r : RegisterID) : ledgerCalls (E.registerText r) (saveWrites E static latest c) =
    ((c.executionSnapshot.lookup r).map fun value => (c.block.height,value)).toList := by
  have own : writesTo .ledger (saveWrites E static latest c) = ledgerWrites E c := writesTo_saveWrites E static latest c .ledger
  have split : ledgerCalls (E.registerText r) (saveWrites E static latest c) =
      ((writesTo .ledger (saveWrites E static latest c)).filter fun w => decide (w.key = E.registerText r)).map
        fun w => (w.version,w.value) := by
    simp [ledgerCalls,writesTo,List.filter_filter,Bool.and_comm]
  rw [split,own,ledgerWrites,List.filter_map,List.map_map]
  have keys : (fun w => decide (w.key = E.registerText r)) ∘
      (fun entry : Sigma fun _ : RegisterID => RegisterValue =>
        Write.versioned .ledger (E.registerText entry.1) entry.2 c.block.height) = fun entry => decide (entry.1 = r) := by
    funext entry
    simp [Write.key,E.registerText_injective.eq_iff]
  rw [keys]
  have filtered := congrArg (List.map fun value => (c.block.height,value)) (entries_filter c.executionSnapshot.nodupKeys r)
  rw [List.map_map] at filtered
  refine filtered.trans ?_
  show _ = (((c.executionSnapshot.entries.dlookup r).map _).toList)
  cases c.executionSnapshot.entries.dlookup r <;> rfl

theorem registerCalls_append (cs : List BlockContents) (c : BlockContents) (r : RegisterID) :
    registerCalls (cs ++ [c]) r =
      registerCalls cs r ++ ((c.executionSnapshot.lookup r).map fun value => (c.block.height,value)).toList := by
  rw [registerCalls,List.filterMap_append,registerCalls]
  cases written : c.executionSnapshot.lookup r <;> simp [written]

/-! ### One block more -/

theorem holds_latest (holds : Holds E static cs db) :
    latestBlockHeightOrZero E (dataStore choice) db = .ok (cs.length-1) := by
  unfold latestBlockHeightOrZero
  by_cases first : cs = []
  · rw [holds.start first,first]
    rfl
  · rw [chained_latestBlockHeight (holds.chained first)]

theorem holds_sorted (holds : Holds E static cs db) : Sorted db := by
  by_cases first : cs = []
  · rw [holds.start first]
    exact fun _ _ wrong => nomatch wrong
  · exact (holds.chained first).sorted

theorem chained_next (holds : Holds E static cs db) (height : c.block.height = cs.length) (stored : WithBlock E c db after) :
    Chained E ((cs ++ [c]).length-1) after := by
  rw [List.length_append,List.length_singleton,Nat.add_sub_cancel]
  by_cases first : cs = []
  · subst first
    rw [holds.start rfl] at stored
    exact chained_first stored height
  · have positive : 0 < cs.length := List.length_pos_iff.mpr first
    have next : cs.length-1+1 = cs.length := by omega
    rw [← next] at height ⊢
    exact chained_withBlock (holds.chained first) height stored

/-- A block that is saved at the next height is held with those before it. -/
theorem holds_saved (choice : TopChoice (score (M := Bytes))) (holds : Holds E static cs db)
    (height : c.block.height = cs.length) (counted : c.Counted) :
    ∃ after, (backend E choice).saveBlock E static c db = (.ok (),after) ∧ Holds E static (cs ++ [c]) after := by
  have writes : (backend E choice).saveBlock E static c db =
      (saveWrites E static (cs.length-1) c).forM (Write.perform (dataStore choice)) db :=
    saveBlock_run E (dataStore choice) static c counted db (holds_latest holds)
  have proper (w : Write) (member : w ∈ saveWrites E static (cs.length-1) c) :
      w.isVersioned = decide (w.store = .ledger) := saveWrites_isVersioned member
  have sorted := holds_sorted holds
  obtain ⟨after,run,stored⟩ : ∃ after, (saveWrites E static (cs.length-1) c).forM (Write.perform (dataStore choice)) db =
      (.ok (),after) ∧ WithBlock E c db after :=
    withBlock_writes proper (by omega) (writesTo_saveWrites E static _ c .global)
      (writesTo_saveWrites E static _ c .blocks) (writesTo_saveWrites E static _ c .events) sorted
  obtain ⟨_,again,_,reads⟩ := forM_texts choice proper sorted
  cases run.symm.trans again
  refine ⟨after,writes.trans run,fun none => absurd none (by simp),fun _ => chained_next holds height stored,
    fun name plain global key => ?_,fun r => ?_⟩
  · rw [reads name plain key,texts,writesTo_saveWrites_fixed E global,funext (holds.texts name plain global),← assign_append,
      List.flatMap_append,List.flatMap_singleton]
    rfl
  · have ledger := forM_ledger choice proper sorted (holds.ledger r)
    rw [run,ledgerCalls_saved] at ledger
    rw [registerCalls_append]
    exact ledger

/-- After a chain of blocks the server holds them. -/
theorem holds_run (choice : TopChoice (score (M := Bytes))) (chain : Chain 0 cs) : Holds E static cs (run E choice static cs) := by
  induction cs using List.reverseRecOn with
  | nil => exact ⟨fun _ => rfl,fun some => absurd rfl some,fun _ _ _ _ => rfl,fun _ => rfl⟩
  | append_singleton front c ih =>
    obtain ⟨frontChain,height,counted,_⟩ := chain_append.mp chain
    rw [Nat.zero_add] at height
    obtain ⟨after,saved,holds⟩ := holds_saved choice (ih frontChain) height counted
    unfold run at saved ⊢
    rw [play_append]
    show Holds E static _ ((backend E choice).saveBlock E static c (play _ front fun _ => none)).2
    rw [saved]
    exact holds

/-! ### Reading it -/

theorem holds_files (choice : TopChoice (score (M := Bytes))) (holds : Holds E static cs db) :
    Files E static cs (dataStore choice) db := by
  intro name plain proper key
  let values := assign (fun _ => none) (cs.flatMap fun c => (savedTo E static 0 c name).map fun w => (w.key,w.value))
  have stored : db (storeKey name key) = (values key).map fun value => .text (hexEncode value) := by
    rw [holds.texts name plain proper]
    refine assign_image ?_
    simp [textsOf,List.filter_flatMap,List.map_flatMap,List.filter_map,Function.comp_def]
  show (dataStore choice).getBytes name key db = found (values key)
  cases here : values key with
  | none =>
    rw [here] at stored
    exact getBytes_none stored
  | some value =>
    rw [here] at stored
    exact getBytes_text stored

theorem mem_registerCalls (chain : Chain 0 cs) {r : RegisterID} {height : Nat} {value : Bytes} :
    (height,value) ∈ registerCalls cs r ↔ writesAt cs r height = some value := by
  simp only [registerCalls,writesAt,List.mem_filterMap,Option.map_eq_some_iff,Option.bind_eq_some_iff,Prod.mk.injEq]
  constructor
  · rintro ⟨c,here,found,written,rfl,rfl⟩
    obtain ⟨i,place⟩ := List.mem_iff_getElem?.mp here
    have position := (chain_getElem chain place).1
    rw [Nat.zero_add] at position
    exact ⟨c,by rw [position]; exact place,written⟩
  · rintro ⟨c,place,written⟩
    have position := (chain_getElem chain place).1
    exact ⟨c,List.mem_of_getElem? place,value,written,by omega,rfl⟩

theorem registerCalls_low (chain : Chain 0 cs) {r : RegisterID} {call : Nat × Bytes} (called : call ∈ registerCalls cs r) :
    call.1 < cs.length := by
  obtain ⟨c,place,_⟩ := Option.bind_eq_some_iff.mp ((mem_registerCalls chain).mp called)
  exact (List.getElem?_eq_some_iff.mp place).1

theorem registerCalls_increasing (chain : Chain 0 cs) (r : RegisterID) : Increasing (registerCalls cs r) := by
  induction cs using List.reverseRecOn with
  | nil => exact List.Pairwise.nil
  | append_singleton front c ih =>
    obtain ⟨frontChain,height,_⟩ := chain_append.mp chain
    rw [registerCalls_append]
    refine List.pairwise_append.mpr ⟨ih frontChain,?_,fun call before other last => ?_⟩
    · cases c.executionSnapshot.lookup r <;> simp
    · have low := registerCalls_low frontChain before
      obtain ⟨value,_,rfl⟩ := Option.map_eq_some_iff.mp (Option.mem_toList.mp last)
      dsimp only
      omega

/-- The last call for a register is its last write. -/
theorem registerCalls_last (chain : Chain 0 cs) (r : RegisterID) (height : Nat) :
    lastAtMost (registerCalls cs r) height = lastWrite (writesAt cs r) height := by
  refine Option.ext fun value => ?_
  rw [lastAtMost_some (registerCalls_increasing chain r),lastWrite_some]
  constructor
  · rintro ⟨u,called,low,top⟩
    refine ⟨u,low,(mem_registerCalls chain).mp called,fun later above below => ?_⟩
    by_contra written
    obtain ⟨other,found⟩ := Option.ne_none_iff_exists'.mp written
    have bound := top (later,other) ((mem_registerCalls chain).mpr found) below
    dsimp only at bound
    omega
  · rintro ⟨u,low,written,quiet⟩
    refine ⟨u,(mem_registerCalls chain).mpr written,low,fun call called below => ?_⟩
    by_contra above
    have found := (mem_registerCalls chain).mp called
    rw [quiet call.1 (by omega) below] at found
    cases found

/-- A register is read right where the log of its calls is. -/
theorem ledger_read (holds : Holds E static cs db) (chain : Chain 0 cs) {r : RegisterID} {height : Nat}
    (right : zRevRangeByScore choice (log float64 ((registerCalls cs r).map fun c => (c.1,hexEncode c.2))) (float64 height) =
      lastAtMost ((registerCalls cs r).map fun c => (c.1,hexEncode c.2)) height) :
    ledgerByHeight E (dataStore choice) height r db = .ok ((lastWrite (writesAt cs r) height).getD []) := by
  rw [← registerCalls_last chain]
  have read : (dataStore choice).getBytesAtVersion .ledger (E.registerText r) height db =
      found (lastAtMost (registerCalls cs r) height) := by
    show getBytesAtVersion choice .ledger (E.registerText r) height db = _
    rw [getBytesAtVersion,holds.ledger,logged]
    by_cases unused : registerCalls cs r = []
    · rw [if_pos unused,unused]
      rfl
    · rw [if_neg unused]
      dsimp only
      rw [right,lastAtMost_map]
      cases lastAtMost (registerCalls cs r) height <;> simp [firstMember,found,decodeText,hexDecode_hexEncode]
  rw [ledgerByHeight,read]
  cases lastAtMost (registerCalls cs r) height <;> rfl

/-- The latest value of every register is read right. -/
theorem ledger_latest (holds : Holds E static cs db) (chain : Chain 0 cs) (few : cs.length ≤ 2^53) (r : RegisterID) :
    ledgerByHeight E (dataStore choice) (cs.length-1) r db = .ok ((lastWrite (writesAt cs r) (cs.length-1)).getD []) := by
  have low (call : Nat × Bytes) (called : call ∈ (registerCalls cs r).map fun c => (c.1,hexEncode c.2)) :
      call.1 < cs.length := by
    obtain ⟨own,here,rfl⟩ := List.mem_map.mp called
    have bound := registerCalls_low chain here
    exact bound
  refine ledger_read holds chain (zRevRangeByScore_log_latest choice float64_mono
    (increasing_map (registerCalls_increasing chain r)) (fun call called other also less => ?_) fun call called => ?_)
  · have bound := low call called
    have otherBound := low other also
    rw [float64_exact (by omega),float64_exact (by omega)]
    exact less
  · have bound := low call called
    omega

end
end FlowEmulator.Redis

namespace FlowEmulator
open FlowEmulator.Keys FlowEmulator.Fallible FlowEmulator.DefaultStore FlowEmulator.SortedSet FlowEmulator.Text

/-- After any chain of blocks the server and the store in memory answer the same, but for the past of the ledger. -/
theorem redis_answers {υ : Type} {E : Encoding} (T : Memstore.SnapshotTree υ) (choice : TopChoice (score (M := Bytes)))
    {static : Identifier → Bool} {cs : List BlockContents} (chain : Chain 0 cs) (begun : cs ≠ []) (few : cs.length ≤ 2^53)
    {query : Query} (current : query.Current (cs.length-1)) :
    (Memstore.backend E T).answer query (Memstore.run E T static cs) =
      (Redis.backend E choice).answer query (Redis.run E choice static cs) := by
  have holds : Redis.Holds E static cs (Redis.run E choice static cs) := Redis.holds_run choice chain
  have positive : 0 < cs.length := List.length_pos_iff.mpr begun
  refine kept_answers (Memstore.kept_run E T static chain) (Redis.holds_files choice holds) ?_ fun height r ledger => ?_
  · rw [Redis.chained_latestBlockHeight (holds.chained begun),top_recorded chain begun]
  · subst ledger
    obtain rfl : height = cs.length-1 := current
    exact ⟨by omega,Redis.ledger_latest holds chain few r⟩

end FlowEmulator

/-! ### Emulators -/

namespace FlowEmulator.Blockchain
open FlowEmulator.Fallible FlowEmulator.Run FlowEmulator.SortedSet FlowEmulator.Text

section
variable {υ : Type} {E : Encoding} {M : Machine} {config : Config} {static : Identifier → Bool} (T : Memstore.SnapshotTree υ)
  (choice : TopChoice (score (M := Bytes))) {cs : List BlockContents}

theorem sameReads_redis (chain : Chain 0 cs) (begun : cs ≠ []) (few : cs.length ≤ 2^53) :
    SameReads (Memstore.backend E T) (Redis.backend E choice) (cs.length-1) (Memstore.run E T static cs)
      (Redis.run E choice static cs) := by
  exact sameReads_answers chain fun _ => redis_answers T choice chain begun few

theorem sameSaves_redis (chain : Chain 0 cs) (begun : cs ≠ []) : SameSaves (Memstore.backend E T) (Redis.backend E choice) E
    static (Memstore.run E T static cs) (Redis.run E choice static cs) := by
  have chained : Redis.Chained E (cs.length-1) (Redis.run E choice static cs) := (Redis.holds_run choice chain).chained begun
  intro c
  by_cases counted : c.Counted
  · obtain ⟨after,written,_⟩ := Redis.forM_texts choice (fun w member => DefaultStore.saveWrites_isVersioned member) chained.sorted
    exact .inr ⟨_,after,Memstore.saveBlock_run E T static c counted _,(Redis.saveBlock_writes chained counted).trans written⟩
  · obtain ⟨e,inMemory,refused⟩ := uncounted_refused E counted
    exact .inl ⟨e,bind_error (inMemory T _) _,bind_error (refused (Redis.dataStore choice) _) _⟩

end

/-- An emulator in memory and one over Redis after the same commits. -/
structure Mirrored {υ : Type} (E : Encoding) (M : Machine) (config : Config) (T : Memstore.SnapshotTree υ)
    (choice : TopChoice (score (M := Bytes))) (cs : List BlockContents) (m : Blockchain (Memstore.Store υ))
    (q : Blockchain Redis.Database) : Prop where
  chain : Chain 0 cs
  begun : cs ≠ []
  alike : Alike (cs.length-1) (Memstore.run E T (static E M config) cs) (Redis.run E choice (static E M config) cs) m q

section
variable {υ : Type} {E : Encoding} {M : Machine} {config : Config} {T : Memstore.SnapshotTree υ}
  {choice : TopChoice (score (M := Bytes))} {cs : List BlockContents} {m : Blockchain (Memstore.Store υ)}
  {q : Blockchain Redis.Database}

/-- A request to both has one answer, and leaves them after the same commits, at most one more than before. -/
theorem mirrored_respond (mirrored : Mirrored E M config T choice cs m q) (few : cs.length ≤ 2^53) (r : Request) :
    (respond E M config (Memstore.backend E T) r m).1 = (respond E M config (Redis.backend E choice) r q).1 ∧
      ∃ after, after.length ≤ cs.length+1 ∧ Mirrored E M config T choice after
        (respond E M config (Memstore.backend E T) r m).2 (respond E M config (Redis.backend E choice) r q).2 := by
  obtain ⟨chain,begun,alike⟩ := mirrored
  obtain ⟨answer,moved⟩ := requests_lockstep (sameReads_redis T choice chain begun few)
    (sameSaves_redis T choice chain begun) r m q alike
  refine ⟨answer,?_⟩
  rcases moved with alike | ⟨c,height,saved,savedThere,alike⟩
  · exact ⟨cs,Nat.le_succ _,chain,begun,alike⟩
  · obtain ⟨_,longer,last,inMemory⟩ := chain_saved chain begun height saved
    refine ⟨cs ++ [c],by simp,longer,by simp,?_⟩
    have overRedis : Redis.run E choice (static E M config) (cs ++ [c]) =
        (respond E M config (Redis.backend E choice) r q).2.storage := by
      rw [Redis.run,play_append]
      exact congrArg Prod.snd savedThere
    rw [last,inMemory,overRedis]
    exact alike

theorem mirrored_converse (requests : List Request) (mirrored : Mirrored E M config T choice cs m q)
    (few : cs.length + requests.length ≤ 2^53) :
    (converse E M config (Memstore.backend E T) requests m).1 = (converse E M config (Redis.backend E choice) requests q).1 ∧
      ∃ after, after.length ≤ 2^53 ∧ Mirrored E M config T choice after
        (converse E M config (Memstore.backend E T) requests m).2 (converse E M config (Redis.backend E choice) requests q).2 := by
  induction requests generalizing cs m q with
  | nil => exact ⟨rfl,cs,few,mirrored⟩
  | cons r rest ih =>
    rw [List.length_cons] at few
    obtain ⟨answer,after,longer,next⟩ := mirrored_respond mirrored (by omega) r
    obtain ⟨answers,ends⟩ := ih next (by omega)
    refine ⟨?_,ends⟩
    rw [converse,converse,answer,answers]

/-- Two emulators that are started on an empty store. -/
theorem mirrored_started (choice : TopChoice (score (M := Bytes))) {tick : Tick} {autoMine : Bool}
    (started : newBlockchain E M config (Memstore.backend E T) tick autoMine Memstore.new = .ok m) :
    ∃ q writes events, newBlockchain E M config (Redis.backend E choice) tick autoMine (fun _ => none) = .ok q ∧
      Mirrored E M config T choice [genesisContents M config writes events] m q := by
  have empty : Redis.Holds E (static E M config) [] (fun _ => none) := Redis.holds_run choice trivial
  have commits (writes : WriteSet) (events : List Event) : ∃ stored,
      (Redis.backend E choice).commitBlock (genesisContents M config writes events) (fun _ => none) = (.ok (),stored) := by
    obtain ⟨stored,saved,_⟩ := Redis.holds_saved choice empty (c := genesisContents M config writes events) rfl ⟨rfl,rfl⟩
    rcases first : (Redis.backend E choice).commitBlock (genesisContents M config writes events) (fun _ => none) with
      ⟨e | ⟨⟨⟩⟩,after⟩
    · cases saved.symm.trans (bind_error first _)
    · exact ⟨after,rfl⟩
  obtain ⟨q,writes,events,startedThere,committed,alike⟩ := alike_started started rfl (fun _ => rfl) commits
  refine ⟨q,writes,events,startedThere,⟨rfl,⟨rfl,rfl⟩,trivial⟩,by simp,{ alike with right := ?_ }⟩
  exact (congrArg Prod.snd (saveBlock_genesis committed (static E M config))).symm

end

end FlowEmulator.Blockchain
