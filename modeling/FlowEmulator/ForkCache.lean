import FlowEmulator.Fork

/-!
What the cache of fetched registers does to reads of a forked store. A register
that no local block wrote reads as the remote chain has it at the height asked
for, or at the fork height when that is lower, exactly when the height at which
the register was first fetched has the same value.
-/
namespace FlowEmulator.Remote
open FlowEmulator.Text FlowEmulator.Keys FlowEmulator.Fallible FlowEmulator.VersionedTable FlowEmulator.DefaultStore
open FlowEmulator.Sqlite (Choices)
open FlowEmulator.Run

section
variable {E : Encoding} {choices cacheChoices : Choices} {static : Identifier → Bool} {node : Node} {options : Options}

/-- The row of a register in the cache. -/
def cacheRow (E : Encoding) (node : Node) (forkHeight : Nat) (id : RegisterID) (first : Nat) : Row Bytes Bytes :=
  ⟨hexEncode (E.registerText id),hexEncode (node.value id (min first forkHeight)),0,0⟩

/-- The cache has the registers that were fetched, each as it was at the height of its first fetch. -/
structure Cached (E : Encoding) (node : Node) (forkHeight : Nat) (fetched : RegisterID → Option Nat)
    (cache : Sqlite.Store) : Prop where
  main : cache.db = .main
  currentHeight : cache.currentHeight = 0
  rows : ∀ row, row ∈ (cache.database .ledger).rows ↔
    ∃ id first, fetched id = some first ∧ row = cacheRow E node forkHeight id first

variable {forkHeight : Nat} {fetched : RegisterID → Option Nat} {cache : Sqlite.Store}

theorem cached_empty (E : Encoding) (node : Node) (forkHeight : Nat) (url : Sqlite.Url) :
    Cached E node forkHeight (fun _ => none) (Sqlite.fresh url) := by
  refine ⟨rfl,rfl,fun row => ?_⟩
  rw [Sqlite.fresh_database]
  exact ⟨fun member => absurd member List.not_mem_nil,fun ⟨_,_,absent,_⟩ => by cases absent⟩

/-- The cache in a directory is found again. -/
theorem cached_reopened (cached : Cached E node forkHeight fetched cache) (url : Sqlite.Url) :
    Cached E node forkHeight fetched (Sqlite.new url cache.databases) := by
  refine ⟨rfl,rfl,?_⟩
  rw [Sqlite.new_database,← cached.main,cache.databases_db]
  exact cached.rows

theorem cached_found (cached : Cached E node forkHeight fetched cache) {id : RegisterID} {first : Nat}
    (known : fetched id = some first) :
    Sqlite.getBytes cacheChoices .ledger (E.registerText id) cache = .ok (node.value id (min first forkHeight)) := by
  have member : cacheRow E node forkHeight id first ∈ (cache.database .ledger).rows :=
    (cached.rows _).mpr ⟨id,first,known,rfl⟩
  refine Sqlite.selectAtVersion_some (select_eq member (Nat.le_refl 0) (fun other otherMember same _ => ?_))
  obtain ⟨otherID,otherFirst,otherKnown,rfl⟩ := (cached.rows other).mp otherMember
  obtain rfl : otherID = id := E.registerText_injective (hexEncode_injective same)
  rw [known] at otherKnown
  cases otherKnown
  exact ⟨Nat.le_refl 0,fun _ => rfl⟩

theorem cached_missing (cached : Cached E node forkHeight fetched cache) {id : RegisterID} (unknown : fetched id = none) :
    Sqlite.getBytes cacheChoices .ledger (E.registerText id) cache = .error .notFound := by
  refine Sqlite.selectAtVersion_notFound.mpr (fun row member same => ?_)
  obtain ⟨other,first,known,rfl⟩ := (cached.rows row).mp member
  obtain rfl : other = id := E.registerText_injective (hexEncode_injective same)
  rw [unknown] at known
  cases known

theorem cached_set (cached : Cached E node forkHeight fetched cache) {id : RegisterID} (unknown : fetched id = none)
    (height : Nat) : Cached E node forkHeight (Function.update fetched id (some height))
      (Sqlite.setBytes .ledger (E.registerText id) (node.value id (min height forkHeight)) cache).2 := by
  have content : (Sqlite.setBytes .ledger (E.registerText id) (node.value id (min height forkHeight)) cache).2.database
      .ledger = (cache.database .ledger).upsert (cacheRow E node forkHeight id height) := by
    show (Sqlite.Store.setDatabase _ _).database .ledger = _
    rw [Sqlite.Store.setDatabase_database,Function.update_self,if_neg (by decide),cached.currentHeight]
    rfl
  refine ⟨cached.main,cached.currentHeight,fun row => ?_⟩
  rw [content,mem_upsert,cached.rows]
  constructor
  · rintro (rfl | ⟨⟨other,first,known,rfl⟩,_⟩)
    · exact ⟨id,height,Function.update_self ..,rfl⟩
    · have different : other ≠ id := by rintro rfl; rw [unknown] at known; cases known
      exact ⟨other,first,by rw [Function.update_of_ne different]; exact known,rfl⟩
  · rintro ⟨other,first,known,rfl⟩
    by_cases same : other = id
    · subst same
      rw [Function.update_self] at known
      cases known
      exact .inl rfl
    · rw [Function.update_of_ne same] at known
      refine .inr ⟨⟨other,first,known,rfl⟩,fun slot => same ?_⟩
      exact E.registerText_injective (hexEncode_injective (congrArg Prod.fst slot))

/-! ### Runs -/

/-- The session continues one fork, and its cache has what was fetched. -/
structure Remembered (E : Encoding) (node : Node) (options : Options) (x : Session) : Prop extends Overlaid E x where
  height : initialForkHeight node options.forkHeight = .ok x.store.forkHeight
  header : ∃ header, asked (node.getBlockHeaderByHeight x.store.forkHeight) = .ok header ∧ header.id = x.store.forkBlockID
  chainID : node.getNetworkParameters = .ok x.store.chainID
  cache : ∃ cache, x.store.cacheStore = some cache ∧ Cached E node x.store.forkHeight x.fetched cache

/-- Sessions of one fork use one directory for the cache. -/
theorem remembered_begun {s : Store} {url : Sqlite.Url}
    (started : new E choices node options noCaches (Sqlite.fresh url) = .ok s) :
    Remembered E node options (begun s) := by
  have opened := new_ok (global_fresh E url) started
  refine { overlaid_begun started with height := ?_, header := opened.header, chainID := opened.chainID, cache := ?_ }
  · exact (opened_height opened).resolve_left (fun absurd => by cases absurd)
  · refine ⟨_,opened.cache,?_⟩
    unfold initializeCacheStore
    split
    · exact cached_empty E node _ .directory
    · exact cached_empty E node _ .inMemory

/-- Two sessions of one fork, with one cache. -/
structure SameFork (x y : Session) : Prop where
  chainID : y.store.chainID = x.store.chainID
  forkHeight : y.store.forkHeight = x.store.forkHeight
  forkBlockID : y.store.forkBlockID = x.store.forkBlockID
  cacheStore : y.store.cacheStore = x.store.cacheStore
  fetched : y.fetched = x.fetched

theorem remembered_of_same {x y : Session} (remembered : Remembered E node options x) (overlaid : Overlaid E y)
    (same : SameFork x y) : Remembered E node options y := by
  refine { overlaid with height := ?_, header := ?_, chainID := ?_, cache := ?_ }
  · rw [same.forkHeight]; exact remembered.height
  · rw [same.forkHeight,same.forkBlockID]; exact remembered.header
  · rw [same.chainID]; exact remembered.chainID
  · rw [same.cacheStore,same.forkHeight,same.fetched]; exact remembered.cache

theorem remembered_commit {x : Session} (remembered : Remembered E node options x) (c : BlockContents) :
    Remembered E node options (commit E choices static c x) := by
  obtain ⟨latest,global⟩ := remembered.global
  refine remembered_of_same remembered (overlaid_commit remembered.toOverlaid c) ?_
  rcases commit_cases choices static (global_tip global) c with same | ⟨after,_,done⟩
  · rw [same]; exact ⟨rfl,rfl,rfl,rfl,rfl⟩
  · rw [done]; exact ⟨rfl,rfl,rfl,rfl,rfl⟩

theorem remembered_rollback {x : Session} (remembered : Remembered E node options x) (height : Nat) :
    Remembered E node options (rollback E choices height x) := by
  refine remembered_of_same remembered (overlaid_rollback remembered.toOverlaid height) ?_
  rcases rollback_cases E choices x height with same | ⟨after,_,done⟩
  · rw [same]; exact ⟨rfl,rfl,rfl,rfl,rfl⟩
  · rw [done]; exact ⟨rfl,rfl,rfl,rfl,rfl⟩

variable (choices) in
/-- A register that surviving blocks wrote is read from the overlay. -/
theorem overlay_some {x : Session} (overlaid : Overlaid E x) {height : Nat} {id : RegisterID}
    (written : Written x.blocks height id) :
    ∃ value, Sqlite.selectAtVersion choices .ledger (E.registerText id) height x.store.overlay = .ok value := by
  obtain ⟨c,here,low,wrote⟩ := written
  obtain ⟨value,lookup⟩ := Option.isSome_iff_exists.mp wrote
  have member : Write.versioned .ledger (E.registerText id) value c.block.height ∈ ledgerWrites E c :=
    List.mem_map_of_mem (f := fun entry : Sigma fun _ : RegisterID => RegisterValue =>
      Write.versioned .ledger (E.registerText entry.1) entry.2 c.block.height) (AList.mem_lookup_iff.mp lookup)
  obtain ⟨row,inside,slot⟩ := overlaid.ledger.present c here _ member
  have key : row.key = hexEncode (E.registerText id) := congrArg Prod.fst slot
  have version : row.version = c.block.height := congrArg (·.2.1) slot
  cases read : select (choices .ledger (E.registerText id) height) (x.store.overlay.database .ledger)
      (hexEncode (E.registerText id)) height with
  | none =>
    have high := select_none.mp read row inside key
    omega
  | some text =>
    obtain ⟨found,foundMember,_,_,rfl,_⟩ := select_some read
    obtain ⟨d,there,w,_,rfl⟩ := overlaid.ledger.origin found foundMember
    exact ⟨w.value,Sqlite.selectAtVersion_some read⟩

/-- A register that no surviving block wrote reads as it was at the height of its first fetch, which may be this one. -/
theorem read_unwritten {x : Session} (remembered : Remembered E node options x) {height : Nat} {id : RegisterID}
    (taken : height < 2^63) (unwritten : ¬ Written x.blocks height id)
    (answered : node.getRegisterValues (min height x.store.forkHeight) id ≠ .error .unavailable) :
    (ledgerByHeight E choices node cacheChoices height id x.store).1 =
      .ok (node.value id (min ((x.fetched id).getD height) x.store.forkHeight)) := by
  obtain ⟨cache,here,cached⟩ := remembered.cache
  rw [ledgerByHeight_unwritten taken (overlay_unwritten remembered.toOverlaid unwritten)]
  cases known : x.fetched id with
  | some first => rw [forkedRegister_cached here (cached_found cached known)]; rfl
  | none =>
    rw [forkedRegister_missing here (cached_missing cached known),fetchRegister_run answered]
    rfl

variable (choices cacheChoices) in
/-- A register that is neither in the overlay nor in the cache is fetched into the cache. -/
theorem read_fetched {x : Session} (remembered : Remembered E node options x) {height : Nat} {id : RegisterID}
    (taken : height < 2^63) (unwritten : ¬ Written x.blocks height id) (unknown : x.fetched id = none)
    (answered : node.getRegisterValues (min height x.store.forkHeight) id ≠ .error .unavailable) :
    ∃ cache, x.store.cacheStore = some cache ∧ read E choices cacheChoices node height id x = { x with
      store := { x.store with cacheStore := some (Sqlite.setBytes .ledger (E.registerText id)
        (node.value id (min height x.store.forkHeight)) cache).2 }
      fetched := Function.update x.fetched id (some height) } := by
  obtain ⟨cache,here,cached⟩ := remembered.cache
  refine ⟨cache,here,?_⟩
  unfold read
  rw [ledgerByHeight_unwritten taken (overlay_unwritten remembered.toOverlaid unwritten),
    forkedRegister_missing here (cached_missing cached unknown),fetchRegister_run answered]
  simp only [cacheRegister,update_run,here,if_neg unwritten,unknown,Option.getD_none]

variable (choices cacheChoices) in
/-- A read leaves the cache, or puts a register into it that was not there. -/
theorem read_cases {x : Session} (remembered : Remembered E node options x) (height : Nat) (id : RegisterID) :
    SameFork x (read E choices cacheChoices node height id x) ∨
      ∃ cache, x.store.cacheStore = some cache ∧ x.fetched id = none ∧
        read E choices cacheChoices node height id x = { x with
          store := { x.store with cacheStore := some (Sqlite.setBytes .ledger (E.registerText id)
            (node.value id (min height x.store.forkHeight)) cache).2 }
          fetched := Function.update x.fetched id (some height) } := by
  by_cases taken : height < 2^63
  swap
  · unfold read
    rw [ledgerByHeight_refused taken]
    exact .inl ⟨rfl,rfl,rfl,rfl,rfl⟩
  by_cases written : Written x.blocks height id
  · obtain ⟨value,found⟩ := overlay_some choices remembered.toOverlaid written
    unfold read
    rw [ledgerByHeight_written taken found]
    exact .inl ⟨rfl,rfl,rfl,rfl,if_pos written⟩
  obtain ⟨cache,here,cached⟩ := remembered.cache
  have missing : Sqlite.selectAtVersion choices .ledger (E.registerText id) height x.store.overlay = .error .notFound :=
    overlay_unwritten remembered.toOverlaid written
  cases known : x.fetched id with
  | some first =>
    unfold read
    rw [ledgerByHeight_unwritten taken missing,forkedRegister_cached here (cached_found cached known)]
    refine .inl ⟨rfl,rfl,rfl,rfl,(if_neg written).trans ?_⟩
    rw [known,Option.getD_some,← known,Function.update_eq_self]
  | none =>
    by_cases answered : node.getRegisterValues (min height x.store.forkHeight) id = .error .unavailable
    · unfold read
      rw [ledgerByHeight_unwritten taken missing,forkedRegister_missing here (cached_missing cached known),
        fetchRegister_failed answered]
      exact .inl ⟨rfl,rfl,rfl,rfl,rfl⟩
    · obtain ⟨cache,there,done⟩ := read_fetched choices cacheChoices remembered taken written known answered
      exact .inr ⟨cache,there,rfl,done⟩

theorem remembered_read {x : Session} (remembered : Remembered E node options x) (height : Nat) (id : RegisterID) :
    Remembered E node options (read E choices cacheChoices node height id x) := by
  have overlaid : Overlaid E (read E choices cacheChoices node height id x) :=
    overlaid_read remembered.toOverlaid height id
  rcases read_cases choices cacheChoices remembered height id with same | ⟨cache,here,unknown,done⟩
  · exact remembered_of_same remembered overlaid same
  · obtain ⟨known,there,cached⟩ := remembered.cache
    rw [here] at there
    cases there
    rw [done] at overlaid ⊢
    exact { overlaid with
      height := remembered.height
      header := remembered.header
      chainID := remembered.chainID
      cache := ⟨_,rfl,cached_set cached unknown height⟩ }

/-- The cache after a restart, in its directory or in memory. -/
theorem cached_restart {x : Session} (remembered : Remembered E node options x) (pruned : Bool) :
    Cached E node x.store.forkHeight (if options.forkCacheDir && !pruned then x.fetched else fun _ => none)
      (initializeCacheStore options (cachesLeft options pruned x) (cachePath x.store.chainID x.store.forkBlockID)) := by
  obtain ⟨cache,here,cached⟩ := remembered.cache
  unfold initializeCacheStore cachesLeft
  by_cases kept : (options.forkCacheDir && !pruned) = true
  · obtain ⟨directory,_⟩ := Bool.and_eq_true_iff.mp kept
    rw [if_pos kept,if_pos directory,if_pos kept,Function.update_self,here]
    exact cached_reopened cached .directory
  · rw [if_neg kept,if_neg kept]
    split
    · exact cached_empty E node _ .directory
    · exact cached_empty E node _ .inMemory

theorem remembered_restart {x : Session} (remembered : Remembered E node options x) (place : Option Sqlite.Url)
    (pruned : Bool) : Remembered E node options (restart E choices node options place pruned x) := by
  have overlaid : Overlaid E (restart E choices node options place pruned x) :=
    overlaid_restart remembered.toOverlaid place pruned
  obtain ⟨forked,latest,global,both,stored,_⟩ := provider_global remembered.toOverlaid place
  unfold restart at overlaid ⊢
  dsimp only at overlaid ⊢
  split at overlaid
  · exact remembered
  next s started =>
  have opened := new_ok global started
  have height : initialForkHeight node options.forkHeight = .ok s.forkHeight := by
    rcases opened_height opened with kept | chosen
    · rcases stored with none | same
      · rw [none] at kept; cases kept
      · rw [← Option.some.inj (same.symm.trans kept)]; exact remembered.height
    · exact chosen
  have sameHeight : s.forkHeight = x.store.forkHeight := Except.ok.inj (height.symm.trans remembered.height)
  have sameChain : s.chainID = x.store.chainID := Except.ok.inj (opened.chainID.symm.trans remembered.chainID)
  have sameBlock : s.forkBlockID = x.store.forkBlockID := by
    obtain ⟨header,asked,id⟩ := opened.header
    obtain ⟨before,askedBefore,idBefore⟩ := remembered.header
    rw [sameHeight,askedBefore] at asked
    rw [← id,← idBefore,Except.ok.inj asked]
  refine { overlaid with height := height, header := opened.header, chainID := opened.chainID, cache := ?_ }
  refine ⟨_,opened.cache,?_⟩
  rw [sameHeight,sameChain,sameBlock]
  exact cached_restart remembered pruned

theorem remembered_act (x : Session) (action : Action) (remembered : Remembered E node options x) :
    Remembered E node options (act E choices cacheChoices static node options action x) := by
  cases action with
  | commit c => exact remembered_commit remembered c
  | rollback height => exact remembered_rollback remembered height
  | read height id => exact remembered_read remembered height id
  | restart place pruned => exact remembered_restart remembered place pruned

/-- After any run, a register that no surviving block up to a height wrote reads
    there as the remote chain has it at that height, or at the fork height when
    that is lower, exactly when the driver takes the height and the remote chain has
    the same value at the height of the fetch that put the register into the cache,
    if one did. -/
theorem read_remote_iff {x : Session}
    (reached : Reached E choices cacheChoices static node options (fun _ _ => True) x) {height : Nat} {id : RegisterID}
    (unwritten : ¬ Written x.blocks height id)
    (answered : ∀ height, node.getRegisterValues height id ≠ .error .unavailable) :
    (ledgerByHeight E choices node cacheChoices height id x.store).1 =
        .ok (node.value id (min height x.store.forkHeight)) ↔
      height < 2^63 ∧ ∀ first, x.fetched id = some first →
        node.value id (min first x.store.forkHeight) = node.value id (min height x.store.forkHeight) := by
  obtain ⟨url,s,actions,started,throughout,rfl⟩ := reached
  have remembered : Remembered E node options (play (act E choices cacheChoices static node options) actions (begun s)) :=
    play_keeps (fun x action before _ => remembered_act x action before) (remembered_begun started) throughout
  by_cases taken : height < 2^63
  swap
  · rw [ledgerByHeight_refused taken]
    exact iff_of_false (fun read => nomatch read) fun both => taken both.1
  rw [read_unwritten remembered taken unwritten (answered _),Except.ok.injEq,and_iff_right taken]
  cases (play (act E choices cacheChoices static node options) actions (begun s)).fetched id with
  | none => exact ⟨fun _ _ absent => absurd absent (by simp),fun _ => rfl⟩
  | some first => exact ⟨fun same _ known => Option.some.inj known ▸ same,fun same => same first rfl⟩

/-- The session after a register was read at height 1, below the fork height 5. -/
theorem sample_fetched : ∃ x,
    Reached Samples.encoding .earliest .earliest (fun _ => false) sampleNode sampleOptions (fun _ _ => True) x ∧
      Remembered Samples.encoding sampleNode sampleOptions x ∧ x.blocks = [] ∧ x.fetched ⟨[],[]⟩ = some 1 ∧
      x.store.forkHeight = 5 := by
  obtain ⟨s,started⟩ := sample_started
  have remembered := remembered_begun started
  have unwritten : ¬ Written (begun s).blocks 1 ⟨[],[]⟩ := fun ⟨c,here,_⟩ => absurd here List.not_mem_nil
  obtain ⟨cache,_,done⟩ := read_fetched .earliest .earliest remembered (by decide) unwritten rfl (fun failed => by cases failed)
  refine ⟨_,⟨.inMemory,s,[.read 1 ⟨[],[]⟩],started,⟨trivial,trivial⟩,rfl⟩,remembered_read remembered 1 ⟨[],[]⟩,?_⟩
  rw [play_cons,play_nil,act,done]
  have known : Function.update (begun s).fetched ⟨[],[]⟩ (some 1) ⟨[],[]⟩ = some 1 := Function.update_self ..
  exact ⟨rfl,known,(Except.ok.inj remembered.height).symm⟩

theorem read_remote_again : ∃ x,
    Reached Samples.encoding .earliest .earliest (fun _ => false) sampleNode sampleOptions (fun _ _ => True) x ∧
      (ledgerByHeight Samples.encoding .earliest sampleNode .earliest 1 ⟨[],[]⟩ x.store).1 =
        .ok (sampleNode.value ⟨[],[]⟩ (min 1 x.store.forkHeight)) := by
  obtain ⟨x,reached,_,blocks,fetched,_⟩ := sample_fetched
  have unwritten : ¬ Written x.blocks 1 ⟨[],[]⟩ := by
    rw [blocks]
    exact fun ⟨c,here,_⟩ => absurd here List.not_mem_nil
  refine ⟨x,reached,(read_remote_iff reached unwritten (fun _ failed => by cases failed)).mpr ⟨by decide,?_⟩⟩
  intro first known
  rw [fetched] at known
  cases known
  rfl

/-- A register that was read below the fork height is not read as it is at the fork height. -/
theorem read_keeps_lower_value : ∃ x,
    Reached Samples.encoding .earliest .earliest (fun _ => false) sampleNode sampleOptions (fun _ _ => True) x ∧
      ¬ Written x.blocks 5 ⟨[],[]⟩ ∧
      (ledgerByHeight Samples.encoding .earliest sampleNode .earliest 5 ⟨[],[]⟩ x.store).1 ≠
        .ok (sampleNode.value ⟨[],[]⟩ (min 5 x.store.forkHeight)) := by
  obtain ⟨x,reached,remembered,blocks,fetched,fork⟩ := sample_fetched
  have unwritten : ¬ Written x.blocks 5 ⟨[],[]⟩ := by
    rw [blocks]
    exact fun ⟨c,here,_⟩ => absurd here List.not_mem_nil
  refine ⟨x,reached,unwritten,?_⟩
  rw [read_unwritten remembered (by decide) unwritten (fun failed => by cases failed),fetched,fork]
  decide

end
end FlowEmulator.Remote
