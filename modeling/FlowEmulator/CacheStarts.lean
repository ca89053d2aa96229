import Mathlib.Data.Finset.Card
import FlowEmulator.CachePruning
import FlowEmulator.Run

/-!
The starts of forks that keep their caches below one base directory. Every start
prunes the caches there are and then makes or uses its own. Over any run of
starts the number of caches stays bounded, and a cache stays as long as it was
used not too long ago and few others were used since.
-/
namespace FlowEmulator.CachePruning
open FlowEmulator.Text (Bytes)

/-- One start of a fork: its chain and block, the clock, and what the file system
    does: the error of making each directory, what the second holds once the store
    was opened in it and when it changed, and the errors of opening and touching it. -/
structure Start where
  chainID : Bytes
  forkBlockID : Bytes
  now : Int
  base : Option String
  subdirectory : Option String
  changed : Int
  walk : List (Except String FileInfo)
  store : Option String
  used : Int
  touch : Option String

/-! ### The source -/

/-- The name of the cache's directory: the chain, and the block's first twelve digits. -/
def Start.subdir (start : Start) : Bytes := start.chainID ++ 45 :: start.forkBlockID.take 12

/-- The cache's directory, last changed at a time. -/
def Start.entry (start : Start) (time : Int) : Entry := ⟨start.subdir,true,.ok time,start.walk⟩

section
variable (D : Disk)

/-- An entry in the place of one with its name. -/
def Directory.put (entry : Entry) (directory : Directory) : Directory where
  entries := (directory.without D (D.path entry.name)).entries ++ [entry]
  distinct := by
    rw [List.map_append,List.nodup_append]
    refine ⟨(directory.without D _).distinct,List.nodup_singleton _,?_⟩
    intro name before other last same
    obtain ⟨left,member,rfl⟩ := List.mem_map.mp before
    have apart := of_decide_eq_true (List.mem_filter.mp member).2
    rw [same,List.mem_singleton.mp last] at apart
    exact apart rfl

def Host.warn (warning : Warning) (host : Host) : Host := { host with warnings := host.warnings ++ [warning] }

/-- Caches are pruned, and a failure to do so is only logged. -/
def prunedOrWarned (S : Sorter) (now : Int) (host : Host) : Host :=
  match pruneCache D S now host with
  | (.ok _,host) => host
  | (.error err,host) => host.warn (.pruning err)

/-- What the initialization of the cache store does to the base directory. -/
def initializeCacheStore (S : Sorter) (start : Start) : Fallible String Host Unit := fun host =>
  match start.base with
  | some err => (.error ("failed to create cache directory: " ++ err),host)
  | none =>
    let host := prunedOrWarned D S start.now host
    match start.subdirectory with
    | some err => (.error ("failed to create cache subdirectory: " ++ err),host)
    | none =>
      let host := { host with directory := host.directory.put D (start.entry start.changed) }
      match start.store with
      | some err => (.error ("failed to create cache store: " ++ err),host)
      | none => match start.touch with
        | some err => (.ok (),host.warn (.accessTime (D.path start.subdir) err))
        | none => (.ok (),{ host with directory := host.directory.put D (start.entry start.used) })

/-- The base directory after a start, whether it gets its cache or not. -/
def afterStart (S : Sorter) (start : Start) (host : Host) : Host := (initializeCacheStore D S start host).2

end
section
variable {D : Disk}

/-! ### One start -/

theorem cachesIn_without (path : Bytes) (directory : Directory) :
    cachesIn D (directory.without D path) = (cachesIn D directory).filter fun cache => decide (cache.path ≠ path) := by
  have left := filterMap_left (D := D) [path] directory.entries
  simp only [List.mem_singleton] at left
  exact left

theorem cachesIn_put (entry : Entry) (directory : Directory) :
    cachesIn D (directory.put D entry) =
      (cachesIn D directory).filter (fun cache => decide (cache.path ≠ D.path entry.name)) ++ (cacheFound D entry).toList := by
  rw [← cachesIn_without]
  unfold cachesIn Directory.put
  rw [List.filterMap_append]
  rcases found : cacheFound D entry with _ | cache <;> simp [found]

/-- The cache of a start takes its own place. -/
theorem put_entry (start : Start) (time again : Int) (directory : Directory) :
    (directory.put D (start.entry time)).put D (start.entry again) = directory.put D (start.entry again) := by
  have own : ([start.entry time].filter fun entry => decide (D.path entry.name ≠ D.path (start.entry again).name)) = [] := by
    simp [Start.entry]
  unfold Directory.put Directory.without
  dsimp only
  congr 2
  rw [List.filter_append,own,List.append_nil,List.filter_filter]
  exact List.filter_congr fun entry _ => Bool.and_self _

/-- After a start the directory is as it was, or pruned, or pruned with the start's own cache. -/
theorem start_cases (S : Sorter) (start : Start) (host : Host) :
    (afterStart D S start host).directory = host.directory ∨
      (afterStart D S start host).directory = (prunedOrWarned D S start.now host).directory ∨
      ∃ time, (afterStart D S start host).directory =
        (prunedOrWarned D S start.now host).directory.put D (start.entry time) := by
  unfold afterStart initializeCacheStore
  rcases start.base with _ | err
  · right
    rcases start.subdirectory with _ | err
    · right
      rcases start.store with _ | err
      · rcases start.touch with _ | err
        · exact ⟨start.used,put_entry start start.changed start.used _⟩
        · exact ⟨start.changed,rfl⟩
      · exact ⟨start.changed,rfl⟩
    · exact .inl rfl
  · exact .inl rfl

theorem cachesIn_put_length (entry : Entry) (directory : Directory) :
    (cachesIn D (directory.put D entry)).length ≤ (cachesIn D directory).length + 1 := by
  rw [cachesIn_put,List.length_append]
  have fewer := List.length_filter_le (fun cache => decide (cache.path ≠ D.path entry.name)) (cachesIn D directory)
  have one : (cacheFound D entry).toList.length ≤ 1 := by
    rcases cacheFound D entry with _ | cache <;> simp
  omega

/-! ### How long a cache stays -/

/-- The cache is in the directory, and the others that were last used no earlier are at certain paths. -/
structure Followed (D : Disk) (paths : Finset Bytes) (cache : CacheInfo) (directory : Directory) : Prop where
  there : cache ∈ cachesIn D directory
  later : ∀ other ∈ cachesIn D directory, other.path ≠ cache.path → cache.accessTime ≤ other.accessTime → other.path ∈ paths

/-- What pruning leaves has every cache that is not old and is followed by few others. -/
theorem Pruned.keeps {cutoff : Int} {caches kept : List CacheInfo} (pruned : Pruned cutoff caches kept)
    (distinct : (caches.map CacheInfo.path).Nodup) {paths : Finset Bytes} (few : paths.card < defaultMaxCacheCount)
    {cache : CacheInfo} (there : cache ∈ caches) (recent : isOld cutoff cache = false)
    (later : ∀ other ∈ caches, other.path ≠ cache.path → cache.accessTime ≤ other.accessTime → other.path ∈ paths) :
    cache ∈ kept := by
  by_contra gone
  have many : defaultMaxCacheCount < caches.countP (! isOld cutoff ·) :=
    not_le.mp fun notMany => gone (pruned.allFresh notMany cache there recent)
  have full : kept.length = defaultMaxCacheCount := by
    rw [pruned.count]
    omega
  -- All that are left were used no earlier, so that there is no room for them at the paths.
  have among : (kept.map CacheInfo.path).toFinset ⊆ paths := by
    intro path member
    obtain ⟨left,stays,rfl⟩ := List.mem_map.mp (List.mem_toFinset.mp member)
    have found := pruned.sublist.subset stays
    refine later left found ?_ (pruned.newest cache there gone recent left stays)
    intro same
    exact gone (List.inj_on_of_nodup_map distinct found there same ▸ stays)
  have room := Finset.card_le_card among
  rw [List.toFinset_card_of_nodup (distinct.sublist (pruned.sublist.map _)),List.length_map,full] at room
  omega

theorem followed_put {paths : Finset Bytes} {cache : CacheInfo} {entry : Entry} (apart : D.path entry.name ≠ cache.path)
    (among : D.path entry.name ∈ paths) {directory : Directory} (followed : Followed D paths cache directory) :
    Followed D paths cache (directory.put D entry) := by
  constructor
  · rw [cachesIn_put]
    exact List.mem_append_left _ (List.mem_filter.mpr ⟨followed.there,decide_eq_true apart.symm⟩)
  · intro other member different later
    rw [cachesIn_put] at member
    rcases List.mem_append.mp member with before | own
    · exact followed.later other (List.mem_filter.mp before).1 different later
    · rw [cacheFound_path (Option.mem_toList.mp own)]
      exact among

/-! ### Runs of starts -/

/-- One cache. -/
def single : Directory := ⟨[⟨[1],true,.ok 7,[]⟩],by decide⟩

/-- A start without failures. -/
def smoothStart (now : Int) : Start := ⟨[2],[3],now,none,none,now,[],none,now,none⟩

variable (S : Sorter) (removed : ∀ path directory, D.failure path directory = none)
include removed

/-- Pruning at a start leaves the right caches, or all where they cannot be listed. -/
theorem prunedOrWarned_caches (now : Int) (host : Host) :
    D.listing ≠ none ∧ (prunedOrWarned D S now host).directory = host.directory ∨
      Pruned (now-defaultTTL) (cachesIn D host.directory) (cachesIn D (prunedOrWarned D S now host).directory) := by
  unfold prunedOrWarned
  rcases listed : D.listing with _ | err
  · obtain ⟨after,pruned,right,_⟩ := pruneCache_leaves S now (getCaches_listed listed host) removed
    rw [pruned]
    exact .inr right
  · have failed : pruneCache D S now host = (.error err,host) := by
      unfold pruneCache getCaches
      rw [listed]
    rw [failed]
    exact .inl ⟨by simp,rfl⟩

theorem start_bounded (listed : D.listing = none) (start : Start) {host : Host}
    (few : (cachesIn D host.directory).length ≤ defaultMaxCacheCount + 1) :
    (cachesIn D (afterStart D S start host).directory).length ≤ defaultMaxCacheCount + 1 := by
  have kept : (cachesIn D (prunedOrWarned D S start.now host).directory).length ≤ defaultMaxCacheCount := by
    rcases prunedOrWarned_caches S removed start.now host with ⟨unlisted,_⟩ | pruned
    · exact absurd listed unlisted
    · rw [pruned.count]
      exact Nat.min_le_right _ _
  rcases start_cases S start host with same | same | ⟨time,same⟩
  · rwa [same]
  · rw [same]
    omega
  · rw [same]
    exact (cachesIn_put_length _ _).trans (Nat.add_le_add_right kept 1)

/-- Over any run of starts there is never more than one cache beyond those that pruning keeps. -/
theorem caches_bounded (listed : D.listing = none) {host : Host}
    (few : (cachesIn D host.directory).length ≤ defaultMaxCacheCount + 1) (starts : List Start) :
    (cachesIn D (Run.play (afterStart D S) starts host).directory).length ≤ defaultMaxCacheCount + 1 := by
  have keeps (host : Host) (start : Start) (few : (cachesIn D host.directory).length ≤ defaultMaxCacheCount + 1) (_ : True) :
      (cachesIn D (afterStart D S start host).directory).length ≤ defaultMaxCacheCount + 1 :=
    start_bounded S removed listed start few
  exact Run.play_keeps keeps few (Run.throughout_all fun _ _ => trivial)

omit removed in
theorem caches_bounded_twice :
    (cachesIn disk (Run.play (afterStart disk .insertion) [smoothStart 8,smoothStart 9] ⟨single,[]⟩).directory).length ≤ 11 :=
  caches_bounded .insertion (fun _ _ => rfl) rfl (by decide) _

theorem followed_pruned {now : Int} {paths : Finset Bytes} (few : paths.card < defaultMaxCacheCount) {cache : CacheInfo}
    (recent : now - defaultTTL ≤ cache.accessTime) {host : Host} (followed : Followed D paths cache host.directory) :
    Followed D paths cache (prunedOrWarned D S now host).directory := by
  rcases prunedOrWarned_caches S removed now host with ⟨_,same⟩ | pruned
  · rwa [same]
  · have fresh : isOld (now-defaultTTL) cache = false := decide_eq_false (not_lt.mpr recent)
    constructor
    · exact pruned.keeps (cachesIn_distinct _) few followed.there fresh followed.later
    · exact fun other member => followed.later other (pruned.sublist.subset member)

theorem followed_start {paths : Finset Bytes} (few : paths.card < defaultMaxCacheCount) {cache : CacheInfo} {start : Start}
    (apart : D.path start.subdir ≠ cache.path) (among : D.path start.subdir ∈ paths)
    (recent : start.now - defaultTTL ≤ cache.accessTime) {host : Host} (followed : Followed D paths cache host.directory) :
    Followed D paths cache (afterStart D S start host).directory := by
  have pruned := followed_pruned S removed few recent followed
  rcases start_cases S start host with same | same | ⟨time,same⟩
  · rwa [same]
  · rwa [same]
  · rw [same]
    exact followed_put apart among pruned

/-- Over any run of starts a cache that none of them uses stays, untouched, as long
    as it is not old, and the caches used since it was, by the starts and before
    them, are fewer than are kept. -/
theorem cache_stays {paths : Finset Bytes} (few : paths.card < defaultMaxCacheCount) {cache : CacheInfo} {host : Host}
    (followed : Followed D paths cache host.directory) {starts : List Start}
    (others : ∀ start ∈ starts, D.path start.subdir ≠ cache.path ∧ D.path start.subdir ∈ paths ∧
      start.now - defaultTTL ≤ cache.accessTime) :
    cache ∈ cachesIn D (Run.play (afterStart D S) starts host).directory := by
  have keeps (host : Host) (start : Start) (followed : Followed D paths cache host.directory)
      (other : D.path start.subdir ≠ cache.path ∧ D.path start.subdir ∈ paths ∧ start.now - defaultTTL ≤ cache.accessTime) :
      Followed D paths cache (afterStart D S start host).directory :=
    followed_start S removed few other.1 other.2.1 other.2.2 followed
  exact (Run.play_keeps keeps followed (Run.throughout_all others)).there

end

theorem cache_stays_twice :
    ⟨[46,47,1],7,0⟩ ∈ cachesIn disk (Run.play (afterStart disk .insertion) [smoothStart 8,smoothStart 9] ⟨single,[]⟩).directory := by
  have followed : Followed disk {disk.path (smoothStart 0).subdir} ⟨[46,47,1],7,0⟩ single := ⟨by decide,by decide⟩
  exact cache_stays .insertion (fun _ _ => rfl) (by decide) followed (by decide)

end FlowEmulator.CachePruning
