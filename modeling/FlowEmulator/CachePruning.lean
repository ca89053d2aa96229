import Mathlib.Data.List.Sort
import FlowEmulator.Fallible
import FlowEmulator.Text

/-!
The caches of forks, each a directory below one base directory, and how they are
pruned before a fork begins: first all that were not used for a time, by going
through the list and deleting from it on the way, then the least recently used
ones as long as there are too many. What is left is told by another look at the
base directory.
-/
namespace FlowEmulator.CachePruning
open FlowEmulator.Text (Bytes)

/-- Thirty days, in nanoseconds. -/
def defaultTTL : Int := 30 * 24 * 3600 * 1000000000
def defaultMaxCacheCount : Nat := 10

structure FileInfo where
  isDir : Bool
  size : Nat

/-- An entry of the base directory: its last change if that can be read, and what
    a walk through it meets, file by file, or the error of reading one. -/
structure Entry where
  name : Bytes
  isDir : Bool
  modTime : Except String Int
  walk : List (Except String FileInfo)

/-- The entries of the base directory. No two have the same name. -/
structure Directory where
  entries : List Entry
  distinct : (entries.map Entry.name).Nodup

structure CacheInfo where
  path : Bytes
  accessTime : Int
  size : Nat
deriving DecidableEq

inductive Warning where
  | cacheSize (path : Bytes) (err : String)
  | removal (path : Bytes) (err : String)
  | pruning (err : String)
  | accessTime (path : Bytes) (err : String)

/-- What is changed by pruning. -/
structure Host where
  directory : Directory
  warnings : List Warning

/-- The base directory on a file system: the error of listing it, and the error of
    removing a path together with what the removal left until then. -/
structure Disk where
  baseDir : Bytes
  listing : Option String
  failure : Bytes → Directory → Option (String × Directory)

/-- A way to sort by access time, the oldest first. Caches with the same access time may come in any order. -/
structure Sorter where
  sort : List CacheInfo → List CacheInfo
  perm : ∀ caches, (sort caches).Perm caches
  ordered : ∀ caches, (sort caches).Pairwise fun a b => ¬ b.accessTime < a.accessTime

/-! ### The source -/

section
variable (D : Disk)

/-- The path of a name in the base directory. -/
def Disk.path (name : Bytes) : Bytes := D.baseDir ++ 47 :: name

def getDirSize (walk : List (Except String FileInfo)) : Except String Nat :=
  walk.foldlM (fun size info => info.map fun info => if info.isDir then size else size+info.size) 0

/-- The directory as a cache, or the warning that its size is not known. Other entries are passed over. -/
def cacheOf (entry : Entry) : Option (Except Warning CacheInfo) :=
  if entry.isDir then
    match entry.modTime with
    | .error _ => none
    | .ok modTime => match getDirSize entry.walk with
      | .error err => some (.error (.cacheSize (D.path entry.name) err))
      | .ok size => some (.ok ⟨D.path entry.name,modTime,size⟩)
  else none

/-- The caches among the entries, and the warnings on the way. -/
def collectCaches : List Entry → List CacheInfo × List Warning
  | [] => ([],[])
  | entry :: rest =>
    let (caches,warnings) := collectCaches rest
    match cacheOf D entry with
    | none => (caches,warnings)
    | some (.error warning) => (caches,warning :: warnings)
    | some (.ok cache) => (cache :: caches,warnings)

def getCaches : Fallible String Host (List CacheInfo) := fun host =>
  match D.listing with
  | some err => (.error err,host)
  | none =>
    let (caches,warnings) := collectCaches D host.directory.entries
    (.ok caches,{ host with warnings := host.warnings ++ warnings })

def Directory.without (path : Bytes) (directory : Directory) : Directory where
  entries := directory.entries.filter fun entry => decide (D.path entry.name ≠ path)
  distinct := directory.distinct.sublist (List.filter_sublist.map Entry.name)

/-- The directory of a cache is removed. A failure is only logged. -/
def removeCache (cache : CacheInfo) (host : Host) : Host :=
  match D.failure cache.path host.directory with
  | some (err,left) => ⟨left,host.warnings ++ [.removal cache.path err]⟩
  | none => { host with directory := host.directory.without D cache.path }

/-- The loop over the caches that deletes the old ones, on disk and from the list. -/
def pruneByAge (cutoff : Int) (i : Nat) (caches : List CacheInfo) (host : Host) : List CacheInfo × Host :=
  if inside : i < caches.length then
    if caches[i].accessTime < cutoff then
      pruneByAge cutoff i (caches.take i ++ caches.drop (i+1)) (removeCache D caches[i] host)
    else pruneByAge cutoff (i+1) caches host
  else (caches,host)
termination_by caches.length - i
decreasing_by
  · simp only [List.length_append,List.length_take,List.length_drop]
    omega
  · omega

/-- The loop over the first caches, as many as there are too many. -/
def pruneByCount (i : Nat) (caches : List CacheInfo) (host : Host) : Host :=
  if inside : i < caches.length - defaultMaxCacheCount then
    have : i < caches.length := by omega
    pruneByCount (i+1) caches (removeCache D caches[i] host)
  else host
termination_by caches.length - i

def pruneCache (S : Sorter) (now : Int) : Fallible String Host Unit := fun host =>
  match getCaches D host with
  | (.error err,host) => (.error err,host)
  | (.ok caches,host) =>
    if caches.length = 0 then (.ok (),host)
    else
      let (caches,host) := pruneByAge D (now-defaultTTL) 0 (S.sort caches) host
      if defaultMaxCacheCount < caches.length then (.ok (),pruneByCount D 0 caches host) else (.ok (),host)

end

/-! ### What is asked of it -/

def isOld (cutoff : Int) (cache : CacheInfo) : Bool := cache.accessTime < cutoff

/-- The caches that are left are right: they are some of those there were, none of
    them is old, and there are as many as can be kept. Those that are not old are
    all left if they are not too many, and otherwise none of them was used later
    than one that is left. -/
structure Pruned (cutoff : Int) (caches kept : List CacheInfo) : Prop where
  sublist : kept.Sublist caches
  fresh : ∀ cache ∈ kept, isOld cutoff cache = false
  count : kept.length = min (caches.countP (! isOld cutoff ·)) defaultMaxCacheCount
  allFresh : caches.countP (! isOld cutoff ·) ≤ defaultMaxCacheCount →
    ∀ cache ∈ caches, isOld cutoff cache = false → cache ∈ kept
  newest : ∀ cache ∈ caches, cache ∉ kept → isOld cutoff cache = false → ∀ left ∈ kept, cache.accessTime ≤ left.accessTime

/-- The caches that are removed, in their order: the old ones, then the first of the others. -/
def removals (cutoff : Int) (caches : List CacheInfo) : List CacheInfo :=
  let others := caches.filter (! isOld cutoff ·)
  caches.filter (isOld cutoff) ++ others.take (others.length - defaultMaxCacheCount)

/-- The caches that are not removed. -/
def survivors (cutoff : Int) (caches : List CacheInfo) : List CacheInfo :=
  let others := caches.filter (! isOld cutoff ·)
  others.drop (others.length - defaultMaxCacheCount)

theorem removals_survivors (cutoff : Int) (caches : List CacheInfo) :
    (removals cutoff caches ++ survivors cutoff caches).Perm caches := by
  rw [removals,survivors,List.append_assoc,List.take_append_drop]
  exact List.filter_append_perm (isOld cutoff) caches

/-! ### The loops -/

section
variable {D : Disk}

/-- One cache after the other is removed. -/
def removeEach (D : Disk) (caches : List CacheInfo) (host : Host) : Host :=
  caches.foldl (fun host cache => removeCache D cache host) host

/-- From an index on, the loop removes exactly the old caches and leaves the others in their order. -/
theorem pruneByAge_eq (cutoff : Int) (i : Nat) (caches : List CacheInfo) (host : Host) :
    pruneByAge D cutoff i caches host =
      (caches.take i ++ (caches.drop i).filter (! isOld cutoff ·),
        removeEach D ((caches.drop i).filter (isOld cutoff)) host) := by
  induction i, caches, host using pruneByAge.induct D cutoff with
  | case1 i caches host inside old ih =>
    -- The index stays, and stands before what was behind the deleted cache.
    have front : (caches.take i ++ caches.drop (i+1)).take i = caches.take i := by
      rw [List.take_append_of_le_length (by simp; omega),List.take_take,Nat.min_self]
    have back : (caches.take i ++ caches.drop (i+1)).drop i = caches.drop (i+1) := by
      rw [List.drop_append_of_le_length (by simp; omega),List.drop_take_self,List.nil_append]
    have gone : isOld cutoff caches[i] = true := decide_eq_true old
    rw [pruneByAge,dif_pos inside,if_pos old,ih,front,back,List.drop_eq_getElem_cons inside,
      List.filter_cons_of_pos gone,List.filter_cons_of_neg (by simp [gone])]
    rfl
  | case2 i caches host inside recent ih =>
    have stays : isOld cutoff caches[i] = false := decide_eq_false recent
    rw [pruneByAge,dif_pos inside,if_neg recent,ih,List.drop_eq_getElem_cons inside,List.take_succ_eq_append_getElem inside,
      List.filter_cons_of_pos (by simp [stays]),List.filter_cons_of_neg (by simp [stays]),List.append_assoc]
    rfl
  | case3 i caches host past =>
    rw [pruneByAge,dif_neg past,List.drop_eq_nil_of_le (by omega),List.take_of_length_le (by omega)]
    simp [removeEach]

theorem pruneByCount_eq (i : Nat) (caches : List CacheInfo) (host : Host) :
    pruneByCount D i caches host =
      removeEach D ((caches.take (caches.length - defaultMaxCacheCount)).drop i) host := by
  induction i, host using pruneByCount.induct D caches with
  | case1 i host inside _ ih =>
    have within : i < (caches.take (caches.length - defaultMaxCacheCount)).length := by
      rw [List.length_take]
      omega
    rw [pruneByCount,dif_pos inside,ih,List.drop_eq_getElem_cons within]
    simp [removeEach]
  | case2 i host past =>
    rw [pruneByCount,dif_neg past,List.drop_eq_nil_of_le (by rw [List.length_take]; omega)]
    rfl

/-- Pruning removes the caches that are found one after the other: the old ones, then the first of the others. -/
theorem pruneCache_eq (S : Sorter) (now : Int) {host found : Host} {caches : List CacheInfo}
    (read : getCaches D host = (.ok caches,found)) :
    pruneCache D S now host = (.ok (),removeEach D (removals (now-defaultTTL) (S.sort caches)) found) := by
  unfold pruneCache
  simp only [read]
  by_cases none : caches.length = 0
  · have nothing : S.sort caches = [] := by
      rw [List.length_eq_zero_iff.mp none]
      exact List.perm_nil.mp (S.perm [])
    rw [if_pos none,nothing]
    rfl
  · simp only [if_neg none,pruneByAge_eq,List.take_zero,List.nil_append,List.drop_zero]
    by_cases many : defaultMaxCacheCount < ((S.sort caches).filter (! isOld (now-defaultTTL) ·)).length
    · rw [if_pos many,pruneByCount_eq,List.drop_zero]
      simp only [removals,removeEach,List.foldl_append]
    · have few : ((S.sort caches).filter (! isOld (now-defaultTTL) ·)).length - defaultMaxCacheCount = 0 := by omega
      rw [if_neg many]
      simp only [removals,few,List.take_zero,List.append_nil]

/-! ### The directory afterwards -/

/-- The cache that an entry is found to be. -/
def cacheFound (D : Disk) (entry : Entry) : Option CacheInfo :=
  match cacheOf D entry with
  | some (.ok cache) => some cache
  | _ => none

theorem collectCaches_caches (entries : List Entry) : (collectCaches D entries).1 = entries.filterMap (cacheFound D) := by
  induction entries with
  | nil => rfl
  | cons entry rest ih =>
    rw [collectCaches,List.filterMap_cons,← ih,cacheFound]
    rcases cacheOf D entry with _ | _ | _ <;> rfl

theorem cacheFound_path {entry : Entry} {cache : CacheInfo} (found : cacheFound D entry = some cache) :
    cache.path = D.path entry.name := by
  unfold cacheFound cacheOf at found
  by_cases isDir : entry.isDir = true
  · rcases time : entry.modTime with _ | modTime
    · simp [isDir,time] at found
    · rcases size : getDirSize entry.walk with _ | size
      · simp [isDir,time,size] at found
      · simp only [isDir,time,size,if_true,Option.some.injEq] at found
        rw [← found]
  · simp [isDir] at found

theorem path_injective {left right : Bytes} (same : D.path left = D.path right) : left = right := by
  unfold Disk.path at same
  exact (List.cons.inj (List.append_cancel_left same)).2

/-- The caches of a directory. -/
def cachesIn (D : Disk) (directory : Directory) : List CacheInfo := directory.entries.filterMap (cacheFound D)

theorem cachesIn_distinct (directory : Directory) : ((cachesIn D directory).map CacheInfo.path).Nodup := by
  rw [List.Nodup,List.pairwise_map]
  refine List.Pairwise.filterMap (cacheFound D) ?_ (List.pairwise_map.mp directory.distinct)
  intro left right different first foundFirst second foundSecond same
  rw [cacheFound_path foundFirst,cacheFound_path foundSecond] at same
  exact different (path_injective same)

theorem getCaches_listed (listed : D.listing = none) (host : Host) :
    getCaches D host = (.ok (cachesIn D host.directory),
      { host with warnings := host.warnings ++ (collectCaches D host.directory.entries).2 }) := by
  unfold getCaches cachesIn
  rw [listed,← collectCaches_caches]

theorem getCaches_ok {host found : Host} {caches : List CacheInfo} (read : getCaches D host = (.ok caches,found)) :
    D.listing = none ∧ caches = cachesIn D host.directory ∧ found.directory = host.directory := by
  rcases listed : D.listing with _ | err
  · rw [getCaches_listed listed] at read
    cases read
    exact ⟨rfl,rfl,rfl⟩
  · unfold getCaches at read
    rw [listed] at read
    cases read

theorem removeCache_directory {cache : CacheInfo} {host : Host} (removed : ∀ path directory, D.failure path directory = none) :
    (removeCache D cache host).directory = host.directory.without D cache.path := by
  unfold removeCache
  rw [removed]

/-- Without failures the entries that are left are those whose path was not removed. -/
theorem removeEach_entries (removed : ∀ path directory, D.failure path directory = none) (caches : List CacheInfo)
    (host : Host) : (removeEach D caches host).directory.entries =
      host.directory.entries.filter fun entry => decide (D.path entry.name ∉ caches.map CacheInfo.path) := by
  induction caches generalizing host with
  | nil => simp [removeEach]
  | cons cache rest ih =>
    show (removeEach D rest (removeCache D cache host)).directory.entries = _
    rw [ih,removeCache_directory removed,Directory.without,List.filter_filter]
    refine List.filter_congr fun entry _ => ?_
    simp only [List.map_cons,List.mem_cons,not_or,Bool.decide_and,Bool.and_comm]

theorem filterMap_left (paths : List Bytes) (entries : List Entry) :
    (entries.filter fun entry => decide (D.path entry.name ∉ paths)).filterMap (cacheFound D) =
      (entries.filterMap (cacheFound D)).filter fun cache => decide (cache.path ∉ paths) := by
  rw [List.filterMap_filter,List.filter_filterMap]
  refine List.filterMap_congr fun entry _ => ?_
  rcases found : cacheFound D entry with _ | cache
  · simp
  · rw [Option.filter_some,cacheFound_path found]

/-- The caches that are found after some of them were removed are the others. -/
theorem cachesIn_removeEach (removed : ∀ path directory, D.failure path directory = none) (host : Host)
    {gone : List CacheInfo} (among : ∀ cache ∈ gone, cache ∈ cachesIn D host.directory) :
    cachesIn D (removeEach D gone host).directory =
      (cachesIn D host.directory).filter fun cache => decide (cache ∉ gone) := by
  rw [cachesIn,removeEach_entries removed,filterMap_left]
  refine List.filter_congr fun cache found => ?_
  rw [decide_eq_decide,not_iff_not,List.mem_map]
  constructor
  · rintro ⟨other,isGone,same⟩
    rwa [← List.inj_on_of_nodup_map (cachesIn_distinct host.directory) (among other isGone) found same]
  · exact fun isGone => ⟨cache,isGone,rfl⟩

/-- What is left of distinct caches when the removals of a sorted list of them are taken away is right. -/
theorem pruned_sorted (cutoff : Int) {caches sorted : List CacheInfo} (distinct : caches.Nodup) (perm : sorted.Perm caches)
    (ordered : sorted.Pairwise fun a b => ¬ b.accessTime < a.accessTime) :
    Pruned cutoff caches (caches.filter fun cache => decide (cache ∉ removals cutoff sorted)) := by
  have whole := (removals_survivors cutoff sorted).trans perm
  have parts := whole.nodup_iff.mpr distinct
  have kept : (caches.filter fun cache => decide (cache ∉ removals cutoff sorted)).Perm (survivors cutoff sorted) := by
    refine (whole.symm.filter _).trans ?_
    rw [List.filter_append,List.filter_eq_nil_iff.mpr (by simp),List.nil_append,List.filter_eq_self.mpr]
    intro cache left
    exact decide_eq_true fun isGone => List.disjoint_of_nodup_append parts isGone left
  have others : ∀ cache, cache ∈ caches → isOld cutoff cache = false → cache ∈ sorted.filter (! isOld cutoff ·) :=
    fun cache member recent => List.mem_filter.mpr ⟨perm.mem_iff.mpr member,by rw [recent]; rfl⟩
  have total : (sorted.filter (! isOld cutoff ·)).length = caches.countP (! isOld cutoff ·) := by
    rw [← List.countP_eq_length_filter,perm.countP_eq]
  constructor
  · exact List.filter_sublist
  · intro cache left
    have recent := (List.mem_filter.mp (List.mem_of_mem_drop (kept.mem_iff.mp left))).2
    simpa using recent
  · rw [kept.length_eq,survivors,List.length_drop,total]
    omega
  · intro few cache member recent
    rw [kept.mem_iff,survivors,total,Nat.sub_eq_zero_of_le few,List.drop_zero]
    exact others cache member recent
  · intro cache member isGone recent left stays
    rw [kept.mem_iff,survivors] at isGone stays
    have pairs := ordered.filter (! isOld cutoff ·)
    have before := others cache member recent
    rw [← List.take_append_drop ((sorted.filter (! isOld cutoff ·)).length - defaultMaxCacheCount)
      (sorted.filter (! isOld cutoff ·))] at pairs before
    have first := (List.mem_append.mp before).resolve_right isGone
    exact not_lt.mp ((List.pairwise_append.mp pairs).2.2 cache first left stays)

/-- What pruning leaves where no removal fails: the right caches, and every entry but the directories of the others. -/
theorem pruneCache_leaves (S : Sorter) (now : Int) {host found : Host} {caches : List CacheInfo}
    (read : getCaches D host = (.ok caches,found)) (removed : ∀ path directory, D.failure path directory = none) :
    ∃ after, pruneCache D S now host = (.ok (),after) ∧ Pruned (now-defaultTTL) caches (cachesIn D after.directory) ∧
      ∀ entry, entry ∈ after.directory.entries ↔ entry ∈ host.directory.entries ∧
        ∀ cache ∈ caches, cache.path = D.path entry.name → cache ∈ cachesIn D after.directory := by
  obtain ⟨_,rfl,unchanged⟩ := getCaches_ok read
  rw [← unchanged] at read ⊢
  have among : ∀ cache ∈ removals (now-defaultTTL) (S.sort (cachesIn D found.directory)), cache ∈ cachesIn D found.directory :=
    fun cache isGone => (S.perm _).mem_iff.mp
      ((removals_survivors _ _).mem_iff.mp (List.mem_append_left _ isGone))
  have left := cachesIn_removeEach removed found among
  refine ⟨_,pruneCache_eq S now read,?_,fun entry => ?_⟩
  · rw [left]
    exact pruned_sorted _ (List.Nodup.of_map _ (cachesIn_distinct _)) (S.perm _) (S.ordered _)
  · rw [left,removeEach_entries removed,List.mem_filter,decide_eq_true_iff,List.mem_map]
    refine and_congr_right fun _ => ?_
    constructor
    · intro stays cache found same
      exact List.mem_filter.mpr ⟨found,decide_eq_true fun isGone => stays ⟨cache,isGone,same⟩⟩
    · rintro stays ⟨cache,isGone,same⟩
      exact of_decide_eq_true (List.mem_filter.mp (stays cache (among cache isGone) same)).2 isGone

/-- Where no removal fails, pruning succeeds, and the caches that are found
    afterwards are the right ones among those that were found before. Nothing but
    the directories of the other caches is removed. -/
theorem pruneCache_exact (S : Sorter) (now : Int) {host found : Host} {caches : List CacheInfo}
    (read : getCaches D host = (.ok caches,found)) (removed : ∀ path directory, D.failure path directory = none) :
    ∃ after again kept, pruneCache D S now host = (.ok (),after) ∧ getCaches D after = (.ok kept,again) ∧
      Pruned (now-defaultTTL) caches kept ∧
      ∀ entry, entry ∈ after.directory.entries ↔ entry ∈ host.directory.entries ∧
        ∀ cache ∈ caches, cache.path = D.path entry.name → cache ∈ kept := by
  obtain ⟨after,pruned,right,entries⟩ := pruneCache_leaves S now read removed
  exact ⟨after,_,_,pruned,getCaches_listed (getCaches_ok read).1 after,right,entries⟩

end

/-! ### Twelve caches -/

/-- Sorting by insertion. -/
def Sorter.insertion : Sorter where
  sort := List.insertionSort fun a b => ¬ b.accessTime < a.accessTime
  perm := List.perm_insertionSort _
  ordered caches := by
    have total : Std.Total fun a b : CacheInfo => ¬ b.accessTime < a.accessTime := ⟨fun a b => by omega⟩
    have trans : IsTrans CacheInfo fun a b => ¬ b.accessTime < a.accessTime := ⟨fun a b c => by omega⟩
    exact List.pairwise_insertionSort _ caches

/-- A file system without failures. -/
def disk : Disk := ⟨[46],none,fun _ _ => none⟩

/-- Twelve caches, one of them not used since the first instant, the others last used all at once. -/
def twelve : Directory where
  entries := (List.range 12).map fun n => ⟨[n.toUInt8],true,.ok (if n = 4 then 0 else 7),[]⟩
  distinct := by decide

theorem pruneCache_exact_twelve : ∃ after again kept,
    pruneCache disk .insertion (defaultTTL+5) ⟨twelve,[]⟩ = (.ok (),after) ∧ getCaches disk after = (.ok kept,again) ∧
      Pruned 5 (cachesIn disk twelve) kept ∧ kept.length = 10 := by
  have removed : ∀ path directory, disk.failure path directory = none := fun _ _ => rfl
  obtain ⟨after,again,kept,pruned,read,right,_⟩ :=
    pruneCache_exact .insertion (defaultTTL+5) (getCaches_listed rfl ⟨twelve,[]⟩) removed
  have fresh : (cachesIn disk twelve).countP (! isOld (defaultTTL+5-defaultTTL) ·) = 11 := by decide
  have count := right.count
  rw [fresh] at count
  exact ⟨after,again,kept,pruned,read,right,count⟩

end FlowEmulator.CachePruning
