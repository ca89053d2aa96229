import FlowEmulator.Fork

/-!
The fork height over the starts of an emulator that continues a remote chain. A
first start without a given height takes the latest height of the node less a
buffer, in the arithmetic of 64 bits, and a later start takes the stored height
again. A stored height of 0 counts as none: the later start then chooses anew
and overwrites the latest local height.
-/
namespace FlowEmulator.Remote
open FlowEmulator.Keys FlowEmulator.Fallible FlowEmulator.DefaultStore FlowEmulator.Run
open FlowEmulator.Sqlite (Choices)

/-! ### Lives of a fork -/

/-- An action, with the node and the options there are at its time. -/
structure Attended where
  node : Node
  options : Options
  action : Action

section
variable (E : Encoding) (choices cacheChoices : Choices) (static : Identifier → Bool)

def attend (a : Attended) : Session → Session := act E choices cacheChoices static a.node a.options a.action

/-- The sessions after a first start on an empty overlay. -/
def First (x : Session) : Prop :=
  ∃ url node options s, new E choices node options noCaches (Sqlite.fresh url) = .ok s ∧ x = begun s

/-- The sessions of a fork whose node and options may change from action to action. -/
def Lived : Session → Prop := Reachable (attend E choices cacheChoices static) (fun _ _ => True) (First E choices)

end

section
variable {E : Encoding} {choices cacheChoices : Choices} {static : Identifier → Bool}

theorem lived_overlaid {x : Session} (lived : Lived E choices cacheChoices static x) : Overlaid E x := by
  refine reachable_keeps ?_ (fun y a overlaid _ => overlaid_act y a.action overlaid) lived
  rintro _ ⟨url,node,options,s,started,rfl⟩
  exact overlaid_begun started

/-! ### What a start does -/

/-- The node has no latest header, or no header for the height that a start would choose. -/
def Refuses (node : Node) (given : Nat) : Prop :=
  ∀ forkHeight, initialForkHeight node given = .ok forkHeight → ∃ e, node.getBlockHeaderByHeight forkHeight = .error e

variable (E choices) in
theorem initializeForkHeight_run {node : Node} {given forkHeight : Nat} {header : HeaderMessage}
    (chosen : initialForkHeight node given = .ok forkHeight)
    (known : node.getBlockHeaderByHeight forkHeight = .ok header) (s : Sqlite.Store) :
    initializeForkHeight E choices node given s = (.ok (forkHeight,header.id),forkedAt E forkHeight s) := by
  unfold initializeForkHeight
  rw [bind_run,attempt_run,chosen]
  dsimp only
  rw [bind_run,attempt_run,asked_ok.mpr known]
  rfl

variable (E choices) in
/-- A start that the node refuses writes nothing. -/
theorem initializeForkHeight_refused {node : Node} {given : Nat} (refuses : Refuses node given) (s : Sqlite.Store) :
    ∃ e, initializeForkHeight E choices node given s = (.error e,s) := by
  unfold initializeForkHeight
  rw [bind_run,attempt_run]
  cases chosen : initialForkHeight node given with
  | error e => exact ⟨e,rfl⟩
  | ok forkHeight =>
    obtain ⟨e,unknown⟩ := refuses forkHeight chosen
    dsimp only
    rw [bind_run,attempt_run,unknown]
    exact ⟨.remote e,rfl⟩

variable {s : Sqlite.Store} {latest : Option Nat} {node : Node} {given : Nat}

variable (choices node given) in
theorem initializeStartBlock_unforked (global : Global E s none latest) :
    initializeStartBlock E choices node given s = initializeForkHeight E choices node given s := by
  unfold initializeStartBlock
  rw [bind_ok (view_run _ s),global_forked global choices]
  rfl

variable (choices node given) in
/-- A stored height of 0 is taken as none. -/
theorem initializeStartBlock_zero (global : Global E s (some 0) latest) :
    initializeStartBlock E choices node given s = initializeForkHeight E choices node given s := by
  unfold initializeStartBlock
  rw [bind_ok (view_run _ s),global_forked global choices]
  rfl

variable (choices node given) in
/-- A stored height above 0 is taken again, and nothing is written. -/
theorem initializeStartBlock_stored {forkHeight : Nat} (positive : 0 < forkHeight)
    (global : Global E s (some forkHeight) latest) :
    initializeStartBlock E choices node given s =
      ((asked (node.getBlockHeaderByHeight forkHeight)).map fun header => (forkHeight,header.id),s) := by
  unfold initializeStartBlock
  rw [bind_ok (view_run _ s),global_forked global choices]
  change (if 0 < forkHeight then _ else _ : StoreM Sqlite.Store (Nat × Identifier)) s = _
  rw [if_pos positive,bind_run,attempt_run]
  cases node.getBlockHeaderByHeight forkHeight <;> rfl

/-! ### The first start -/

/-- Ten blocks before the latest is at most the latest exactly when there are ten. -/
theorem initialForkHeight_le_iff {header : HeaderMessage} (answered : node.getLatestBlockHeader = .ok header)
    (word : header.height < 2^64) :
    (∀ forkHeight, initialForkHeight node 0 = .ok forkHeight → forkHeight ≤ header.height) ↔
      blockBuffer ≤ header.height := by
  have chosen : initialForkHeight node 0 = .ok ((header.height+2^64-blockBuffer) % 2^64) := by
    simp [initialForkHeight,answered,asked,Except.map]
  rw [chosen]
  simp only [Except.ok.injEq,forall_eq',blockBuffer]
  omega

/-! ### Later starts -/

/-- A start takes the fork height that is stored, and leaves it and the latest height as they are. -/
structure Stable (E : Encoding) (choices : Choices) (node : Node) (given : Nat) (s : Sqlite.Store) : Prop where
  taken : ∀ forkHeight id after, initializeStartBlock E choices node given s = (.ok (forkHeight,id),after) →
    forkedBlockHeight E (Sqlite.dataStore choices) s = .ok forkHeight
  forkHeight : forkedBlockHeight E (Sqlite.dataStore choices) (initializeStartBlock E choices node given s).2 =
    forkedBlockHeight E (Sqlite.dataStore choices) s
  latest : latestBlockHeight E (Sqlite.dataStore choices) (initializeStartBlock E choices node given s).2 =
    latestBlockHeight E (Sqlite.dataStore choices) s

theorem stable_unwritten (unwritten : (initializeStartBlock E choices node given s).2 = s)
    (taken : ∀ forkHeight id after, initializeStartBlock E choices node given s = (.ok (forkHeight,id),after) →
      forkedBlockHeight E (Sqlite.dataStore choices) s = .ok forkHeight) : Stable E choices node given s :=
  ⟨taken,by rw [unwritten],by rw [unwritten]⟩

theorem stable_stored {forkHeight : Nat} (positive : 0 < forkHeight) (global : Global E s (some forkHeight) latest) :
    Stable E choices node given s := by
  have run := initializeStartBlock_stored choices node given positive global
  refine stable_unwritten (by rw [run]) (fun other id after ok => ?_)
  rw [run] at ok
  rw [global_forked global choices]
  cases known : asked (node.getBlockHeaderByHeight forkHeight) with
  | error e => rw [known] at ok; cases ok
  | ok header => rw [known] at ok; cases ok; rfl

theorem stable_refused (refuses : Refuses node given) (global : Global E s (some 0) latest) :
    Stable E choices node given s := by
  obtain ⟨e,run⟩ := initializeForkHeight_refused E choices refuses s
  rw [← initializeStartBlock_zero choices node given global] at run
  refine stable_unwritten (by rw [run]) (fun other id after ok => ?_)
  rw [run] at ok
  cases ok

/-- What a node that does not refuse a start says. -/
theorem not_refuses (accepts : ¬Refuses node given) :
    ∃ forkHeight header, initialForkHeight node given = .ok forkHeight ∧ node.getBlockHeaderByHeight forkHeight = .ok header := by
  unfold Refuses at accepts
  push Not at accepts
  obtain ⟨forkHeight,chosen,known⟩ := accepts
  cases answer : node.getBlockHeaderByHeight forkHeight with
  | error e => exact absurd answer (known e)
  | ok header => exact ⟨forkHeight,header,chosen,answer⟩

/-- A start over a stored height of 0 is stable when it writes nothing, or writes the zeros that are there. -/
theorem stable_zero_iff {latest : Nat} (global : Global E s (some 0) (some latest)) :
    Stable E choices node given s ↔ Refuses node given ∨ (initialForkHeight node given = .ok 0 ∧ latest = 0) := by
  by_cases refuses : Refuses node given
  · exact iff_of_true (stable_refused refuses global) (.inl refuses)
  obtain ⟨forkHeight,header,chosen,known⟩ := not_refuses refuses
  have run := initializeForkHeight_run E choices chosen known s
  rw [← initializeStartBlock_zero choices node given global] at run
  have written := forkedAt_global global forkHeight
  have forked := global_forked global choices
  have tip := Sqlite.tip_latestBlockHeight (global_tip global) choices
  constructor
  · intro stable
    have first := stable.taken _ _ _ run
    have second := stable.latest
    rw [run,Sqlite.tip_latestBlockHeight (global_tip written) choices,tip] at second
    rw [forked] at first
    cases first
    cases second
    exact .inr ⟨chosen,rfl⟩
  · rintro (refused | ⟨zero,rfl⟩)
    · exact absurd refused refuses
    · rw [chosen] at zero
      cases zero
      refine ⟨fun other id after ok => ?_,?_,?_⟩
      · rw [run] at ok
        cases ok
        exact forked
      · rw [run,global_forked written choices,forked]
      · rw [run,Sqlite.tip_latestBlockHeight (global_tip written) choices,tip]

theorem stable_iff {forkHeight latest : Nat} (global : Global E s (some forkHeight) (some latest)) :
    Stable E choices node given s ↔
      0 < forkHeight ∨ Refuses node given ∨ (initialForkHeight node given = .ok 0 ∧ latest = 0) := by
  rcases Nat.eq_zero_or_pos forkHeight with rfl | positive
  · rw [stable_zero_iff global]
    simp
  · exact iff_of_true (stable_stored positive global) (.inl positive)

/-- A start on an overlay without a fork height stores the one that it chooses. -/
theorem initializeStartBlock_chosen (global : Global E s none latest) {forkHeight : Nat} {id : Identifier}
    {after : Sqlite.Store} (run : initializeStartBlock E choices node given s = (.ok (forkHeight,id),after)) :
    initialForkHeight node given = .ok forkHeight ∧ Global E after (some forkHeight) (some forkHeight) := by
  rw [initializeStartBlock_unforked choices node given global] at run
  obtain ⟨⟨rfl,chosen⟩,_⟩ := initializeForkHeight_ok run
  exact ⟨chosen,forkedAt_global global forkHeight⟩

variable (E choices cacheChoices static) in
/-- The height a first start chooses is at most the latest height of the node exactly when that is not below the
    buffer, and a later start keeps the fork height and the latest local height when the fork height is not 0. Over a
    fork height of 0 only a start that fails, or that finds and writes zeros, keeps them. -/
theorem start_sound_and_stable_iff :
    (∀ node header, node.getLatestBlockHeader = .ok header → header.height < 2^64 →
      ((∀ forkHeight, initialForkHeight node 0 = .ok forkHeight → forkHeight ≤ header.height) ↔
        blockBuffer ≤ header.height) ∧
      ∀ s latest forkHeight id after, Global E s none latest →
        initializeStartBlock E choices node 0 s = (.ok (forkHeight,id),after) →
          initialForkHeight node 0 = .ok forkHeight ∧ Global E after (some forkHeight) (some forkHeight)) ∧
    ∀ x, Lived E choices cacheChoices static x → x.store.overlay.url ≠ .inMemory →
      forkedBlockHeight E (Sqlite.dataStore choices) (Sqlite.reopen x.store.overlay) = .ok x.store.forkHeight ∧
      ∀ node given, Stable E choices node given (Sqlite.reopen x.store.overlay) ↔
        0 < x.store.forkHeight ∨ Refuses node given ∨ (initialForkHeight node given = .ok 0 ∧
          latestBlockHeight E (Sqlite.dataStore choices) (Sqlite.reopen x.store.overlay) = .ok 0) := by
  constructor
  · intro node header answered word
    refine ⟨initialForkHeight_le_iff answered word,?_⟩
    intro s latest forkHeight id after global run
    exact initializeStartBlock_chosen global run
  · intro x lived lasting
    obtain ⟨latest,global⟩ := reopened_global (lived_overlaid lived) lasting
    refine ⟨global_forked global choices,?_⟩
    intro node given
    rw [stable_iff global,Sqlite.tip_latestBlockHeight (global_tip global) choices]
    simp only [found,Except.ok.injEq]

end

/-! ### A chain that is shorter than the buffer, and one that is as long -/

/-- A node whose latest block has a height. -/
def nodeAt (height : Nat) : Node :=
  { sampleNode with
    getLatestBlockHeader := .ok ⟨Samples.digest height,.emulator,height,height,zeroID,1,[]⟩ }

/-- No fork height is given. -/
def automatic : Options := ⟨none,0,false⟩

theorem nodeAt_chosen (height : Nat) : initialForkHeight (nodeAt height) 0 = .ok ((height+2^64-blockBuffer) % 2^64) := rfl

/-- A fork on disk of the chain that the node has. -/
theorem nodeAt_started (height : Nat) : ∃ s,
    First Samples.encoding .earliest (begun s) ∧ s.forkHeight = (height+2^64-blockBuffer) % 2^64 ∧
      s.overlay = forkedAt Samples.encoding s.forkHeight (Sqlite.fresh .directory) :=
  ⟨_,⟨.directory,nodeAt height,automatic,_,rfl,rfl⟩,rfl,rfl⟩

/-- A fork at height 0 with one local block. -/
theorem zero_lived : ∃ x,
    Lived Samples.encoding .earliest .earliest (fun _ => false) x ∧ x.blocks = [Samples.emptyContents 1] ∧
      x.store.overlay.url = .directory ∧ Global Samples.encoding (Sqlite.reopen x.store.overlay) (some 0) (some 1) := by
  obtain ⟨s,first,forkHeight,overlay⟩ := nodeAt_started 10
  have zero : s.forkHeight = 0 := forkHeight
  rw [zero] at overlay
  have global : Global Samples.encoding s.overlay (some 0) (some 0) := by
    rw [overlay]
    exact forkedAt_global (global_fresh _ _) 0
  have counted : (Samples.emptyContents 1).Counted := ⟨rfl,rfl⟩
  have tip : Sqlite.Tip Samples.encoding (begun s).store.overlay (some 0) := global_tip global
  obtain ⟨after,wrote,done⟩ := commit_counted .earliest (fun _ => false) tip counted
  have table := Sqlite.wrote_global (writesTo_saveWrites Samples.encoding _ _ (Samples.emptyContents 1) .global) wrote
  rw [if_pos (by decide)] at table
  have lived : Lived Samples.encoding .earliest .earliest (fun _ => false)
      (attend Samples.encoding .earliest .earliest (fun _ => false)
        ⟨nodeAt 10,automatic,.commit (Samples.emptyContents 1)⟩ (begun s)) :=
    reachable_step (reachable_initial first) trivial
  simp only [attend,act,done] at lived
  have url : after.url = .directory := wrote.url.trans (congrArg Sqlite.Store.url overlay)
  have main : after.db = .main := wrote.db.trans (congrArg Sqlite.Store.db overlay)
  refine ⟨_,lived,rfl,url,?_⟩
  refine global_of_table (global_upsert global table) ?_
  rw [Sqlite.reopen_database main (by rw [url]; decide)]

/-- On a chain of height 5 the fork height wraps around. A fork of a chain of height 10 has the fork height 0, and when
    it is started again on a chain of height 100 after a local block, it moves to height 90 with its latest height. -/
theorem start_wraps_and_moves :
    (∃ id after, initializeStartBlock Samples.encoding .earliest (nodeAt 5) 0 (Sqlite.fresh .directory) =
      (.ok (2^64-5,id),after)) ∧
    ∃ x, Lived Samples.encoding .earliest .earliest (fun _ => false) x ∧ x.blocks = [Samples.emptyContents 1] ∧
      forkedBlockHeight Samples.encoding (Sqlite.dataStore .earliest) (Sqlite.reopen x.store.overlay) = .ok 0 ∧
      latestBlockHeight Samples.encoding (Sqlite.dataStore .earliest) (Sqlite.reopen x.store.overlay) = .ok 1 ∧
      ∃ id after, initializeStartBlock Samples.encoding .earliest (nodeAt 100) 0 (Sqlite.reopen x.store.overlay) =
          (.ok (90,id),after) ∧
        forkedBlockHeight Samples.encoding (Sqlite.dataStore .earliest) after = .ok 90 ∧
        latestBlockHeight Samples.encoding (Sqlite.dataStore .earliest) after = .ok 90 := by
  constructor
  · rw [initializeStartBlock_unforked .earliest (nodeAt 5) 0 (global_fresh _ _)]
    exact ⟨_,_,initializeForkHeight_run _ _ (nodeAt_chosen 5) rfl _⟩
  · obtain ⟨x,lived,blocks,_,global⟩ := zero_lived
    have moved := forkedAt_global global 90
    refine ⟨x,lived,blocks,global_forked global .earliest,Sqlite.tip_latestBlockHeight (global_tip global) .earliest,
      Samples.digest 90,_,?_,global_forked moved .earliest,Sqlite.tip_latestBlockHeight (global_tip moved) .earliest⟩
    rw [initializeStartBlock_zero .earliest (nodeAt 100) 0 global]
    exact initializeForkHeight_run _ _ (nodeAt_chosen 100) rfl _

/-- On a chain of height 100 the fork height is 90, and it stays when the chain has grown to height 500. -/
theorem start_sound_and_stable_hundred :
    (∀ forkHeight, initialForkHeight (nodeAt 100) 0 = .ok forkHeight → forkHeight ≤ 100) ∧
    ∃ x, Lived Samples.encoding .earliest .earliest (fun _ => false) x ∧ x.store.forkHeight = 90 ∧
      Stable Samples.encoding .earliest (nodeAt 500) 0 (Sqlite.reopen x.store.overlay) := by
  obtain ⟨sound,stable⟩ := start_sound_and_stable_iff Samples.encoding .earliest .earliest (fun _ => false)
  obtain ⟨s,first,forkHeight,overlay⟩ := nodeAt_started 100
  have ninety : s.forkHeight = 90 := forkHeight
  refine ⟨(sound (nodeAt 100) _ rfl (by decide)).1.mpr (by decide),begun s,reachable_initial first,ninety,?_⟩
  have lasting : s.overlay.url ≠ .inMemory := by
    rw [overlay]
    exact fun memory => by cases memory
  refine ((stable (begun s) (reachable_initial first) lasting).2 (nodeAt 500) 0).mpr (.inl ?_)
  show 0 < s.forkHeight
  rw [ninety]
  decide

end FlowEmulator.Remote
