import FlowEmulator.LinkedChain

/-!
The blocks as the virtual machine and the validator of transactions see them. An
ancestor of a block is looked up by its height, as the chain has no forks. In
every run this is the block that is found by following the identifiers of the
parents, from any block of the chain and from the pending block.
-/
namespace FlowEmulator.LinkedChain
open FlowEmulator.Blockchain
open FlowEmulator.Sqlite (Choices)

/-- The block some number of generations back, by following parents. -/
def ancestor {β : Type} (parent : β → Option β) : Nat → β → Option β
  | 0, block => some block
  | n+1, block => (parent block).bind (ancestor parent n)

section
variable {σ : Type} (B : Backend σ)

/-- A block that is not found is no error. -/
def headerByID (id : Identifier) (b : Blockchain σ) : Except StoreError (Option Block) :=
  match B.blockByID id b.storage with
  | .ok block => .ok (some block)
  | .error .notFound => .ok none
  | .error e => .error e

def finalizedHeader (b : Blockchain σ) : Except StoreError Block := B.latestBlock b.storage
def sealedHeader (b : Blockchain σ) : Except StoreError Block := B.latestBlock b.storage
def indexedHeight (b : Blockchain σ) : Except StoreError Nat := (B.latestBlock b.storage).map Block.height

def byHeightFrom (height : Nat) (header : Block) (b : Blockchain σ) : Except StoreError Block :=
  if header.height < height then .error .notFound else B.blockByHeight height b.storage

/-- The block whose identifier a block has as that of its parent. -/
def parentOf (b : Blockchain σ) (header : Block) : Option Block :=
  match headerByID B header.parentID b with
  | .ok found => found
  | .error _ => none

/-- At a height below a header, and at its own height if it is stored, its ancestor is found. -/
def FindsAncestor (height : Nat) (header : Block) (b : Blockchain σ) : Prop :=
  ∃ block, byHeightFrom B height header b = .ok block ∧ block.height = height ∧
    ancestor (parentOf B b) (header.height-height) header = some block

/-- What is asked of the blocks is answered along the chain. The pending block is
    not stored, so that it is not found at its own height. -/
structure AnswersAlongChain (E : Encoding) (b : Blockchain σ) : Prop where
  stored : ∀ header, headerByID B (E.blockID header) b = .ok (some header) → ∀ height ≤ header.height,
    FindsAncestor B height header b
  pending : ∀ height < b.pendingBlock.height, FindsAncestor B height (b.pendingBlock.block E) b
  own : byHeightFrom B b.pendingBlock.height (b.pendingBlock.block E) b = .error .notFound
  above : ∀ header height, header.height < height → byHeightFrom B height header b = .error .notFound
  tip : ∃ latest, finalizedHeader B b = .ok latest ∧ sealedHeader B b = .ok latest ∧
    indexedHeight B b = .ok (b.pendingBlock.height-1) ∧ parentOf B b (b.pendingBlock.block E) = some latest

end

section
variable {E : Encoding} (choices : Choices) {cs : List BlockContents} {latest : Nat} {b : Blockchain Sqlite.Store}
  (grounded : Grounded E cs latest b)
  (distinct : ∀ c ∈ cs, ∀ d ∈ cs, E.blockID c.block = E.blockID d.block → c.block = d.block)
include grounded distinct

/-- A block of the chain is found as the parent of what has its identifier. -/
theorem grounded_parentOf {c : BlockContents} (here : c ∈ cs) {header : Block} (parent : header.parentID = E.blockID c.block) :
    parentOf (Sqlite.backend E choices) b header = some c.block := by
  have read : (Sqlite.backend E choices).blockByID header.parentID b.storage = .ok c.block := by
    rw [parent]
    exact Sqlite.recorded_blockByID choices grounded.recorded distinct here
  rw [parentOf,headerByID,read]

/-- Above the first one, each block of the chain has its parent one below. -/
theorem grounded_parent {c : BlockContents} (here : c ∈ cs) (height : Nat) (above : c.block.height = height+1) :
    ∃ d ∈ cs, d.block.height = height ∧ parentOf (Sqlite.backend E choices) b c.block = some d.block := by
  have range := Sqlite.recorded_range grounded.recorded here
  obtain ⟨d,there,below⟩ := Sqlite.recorded_at grounded.recorded (Nat.zero_le height) (by omega)
  have first : (Sqlite.backend E choices).blockByHeight d.block.height b.storage = .ok d.block :=
    Sqlite.recorded_blockByHeight choices grounded.recorded there
  have second : (Sqlite.backend E choices).blockByHeight c.block.height b.storage = .ok c.block :=
    Sqlite.recorded_blockByHeight choices grounded.recorded here
  rw [below] at first
  rw [above] at second
  have follows : Follows E d.block c.block := recorded_linked grounded.recorded grounded.linked first second
  exact ⟨d,there,below,grounded_parentOf choices grounded distinct there follows.parentID⟩

/-- Following parents from a block of the chain leads down block by block. -/
theorem grounded_ancestor (n : Nat) {c : BlockContents} (here : c ∈ cs) (low : n ≤ c.block.height) :
    ∃ d ∈ cs, d.block.height = c.block.height-n ∧
      ancestor (parentOf (Sqlite.backend E choices) b) n c.block = some d.block := by
  induction n generalizing c with
  | zero => exact ⟨c,here,rfl,rfl⟩
  | succ n ih =>
    obtain ⟨d,there,below,parent⟩ := grounded_parent choices grounded distinct here (c.block.height-1) (by omega)
    obtain ⟨e,last,height,follow⟩ := ih there (by omega)
    refine ⟨e,last,by omega,?_⟩
    rw [ancestor,parent]
    exact follow

theorem grounded_finds {c : BlockContents} (here : c ∈ cs) (height : Nat) (low : height ≤ c.block.height) :
    FindsAncestor (Sqlite.backend E choices) height c.block b := by
  obtain ⟨d,there,place,follow⟩ := grounded_ancestor choices grounded distinct (c.block.height-height) here
    (Nat.sub_le ..)
  have same : d.block.height = height := by omega
  refine ⟨d.block,?_,same,follow⟩
  rw [byHeightFrom,if_neg (by omega),← same]
  exact Sqlite.recorded_blockByHeight choices grounded.recorded there

/-- The pending block is one generation above the latest block. -/
theorem grounded_finds_pending {height : Nat} (low : height < b.pendingBlock.height) :
    FindsAncestor (Sqlite.backend E choices) height (b.pendingBlock.block E) b := by
  obtain ⟨last,here,top,next⟩ := grounded.pending
  have above : b.pendingBlock.height = last.block.height+1 := next.height
  obtain ⟨block,found,place,follow⟩ := grounded_finds choices grounded distinct here height (by omega)
  have parent : parentOf (Sqlite.backend E choices) b (b.pendingBlock.block E) = some last.block :=
    grounded_parentOf choices grounded distinct here next.parentID
  refine ⟨block,?_,place,?_⟩
  · rw [byHeightFrom,if_neg (by omega)] at found
    have there : (b.pendingBlock.block E).height = b.pendingBlock.height := rfl
    rw [byHeightFrom,if_neg (by omega)]
    exact found
  · have generations : (b.pendingBlock.block E).height-height = last.block.height-height+1 := by
      show b.pendingBlock.height-height = _
      omega
    rw [generations,ancestor,parent]
    exact follow

theorem grounded_answers : AnswersAlongChain (Sqlite.backend E choices) E b := by
  obtain ⟨last,here,top,next⟩ := grounded.pending
  obtain ⟨tip,there,tipHeight,found⟩ := grounded_latestBlock choices grounded
  obtain rfl := chain_height_inj grounded.recorded.chain here there (top.trans tipHeight.symm)
  refine ⟨fun header known height low => ?_,fun height low => grounded_finds_pending choices grounded distinct low,?_,
    fun _ _ high => if_pos high,⟨last.block,found,found,?_,grounded_parentOf choices grounded distinct here next.parentID⟩⟩
  · -- a block that is found by its identifier is in the chain
    have some : ∃ c ∈ cs, E.blockID c.block = E.blockID header := by
      by_contra none
      have missing : (Sqlite.backend E choices).blockByID (E.blockID header) b.storage = .error .notFound :=
        Sqlite.recorded_noID choices grounded.recorded (fun c here same => none ⟨c,here,same⟩)
      rw [headerByID,missing] at known
      cases known
    obtain ⟨c,inside,same⟩ := some
    have read : (Sqlite.backend E choices).blockByID (E.blockID header) b.storage = .ok c.block := by
      rw [← same]
      exact Sqlite.recorded_blockByID choices grounded.recorded distinct inside
    rw [headerByID,read] at known
    cases known
    exact grounded_finds choices grounded distinct inside height low
  · have there : (b.pendingBlock.block E).height = b.pendingBlock.height := rfl
    rw [byHeightFrom,if_neg (by omega)]
    exact Sqlite.recorded_noBlock choices grounded.recorded (.inr (by rw [next.height,top]; omega))
  · rw [indexedHeight,found,next.height]
    rfl

end

/-- In every session, over all requests, rollbacks and restarts, the lookups by
    height find what following the parents finds. -/
theorem lookups_follow_parents {E : Encoding} {M : Machine} {config : Config} {choices : Choices} {x : Session}
    (reached : Reached E M config choices x)
    (collisionFree : ∀ left ∈ x.history, ∀ right ∈ x.history, E.blockID left = E.blockID right → left = right) :
    AnswersAlongChain (Sqlite.backend E choices) E x.emulator := by
  obtain ⟨cs,latest,grounded,known⟩ := reached_kept reached
  exact grounded_answers choices grounded (fun c here d there => collisionFree _ (known c here) _ (known d there))

open FlowEmulator.Samples in
/-- A block is found at height 0 from the pending block of a new emulator, one generation back. -/
theorem lookups_follow_parents_start : ∃ b block,
    byHeightFrom (Sqlite.backend heightEncoding .earliest) 0 (b.pendingBlock.block heightEncoding) b = .ok block ∧
    ancestor (parentOf (Sqlite.backend heightEncoding .earliest) b) 1 (b.pendingBlock.block heightEncoding) = some block := by
  obtain ⟨b,started,_,pending,cs,grounded⟩ := sample_started .inMemory
  obtain ⟨first,only,_⟩ := latestBlocks_grounded .earliest grounded
  have answers := lookups_follow_parents (x := begun heightEncoding .earliest b)
    ⟨.inMemory,tick,false,b,[],started,by simp,rfl⟩ (by
      show ∀ left ∈ latestBlocks heightEncoding .earliest b, ∀ right ∈ latestBlocks heightEncoding .earliest b, _
      rw [only]
      intro left leftHere right rightHere _
      rw [List.mem_singleton.mp leftHere,List.mem_singleton.mp rightHere])
  have height : b.pendingBlock.height = 1 := by rw [pending]; rfl
  obtain ⟨block,found,_,follow⟩ := answers.pending 0 (by rw [show (begun heightEncoding .earliest b).emulator = b from rfl]; omega)
  have one : (b.pendingBlock.block heightEncoding).height-0 = 1 := height
  rw [← one]
  exact ⟨b,block,found,follow⟩

end FlowEmulator.LinkedChain
