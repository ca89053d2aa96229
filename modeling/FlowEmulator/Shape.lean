import FlowEmulator.Held

/-!
The shape of the blocks the emulator produces. Blocks, collections, user
transactions and scheduled transactions occur once, and a system transaction
that recurs has the same body. For a chain of this shape, writes to one key and
version agree in their value (`shaped_agreeing`), so rows that tie in a table
cannot be told apart.
-/
namespace FlowEmulator
open FlowEmulator.Text FlowEmulator.Keys FlowEmulator.VersionedTable FlowEmulator.DefaultStore

/-- Blocks as the emulator produces them, given the system transactions that are static. -/
structure Shaped (E : Encoding) (static : Identifier → Bool) (cs : List BlockContents) : Prop where
  blocks : (cs.map fun c => E.blockID c.block).Nodup
  collections : (cs.flatMap fun c => c.collections.map E.collectionID).Nodup
  transactions : (cs.flatMap fun c => c.transactions.keys).Nodup
  results : ∀ c ∈ cs, ∀ id ∈ c.transactionResults.keys, id ∈ c.transactions.keys
  scheduled : (cs.flatMap fun c => c.scheduledTransactionIDs.keys).Nodup
  nonstatic : (cs.flatMap fun c => c.systemTransactionResults.keys.filter (fun id => !static id)).Nodup
  bodies : ∀ c ∈ cs, ∀ d ∈ cs, ∀ entry ∈ c.systemTransactionBodies.entries,
    ∀ other ∈ d.systemTransactionBodies.entries ++ d.transactions.entries, entry.1 = other.1 → entry = other

/-- Blocks of a chain with one height are one block. -/
theorem chain_height_inj {first : Nat} {cs : List BlockContents} (chain : Chain first cs) {c d : BlockContents}
    (here : c ∈ cs) (there : d ∈ cs) (same : c.block.height = d.block.height) : c = d := by
  obtain ⟨i,atI⟩ := List.mem_iff_getElem?.mp here
  obtain ⟨j,atJ⟩ := List.mem_iff_getElem?.mp there
  have left := (chain_getElem chain atI).1
  have right := (chain_getElem chain atJ).1
  have indices : i = j := by omega
  rw [indices,atJ] at atI
  exact (Option.some.inj atI).symm

/-- Blocks of ascending heights are told apart by their heights. -/
theorem ascending_height_inj {cs : List BlockContents} (ascending : cs.Pairwise fun c d => c.block.height < d.block.height)
    {c d : BlockContents} (here : c ∈ cs) (there : d ∈ cs) (same : c.block.height = d.block.height) : c = d := by
  by_contra different
  have _ : Std.Symm fun c d : BlockContents => c.block.height ≠ d.block.height := ⟨fun _ _ => Ne.symm⟩
  exact (ascending.imp Nat.ne_of_lt).forall here there different same

/-- What occurs in one block only determines its block. -/
theorem once {α : Type} {f : BlockContents → List α} {cs : List BlockContents} (distinct : (cs.flatMap f).Nodup)
    {c d : BlockContents} (here : c ∈ cs) (there : d ∈ cs) {a : α} (left : a ∈ f c) (right : a ∈ f d) : c = d := by
  by_contra different
  have apart := (List.nodup_flatMap.mp distinct).2
  have _ : Std.Symm (Function.onFun List.Disjoint f) := ⟨fun _ _ separate => List.Disjoint.symm separate⟩
  have disjoint : List.Disjoint (f c) (f d) := apart.forall here there different
  exact disjoint left right

theorem entry_unique {K V : Type} {map : GoMap K V} {entry other : Sigma fun _ : K => V} (left : entry ∈ map.entries)
    (right : other ∈ map.entries) (same : entry.1 = other.1) : entry = other := by
  cases entry; cases other
  cases same
  rw [map.nodupKeys.eq_of_mk_mem left right]

section
variable {E : Encoding} {static : Identifier → Bool} {cs : List BlockContents}

private theorem blocks_inj (shaped : Shaped E static cs) {c d : BlockContents} (here : c ∈ cs) (there : d ∈ cs)
    (same : E.blockID c.block = E.blockID d.block) : c = d :=
  List.inj_on_of_nodup_map shaped.blocks here there same

private theorem agreeing_collections (shaped : Shaped E static cs) : Agreeing (collectionWrites E) cs := by
  intro c here w left d there v right sameKey _
  obtain ⟨col,colMember,rfl⟩ := List.mem_map.mp left
  obtain ⟨other,otherMember,rfl⟩ := List.mem_map.mp right
  have sameID : E.collectionID col = E.collectionID other := identifier_injective sameKey
  have inside : E.collectionID col ∈ d.collections.map E.collectionID := sameID ▸ List.mem_map_of_mem otherMember
  obtain rfl := once shaped.collections here there (List.mem_map_of_mem colMember) inside
  have distinct := (List.nodup_flatMap.mp shaped.collections).1 c here
  rw [List.inj_on_of_nodup_map distinct colMember otherMember sameID]

private theorem agreeing_transactions (shaped : Shaped E static cs) :
    Agreeing (fun c => transactionWrites E c.transactions ++ transactionWrites E c.systemTransactionBodies) cs := by
  have entries {c d : BlockContents} (here : c ∈ cs) (there : d ∈ cs) {entry other : Sigma fun _ : Identifier => TransactionBody}
      (left : entry ∈ c.transactions.entries ++ c.systemTransactionBodies.entries)
      (right : other ∈ d.transactions.entries ++ d.systemTransactionBodies.entries) (same : entry.1 = other.1) :
      entry = other := by
    rcases List.mem_append.mp left with user | system
    · rcases List.mem_append.mp right with otherUser | otherSystem
      · have inside : entry.1 ∈ d.transactions.keys := same ▸ List.mem_keys_of_mem otherUser
        obtain rfl := once shaped.transactions here there (List.mem_keys_of_mem user) inside
        exact entry_unique user otherUser same
      · exact (shaped.bodies d there c here other otherSystem entry (List.mem_append_right _ user) same.symm).symm
    · exact shaped.bodies c here d there entry system other (List.mem_append.mpr (List.mem_append.mp right).symm) same
  intro c here w left d there v right sameKey _
  simp only [transactionWrites,← List.map_append,List.mem_map] at left right
  obtain ⟨entry,member,rfl⟩ := left
  obtain ⟨other,otherMember,rfl⟩ := right
  rw [entries here there member otherMember (identifier_injective sameKey)]

private theorem agreeing_results (shaped : Shaped E static cs) :
    Agreeing (fun c => resultWrites E c ++ systemResultWrites E c) cs := by
  intro c here w left d there v right sameKey _
  rcases List.mem_append.mp left with user | system
  · obtain ⟨entry,member,rfl⟩ := List.mem_map.mp user
    rcases List.mem_append.mp right with otherUser | otherSystem
    · obtain ⟨other,otherMember,rfl⟩ := List.mem_map.mp otherUser
      have same : entry.1 = other.1 := identifier_injective sameKey
      have inside : entry.1 ∈ d.transactions.keys :=
        same ▸ shaped.results d there other.1 (List.mem_keys_of_mem otherMember)
      obtain rfl := once shaped.transactions here there (shaped.results c here entry.1 (List.mem_keys_of_mem member)) inside
      rw [entry_unique member otherMember same]
    · obtain ⟨other,_,rfl⟩ := List.mem_map.mp otherSystem
      exact absurd sameKey (identifier_ne_systemTransactionResult entry.1 (E.blockID d.block) other.1)
  · obtain ⟨entry,member,rfl⟩ := List.mem_map.mp system
    rcases List.mem_append.mp right with otherUser | otherSystem
    · obtain ⟨other,_,rfl⟩ := List.mem_map.mp otherUser
      exact absurd sameKey.symm (identifier_ne_systemTransactionResult other.1 (E.blockID c.block) entry.1)
    · obtain ⟨other,otherMember,rfl⟩ := List.mem_map.mp otherSystem
      obtain ⟨block,same⟩ := systemTransactionResult_injective sameKey
      obtain rfl := blocks_inj shaped here there block
      rw [entry_unique member otherMember same]

private theorem agreeing_scheduledIndex (shaped : Shaped E static cs) : Agreeing (scheduledIndexWrites E) cs := by
  intro c here w left d there v right sameKey _
  obtain ⟨entry,member,rfl⟩ := List.mem_map.mp left
  obtain ⟨other,otherMember,rfl⟩ := List.mem_map.mp right
  have same : entry.1 = other.1 := scheduledTransactionID_injective sameKey
  have inside : entry.1 ∈ d.scheduledTransactionIDs.keys := same ▸ List.mem_keys_of_mem otherMember
  obtain rfl := once shaped.scheduled here there (List.mem_keys_of_mem member) inside
  rfl

private theorem nonstatic_mem {c : BlockContents} {entry : Sigma fun _ : Identifier => StorableTransactionResult}
    (member : entry ∈ c.systemTransactionResults.entries.filter (fun entry => !static entry.1)) :
    entry.1 ∈ c.systemTransactionResults.keys.filter (fun id => !static id) := by
  obtain ⟨inside,dynamic⟩ := List.mem_filter.mp member
  exact List.mem_filter.mpr ⟨List.mem_keys_of_mem inside,dynamic⟩

private theorem agreeing_scheduledBlockIndex (shaped : Shaped E static cs) :
    Agreeing (scheduledBlockIndexWrites E static) cs := by
  intro c here w left d there v right sameKey _
  obtain ⟨entry,member,rfl⟩ := List.mem_map.mp left
  obtain ⟨other,otherMember,rfl⟩ := List.mem_map.mp right
  have same : entry.1 = other.1 := identifier_injective sameKey
  obtain rfl := once shaped.nonstatic here there (nonstatic_mem member) (same ▸ nonstatic_mem otherMember)
  rfl

/-- Blocks of different heights write to different versions of the ledger. -/
theorem agreeing_ledger (heights : ∀ c ∈ cs, ∀ d ∈ cs, c.block.height = d.block.height → c = d) :
    Agreeing (ledgerWrites E) cs := by
  intro c here w left d there v right sameKey sameVersion
  obtain ⟨entry,member,rfl⟩ := List.mem_map.mp left
  obtain ⟨other,otherMember,rfl⟩ := List.mem_map.mp right
  obtain rfl := heights c here d there sameVersion
  have same : entry.1 = other.1 := E.registerText_injective sameKey
  rw [entry_unique member otherMember same]

private theorem agreeing_systemWrites (shaped : Shaped E static cs) : Agreeing (systemWrites E) cs := by
  have key {c : BlockContents} {w : Write} (member : w ∈ systemWrites E c) : w = .plain .systemTransactions
      (identifier (E.blockID c.block))
      (E.systemTransactions.encode ⟨E.blockID c.block,c.systemTransactions,c.scheduledTransactionIDs⟩) := by
    unfold systemWrites at member
    split at member
    · exact List.mem_singleton.mp member
    · cases member
  intro c here w left d there v right sameKey _
  rw [key left,key right] at sameKey
  obtain rfl := blocks_inj shaped here there (identifier_injective sameKey)
  rw [key left,key right]

private theorem agreeing_height {first : Nat} (chain : Chain first cs) (name : StoreName) (value : BlockContents → Bytes) :
    Agreeing (fun c => [.plain name (blockHeight c.block.height) (value c)]) cs := by
  intro c here w left d there v right sameKey _
  rw [List.mem_singleton.mp left,List.mem_singleton.mp right] at sameKey ⊢
  rw [chain_height_inj chain here there (blockHeight_injective sameKey)]

private theorem agreeing_blockIndex (shaped : Shaped E static cs) (value : BlockContents → Bytes) :
    Agreeing (fun c => [.plain .blockIndex (identifier (E.blockID c.block)) (value c)]) cs := by
  intro c here w left d there v right sameKey _
  rw [List.mem_singleton.mp left,List.mem_singleton.mp right] at sameKey ⊢
  rw [blocks_inj shaped here there (identifier_injective sameKey)]

/-- In a chain of the shape, writes to one key and version of a table agree. -/
theorem shaped_agreeing {first : Nat} (shaped : Shaped E static cs) (chain : Chain first cs) {name : StoreName}
    (proper : name ≠ .global) : Agreeing (fun c => savedTo E static 0 c name) cs := by
  cases name with
  | global => exact absurd rfl proper
  | blockIndex => exact agreeing_blockIndex shaped _
  | blocks => exact agreeing_height chain .blocks _
  | systemTransactions => exact agreeing_systemWrites shaped
  | collections => exact agreeing_collections shaped
  | transactions => exact agreeing_transactions shaped
  | transactionResults => exact agreeing_results shaped
  | events => exact agreeing_height chain .events _
  | ledger => exact agreeing_ledger (fun _ here _ there => chain_height_inj chain here there)
  | scheduledTransactionIndex => exact agreeing_scheduledIndex shaped
  | scheduledTransactionBlockIndex => exact agreeing_scheduledBlockIndex shaped

theorem shaped_agreeing_commit {first : Nat} (shaped : Shaped E static cs) (chain : Chain first cs) {name : StoreName}
    (proper : name ≠ .global) : Agreeing (fun c => committedTo E 0 c name) cs := by
  have saved := shaped_agreeing shaped chain proper
  cases name with
  | scheduledTransactionIndex => intro c here w left; cases left
  | scheduledTransactionBlockIndex => intro c here w left; cases left
  | _ => exact saved

end

namespace Sqlite

theorem cells_coherent {table : Table Bytes Bytes} {cells : Bytes → Option Bytes} (holds : Cells table cells) :
    Coherent table := by
  intro row left other right sameKey sameVersion
  have sameSlot : row.slot = other.slot := by
    simp only [Row.slot,sameKey,sameVersion,(holds.flat row left).2,(holds.flat other right).2]
  rw [List.inj_on_of_nodup_map table.unique left right sameSlot]

/-- What the blocks of a chain that begins at a height write to a register, by height. -/
def writesFrom (first : Nat) (cs : List BlockContents) (r : RegisterID) (height : Nat) : Option RegisterValue :=
  if height < first then none else writesAt cs r (height-first)

theorem writesFrom_zero (cs : List BlockContents) (r : RegisterID) : writesFrom 0 cs r = writesAt cs r := by
  funext height
  simp [writesFrom]

/-- A block of the chain is where its height says. -/
theorem writesFrom_some {first : Nat} {cs : List BlockContents} (chain : Chain first cs) {r : RegisterID} {height : Nat}
    {value : RegisterValue} : writesFrom first cs r height = some value ↔
      ∃ c ∈ cs, c.block.height = height ∧ c.executionSnapshot.lookup r = some value := by
  unfold writesFrom writesAt
  constructor
  · intro found
    by_cases low : height < first
    · simp [low] at found
    · rw [if_neg low] at found
      obtain ⟨c,here,lookup⟩ := Option.bind_eq_some_iff.mp found
      have place := (chain_getElem chain here).1
      exact ⟨c,List.mem_of_getElem? here,by omega,lookup⟩
  · rintro ⟨c,here,rfl,lookup⟩
    obtain ⟨i,position⟩ := List.mem_iff_getElem?.mp here
    have place := (chain_getElem chain position).1
    have index : c.block.height-first = i := by omega
    rw [if_neg (by omega),index,position]
    exact lookup

/-- The ledger's table has the last write up to a height. -/
theorem held_lastWrite {E : Encoding} {first : Nat} {cs : List BlockContents} {choices : Choices} {s : Store}
    (held : Held (ledgerWrites E) cs (s.database .ledger)) (chain : Chain first cs) (height : Nat) (r : RegisterID) :
    selectAtVersion choices .ledger (E.registerText r) height s = found (lastWrite (writesFrom first cs r) height) := by
  have origin {c : BlockContents} (here : c ∈ cs) {w : Write} (written : w ∈ ledgerWrites E c)
      (same : w.key = E.registerText r) : ∃ value, writesFrom first cs r w.version = some value := by
    obtain ⟨entry,member,rfl⟩ := List.mem_map.mp written
    obtain rfl : entry.1 = r := E.registerText_injective same
    exact ⟨entry.2,(writesFrom_some chain).mpr ⟨c,here,rfl,AList.mem_lookup_iff.mpr member⟩⟩
  cases last : lastWrite (writesFrom first cs r) height with
  | none =>
    refine held_unwritten held (fun c here w written same => ?_)
    obtain ⟨value,found⟩ := origin here written same
    by_contra low
    rw [lastWrite_none.mp last w.version (by omega)] at found
    cases found
  | some value =>
    obtain ⟨m,low,found,quiet⟩ := lastWrite_some.mp last
    obtain ⟨c,here,rfl,lookup⟩ := (writesFrom_some chain).mp found
    have written : Write.versioned .ledger (E.registerText r) value c.block.height ∈ ledgerWrites E c :=
      List.mem_map.mpr ⟨_,AList.mem_lookup_iff.mp lookup,rfl⟩
    refine held_written held (agreeing_ledger fun _ here _ there => chain_height_inj chain here there) here written low
      (fun d there v vWritten same vLow => ?_)
    obtain ⟨other,otherFound⟩ := origin there vWritten same
    show v.version ≤ c.block.height
    by_contra high
    rw [quiet v.version (by omega) vLow] at otherFound
    cases otherFound

/-- The ledger reads the last write up to a height. -/
theorem held_ledger {E : Encoding} {cs : List BlockContents} {choices : Choices} {s : Store}
    (held : Held (ledgerWrites E) cs (s.database .ledger)) (chain : Chain 0 cs) (height : Nat) (r : RegisterID) :
    ledgerByHeight E (dataStore choices) height r s = .ok ((lastWrite (writesAt cs r) height).getD []) := by
  have read : (dataStore choices).getBytesAtVersion .ledger (E.registerText r) height s = _ :=
    held_lastWrite held chain height r
  rw [ledgerByHeight,read,writesFrom_zero]
  cases lastWrite (writesAt cs r) height <;> rfl

end Sqlite
end FlowEmulator
