import FlowEmulator.Choice
import Mathlib.Data.List.Nodup

/-!
Tables whose rows carry a version and a height besides their key and value. A
row is written under its slot, the key with the version and the height; a read
asks for a row of greatest version up to a bound, and where several rows share
that version any of them may come back (`RowChoice`). A table can be cut back to
a height.
-/
namespace FlowEmulator.VersionedTable

structure Row (K V : Type) where
  key : K
  value : V
  version : Nat
  height : Nat
deriving DecidableEq

/-- The columns that no two rows of a table share. -/
def Row.slot {K V : Type} (row : Row K V) : K × Nat × Nat := (row.key,row.version,row.height)

/-- Rows of which no two have the same slot. -/
structure Table (K V : Type) where
  rows : List (Row K V)
  unique : (rows.map Row.slot).Nodup

theorem Table.ext_rows {K V : Type} {left right : Table K V} (same : left.rows = right.rows) : left = right := by
  cases left; cases right; cases same; rfl

def Table.empty {K V : Type} : Table K V := ⟨[],List.nodup_nil⟩

section
variable {K V : Type} [DecidableEq K]

/-- The row, with the value of `new` when both have one slot. -/
def Row.updateBy (new row : Row K V) : Row K V := if row.slot = new.slot then { row with value := new.value } else row

theorem slot_updateBy (new row : Row K V) : (new.updateBy row).slot = row.slot := by
  unfold Row.updateBy
  split <;> rfl

theorem updateBy_same {new row : Row K V} (same : row.slot = new.slot) : new.updateBy row = new := by
  unfold Row.updateBy
  rw [if_pos same]
  cases row; cases new
  simp only [Row.slot,Prod.mk.injEq] at same
  obtain ⟨rfl,rfl,rfl⟩ := same
  rfl

theorem updateBy_other {new row : Row K V} (other : row.slot ≠ new.slot) : new.updateBy row = row :=
  if_neg other

/-- Insert a row, or put its value into the row that already has its slot. -/
def upsertRows (rows : List (Row K V)) (new : Row K V) : List (Row K V) :=
  if new.slot ∈ rows.map Row.slot then rows.map new.updateBy else rows ++ [new]

theorem upsertRows_unique {rows : List (Row K V)} (unique : (rows.map Row.slot).Nodup) (new : Row K V) :
    ((upsertRows rows new).map Row.slot).Nodup := by
  unfold upsertRows
  split
  · have slots : (rows.map new.updateBy).map Row.slot = rows.map Row.slot := by
      rw [List.map_map]
      exact List.map_congr_left (fun row _ => slot_updateBy new row)
    rw [slots]; exact unique
  · next free =>
    rw [List.map_append,List.nodup_append]
    refine ⟨unique,by simp,?_⟩
    intro slot member other single
    rw [List.map_singleton,List.mem_singleton] at single
    rw [single]
    exact fun same => free (same ▸ member)

def Table.upsert (table : Table K V) (new : Row K V) : Table K V :=
  ⟨upsertRows table.rows new,upsertRows_unique table.unique new⟩

omit [DecidableEq K] in
theorem rowsAbove_unique {rows : List (Row K V)} (unique : (rows.map Row.slot).Nodup) (keep : Row K V → Bool) :
    ((rows.filter keep).map Row.slot).Nodup :=
  (List.filter_sublist.map Row.slot).nodup unique

/-- Drop the rows above a height. -/
def Table.deleteAbove (limit : Nat) (table : Table K V) : Table K V :=
  ⟨table.rows.filter (fun row => decide (row.height ≤ limit)),rowsAbove_unique table.unique _⟩

theorem mem_upsert {table : Table K V} {new row : Row K V} :
    row ∈ (table.upsert new).rows ↔ row = new ∨ (row ∈ table.rows ∧ row.slot ≠ new.slot) := by
  show row ∈ upsertRows table.rows new ↔ _
  unfold upsertRows
  split
  · next taken =>
    simp only [List.mem_map]
    constructor
    · rintro ⟨old,member,rfl⟩
      by_cases same : old.slot = new.slot
      · exact .inl (updateBy_same same)
      · rw [updateBy_other same]
        exact .inr ⟨member,same⟩
    · rintro (rfl | ⟨member,other⟩)
      · obtain ⟨old,member,same⟩ := List.mem_map.mp taken
        exact ⟨old,member,updateBy_same same⟩
      · exact ⟨row,member,updateBy_other other⟩
  · next free =>
    simp only [List.mem_append,List.mem_singleton]
    constructor
    · rintro (member | rfl)
      · exact .inr ⟨member,fun same => free (same ▸ List.mem_map_of_mem member)⟩
      · exact .inl rfl
    · rintro (rfl | ⟨member,_⟩)
      · exact .inr rfl
      · exact .inl member

omit [DecidableEq K] in
theorem mem_deleteAbove {table : Table K V} {limit : Nat} {row : Row K V} :
    row ∈ (table.deleteAbove limit).rows ↔ row ∈ table.rows ∧ row.height ≤ limit := by
  simp [Table.deleteAbove]

theorem map_updateBy_free {rows : List (Row K V)} {new : Row K V} (free : new.slot ∉ rows.map Row.slot) :
    rows.map new.updateBy = rows := by
  refine (List.map_congr_left ?_).trans (List.map_id _)
  intro row member
  exact updateBy_other (fun same => free (same ▸ List.mem_map_of_mem member))

/-- A write leaves nothing of an earlier write to its slot. -/
theorem upsert_overwrite (table : Table K V) {old new : Row K V} (same : old.slot = new.slot) :
    (table.upsert old).upsert new = table.upsert new := by
  apply Table.ext_rows
  show upsertRows (upsertRows table.rows old) new = upsertRows table.rows new
  by_cases taken : new.slot ∈ table.rows.map Row.slot
  · have first : upsertRows table.rows old = table.rows.map old.updateBy := if_pos (same ▸ taken)
    have slots : (table.rows.map old.updateBy).map Row.slot = table.rows.map Row.slot := by
      rw [List.map_map]
      exact List.map_congr_left (fun row _ => slot_updateBy old row)
    rw [first,upsertRows,upsertRows,slots,if_pos taken,if_pos taken,List.map_map]
    apply List.map_congr_left
    intro row _
    by_cases here : row.slot = new.slot
    · rw [Function.comp_apply,updateBy_same (here.trans same.symm),updateBy_same same,updateBy_same here]
    · rw [Function.comp_apply,updateBy_other (fun other => here (other.trans same))]
  · have first : upsertRows table.rows old = table.rows ++ [old] := if_neg (same ▸ taken)
    have now : new.slot ∈ (table.rows ++ [old]).map Row.slot := by simp [same]
    rw [first,upsertRows,upsertRows,if_pos now,if_neg taken,List.map_append,map_updateBy_free taken,List.map_singleton,
      updateBy_same same]

/-- Writing a row that is there changes nothing. -/
theorem upsert_mem {table : Table K V} {row : Row K V} (member : row ∈ table.rows) : table.upsert row = table := by
  apply Table.ext_rows
  show upsertRows table.rows row = table.rows
  rw [upsertRows,if_pos (List.mem_map_of_mem member)]
  refine (List.map_congr_left ?_).trans (List.map_id _)
  intro other otherMember
  by_cases same : other.slot = row.slot
  · rw [updateBy_same same]
    exact List.inj_on_of_nodup_map table.unique member otherMember same.symm
  · exact updateBy_other same

/-- Writing above a height does not touch what lies up to it. -/
theorem deleteAbove_upsert_above (table : Table K V) {limit : Nat} {new : Row K V} (above : limit < new.height) :
    (table.upsert new).deleteAbove limit = table.deleteAbove limit := by
  apply Table.ext_rows
  show (upsertRows table.rows new).filter _ = table.rows.filter _
  unfold upsertRows
  split
  · rw [List.filter_map]
    have kept : table.rows.filter ((fun row => decide (row.height ≤ limit)) ∘ new.updateBy)
        = table.rows.filter (fun row => decide (row.height ≤ limit)) := by
      apply List.filter_congr
      intro row _
      have height : (new.updateBy row).height = row.height := congrArg (·.2.2) (slot_updateBy new row)
      simp only [Function.comp_apply,height]
    rw [kept]
    refine (List.map_congr_left ?_).trans (List.map_id _)
    intro row member
    have low : row.height ≤ limit := by simpa using (List.mem_filter.mp member).2
    apply updateBy_other
    intro same
    have heights : row.height = new.height := congrArg (·.2.2) same
    omega
  · have dropped : [new].filter (fun row => decide (row.height ≤ limit)) = [] := by
      simp [above]
    rw [List.filter_append,dropped,List.append_nil]

theorem deleteAbove_foldl_above {limit : Nat} {news : List (Row K V)} (above : ∀ new ∈ news, limit < new.height)
    (table : Table K V) : (news.foldl Table.upsert table).deleteAbove limit = table.deleteAbove limit := by
  induction news generalizing table with
  | nil => rfl
  | cons new rest ih =>
    rw [List.foldl_cons,ih (fun other member => above other (by simp [member])),
      deleteAbove_upsert_above table (above new (by simp))]

theorem mem_foldl_upsert {news : List (Row K V)} {table : Table K V} {row : Row K V}
    (member : row ∈ (news.foldl Table.upsert table).rows) : row ∈ news ∨ row ∈ table.rows := by
  induction news generalizing table with
  | nil => exact .inr member
  | cons new rest ih =>
    rcases ih member with inside | before
    · exact .inl (by simp [inside])
    · rcases mem_upsert.mp before with rfl | ⟨old,_⟩
      · exact .inl (by simp)
      · exact .inr old

theorem slot_upsert {table : Table K V} {new : Row K V} {slot : K × Nat × Nat} :
    slot ∈ (table.upsert new).rows.map Row.slot ↔ slot = new.slot ∨ slot ∈ table.rows.map Row.slot := by
  simp only [List.mem_map,mem_upsert]
  constructor
  · rintro ⟨row,rfl | ⟨member,_⟩,rfl⟩
    · exact .inl rfl
    · exact .inr ⟨row,member,rfl⟩
  · rintro (rfl | ⟨row,member,rfl⟩)
    · exact ⟨new,.inl rfl,rfl⟩
    · by_cases same : row.slot = new.slot
      · exact ⟨new,.inl rfl,same.symm⟩
      · exact ⟨row,.inr ⟨member,same⟩,rfl⟩

/-- Exactly the slots that were written, now or before, have a row. -/
theorem slot_foldl_upsert {news : List (Row K V)} {table : Table K V} {slot : K × Nat × Nat} :
    slot ∈ (news.foldl Table.upsert table).rows.map Row.slot ↔
      slot ∈ news.map Row.slot ∨ slot ∈ table.rows.map Row.slot := by
  induction news generalizing table with
  | nil => simp
  | cons new rest ih =>
    rw [List.foldl_cons,ih,slot_upsert,List.map_cons,List.mem_cons]
    constructor
    · rintro (later | here | before)
      · exact .inl (.inr later)
      · exact .inl (.inl here)
      · exact .inr before
    · rintro ((here | later) | before)
      · exact .inr (.inl here)
      · exact .inl later
      · exact .inr (.inr before)

/-- A row stays when its slot is not written. -/
theorem foldl_upsert_old {news : List (Row K V)} {table : Table K V} {row : Row K V} (member : row ∈ table.rows)
    (free : row.slot ∉ news.map Row.slot) : row ∈ (news.foldl Table.upsert table).rows := by
  induction news generalizing table with
  | nil => exact member
  | cons new rest ih =>
    rw [List.map_cons,List.mem_cons,not_or] at free
    exact ih (mem_upsert.mpr (.inr ⟨member,free.1⟩)) free.2

/-- In a slot that was written there is one of the rows written to it. -/
theorem foldl_upsert_new {news : List (Row K V)} {table : Table K V} {row : Row K V}
    (member : row ∈ (news.foldl Table.upsert table).rows) (taken : row.slot ∈ news.map Row.slot) : row ∈ news := by
  induction news generalizing table with
  | nil => cases taken
  | cons new rest ih =>
    by_cases later : row.slot ∈ rest.map Row.slot
    · exact List.mem_cons_of_mem new (ih member later)
    · rw [List.map_cons,List.mem_cons] at taken
      have here := taken.resolve_right later
      have parts : row ∈ rest ∨ row ∈ (table.upsert new).rows := mem_foldl_upsert member
      rcases parts with inside | before
      · exact absurd (List.mem_map_of_mem inside) later
      · rcases mem_upsert.mp before with rfl | ⟨_,other⟩
        · exact List.mem_cons_self
        · exact absurd here other

/-- The rows of a table that was written from nothing are the last ones written to their slots. -/
theorem mem_written {news : List (Row K V)} {row : Row K V} :
    row ∈ (news.foldl Table.upsert Table.empty).rows ↔
      (news.filter (fun new => decide (new.slot = row.slot))).getLast? = some row := by
  induction news using List.reverseRecOn with
  | nil => simp [Table.empty]
  | append_singleton before last ih =>
    rw [List.foldl_append,List.foldl_cons,List.foldl_nil,mem_upsert,List.filter_append,ih]
    by_cases same : last.slot = row.slot
    · have here : [last].filter (fun new => decide (new.slot = row.slot)) = [last] := by simp [same]
      rw [here,List.getLast?_concat,Option.some.injEq]
      constructor
      · rintro (rfl | ⟨_,other⟩)
        · rfl
        · exact absurd same.symm other
      · rintro rfl
        exact .inl rfl
    · have elsewhere : [last].filter (fun new => decide (new.slot = row.slot)) = [] := by simp [same]
      rw [elsewhere,List.append_nil]
      constructor
      · rintro (rfl | ⟨member,_⟩)
        · exact absurd rfl same
        · exact member
      · intro member
        exact .inr ⟨member,fun slots => same slots.symm⟩

omit [DecidableEq K] in
/-- A table with no row above a height is not changed by the cut. -/
theorem deleteAbove_of_low {table : Table K V} {limit : Nat} (low : ∀ row ∈ table.rows, row.height ≤ limit) :
    table.deleteAbove limit = table := by
  apply Table.ext_rows
  exact List.filter_eq_self.mpr (fun row member => by simpa using low row member)

/-! ### Reading -/

/-- The rows a read considers. -/
def candidates (table : Table K V) (key : K) (version : Nat) : List (Row K V) :=
  table.rows.filter (fun row => decide (row.key = key ∧ row.version ≤ version))

theorem mem_candidates {table : Table K V} {key : K} {version : Nat} {row : Row K V} :
    row ∈ candidates table key version ↔ row ∈ table.rows ∧ row.key = key ∧ row.version ≤ version := by
  simp [candidates]

end

/-- A way to take the first of some rows ordered by descending version. -/
abbrev RowChoice (K V : Type) := TopChoice (Row.version : Row K V → Nat)

section
variable {K V : Type} [DecidableEq K]

/-- The value a read returns, `none` when no row qualifies. -/
def select (choice : RowChoice K V) (table : Table K V) (key : K) (version : Nat) : Option V :=
  (choice.pick (candidates table key version)).map Row.value

theorem select_none {choice : RowChoice K V} {table : Table K V} {key : K} {version : Nat} :
    select choice table key version = none ↔ ∀ row ∈ table.rows, row.key = key → version < row.version := by
  unfold select
  rw [Option.map_eq_none_iff]
  constructor
  · intro none row member same
    have empty := choice.pick_none _ none
    by_contra low
    have candidate : row ∈ candidates table key version := mem_candidates.mpr ⟨member,same,by omega⟩
    rw [empty] at candidate
    simp at candidate
  · intro absent
    cases found : choice.pick (candidates table key version) with
    | none => rfl
    | some row =>
      obtain ⟨member,same,low⟩ := mem_candidates.mp (choice.pick_mem _ _ found)
      have high := absent row member same
      omega

/-- What a read returns is the value of a row of greatest version. -/
theorem select_some {choice : RowChoice K V} {table : Table K V} {key : K} {version : Nat} {value : V}
    (read : select choice table key version = some value) :
    ∃ row ∈ table.rows, row.key = key ∧ row.version ≤ version ∧ row.value = value ∧
      ∀ other ∈ table.rows, other.key = key → other.version ≤ version → other.version ≤ row.version := by
  unfold select at read
  obtain ⟨row,found,rfl⟩ := Option.map_eq_some_iff.mp read
  obtain ⟨member,same,low⟩ := mem_candidates.mp (choice.pick_mem _ _ found)
  refine ⟨row,member,same,low,rfl,?_⟩
  intro other otherMember otherSame otherLow
  exact choice.pick_top _ _ found other (mem_candidates.mpr ⟨otherMember,otherSame,otherLow⟩)

/-- A row of greatest version is read when no row of its version disagrees with it. -/
theorem select_eq {choice : RowChoice K V} {table : Table K V} {version : Nat} {row : Row K V}
    (member : row ∈ table.rows) (low : row.version ≤ version)
    (top : ∀ other ∈ table.rows, other.key = row.key → other.version ≤ version →
      other.version ≤ row.version ∧ (other.version = row.version → other.value = row.value)) :
    select choice table row.key version = some row.value := by
  cases read : select choice table row.key version with
  | none =>
    have high := select_none.mp read row member rfl
    omega
  | some value =>
    obtain ⟨found,foundMember,same,foundLow,rfl,greatest⟩ := select_some read
    obtain ⟨below,agrees⟩ := top found foundMember same foundLow
    have above := greatest row member rfl low
    rw [agrees (by omega)]

/-- Every choice of the row reads one value without a version exactly when all rows without a version agree on it. -/
theorem select_every [DecidableEq V] {table : Table K V} {key : K} {value : V} :
    (∀ choice : RowChoice K V, select choice table key 0 = some value) ↔
      (∃ row ∈ table.rows, row.key = key ∧ row.version = 0) ∧
        ∀ row ∈ table.rows, row.key = key → row.version = 0 → row.value = value := by
  constructor
  · intro every
    refine ⟨?_,?_⟩
    · obtain ⟨row,member,same,low,_⟩ := select_some (every (TopChoice.earliest Row.version))
      exact ⟨row,member,same,Nat.le_zero.mp low⟩
    · intro row member same plain
      have candidate : row ∈ candidates table key 0 := mem_candidates.mpr ⟨member,same,plain.le⟩
      have read := every (TopChoice.preferring Row.version row)
      rw [select,TopChoice.pick_preferring candidate (fun other otherMember => by
        have low := (mem_candidates.mp otherMember).2.2
        omega)] at read
      exact Option.some.inj read
  · rintro ⟨⟨row,member,rfl,plain⟩,agree⟩ choice
    rw [← agree row member rfl plain]
    apply select_eq member plain.le
    intro other otherMember same low
    refine ⟨by omega,fun version => ?_⟩
    rw [agree other otherMember same (version.trans plain),agree row member rfl plain]

/-- Rows of one key and version hold one value. -/
def Coherent (table : Table K V) : Prop :=
  ∀ row ∈ table.rows, ∀ other ∈ table.rows, row.key = other.key → row.version = other.version →
    row.value = other.value

/-- Reads of a coherent table do not depend on the choice of the row. -/
theorem select_coherent {table : Table K V} (coherent : Coherent table) (choice other : RowChoice K V) (key : K)
    (version : Nat) : select choice table key version = select other table key version := by
  cases read : select choice table key version with
  | none =>
    symm
    rw [select_none] at read ⊢
    exact read
  | some value =>
    obtain ⟨row,member,rfl,low,rfl,greatest⟩ := select_some read
    symm
    apply select_eq member low
    intro second secondMember same secondLow
    exact ⟨greatest second secondMember same secondLow,
      fun version => coherent second secondMember row member same version⟩

/-! ### The latest write -/

/-- The latest value written at or before a version. -/
def lastWrite (writes : Nat → Option V) : Nat → Option V
  | 0 => writes 0
  | n+1 => (writes (n+1)).or (lastWrite writes n)

omit [DecidableEq K] in
theorem lastWrite_none {writes : Nat → Option V} {n : Nat} :
    lastWrite writes n = none ↔ ∀ m ≤ n, writes m = none := by
  induction n with
  | zero => simp [lastWrite]
  | succ n ih =>
    rw [lastWrite,Option.or_eq_none_iff,ih]
    constructor
    · rintro ⟨last,before⟩ m low
      rcases Nat.lt_or_eq_of_le low with lt | same
      · exact before m (by omega)
      · rw [same]; exact last
    · intro all
      exact ⟨all (n+1) le_rfl,fun m low => all m (by omega)⟩

omit [DecidableEq K] in
theorem lastWrite_congr {writes other : Nat → Option V} {n : Nat} (same : ∀ m ≤ n, writes m = other m) :
    lastWrite writes n = lastWrite other n := by
  induction n with
  | zero => exact same 0 le_rfl
  | succ n ih => rw [lastWrite,lastWrite,same (n+1) le_rfl,ih (fun m low => same m (by omega))]

theorem lastWrite_some {writes : Nat → Option V} {n : Nat} {value : V} :
    lastWrite writes n = some value ↔
      ∃ m ≤ n, writes m = some value ∧ ∀ later, m < later → later ≤ n → writes later = none := by
  induction n with
  | zero =>
    constructor
    · intro found; exact ⟨0,le_rfl,found,fun later high low => by omega⟩
    · rintro ⟨m,low,found,_⟩; rw [Nat.le_zero.mp low] at found; exact found
  | succ n ih =>
    rw [lastWrite]
    cases last : writes (n+1) with
    | none =>
      rw [Option.none_or,ih]
      constructor
      · rintro ⟨m,low,found,quiet⟩
        refine ⟨m,by omega,found,?_⟩
        intro later high laterLow
        rcases Nat.lt_or_eq_of_le laterLow with lt | same
        · exact quiet later high (by omega)
        · rw [same]; exact last
      · rintro ⟨m,low,found,quiet⟩
        have before : m ≠ n+1 := by rintro rfl; rw [last] at found; cases found
        exact ⟨m,by omega,found,fun later high laterLow => quiet later high (by omega)⟩
    | some written =>
      rw [Option.some_or]
      constructor
      · intro same
        exact ⟨n+1,le_rfl,last.trans same,fun later high low => by omega⟩
      · rintro ⟨m,low,found,quiet⟩
        rcases Nat.lt_or_eq_of_le low with lt | same
        · rw [quiet (n+1) lt le_rfl] at last; cases last
        · rw [same,last] at found; exact found

end
end FlowEmulator.VersionedTable
