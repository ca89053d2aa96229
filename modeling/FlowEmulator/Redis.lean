import FlowEmulator.DefaultStore
import FlowEmulator.Float64
import FlowEmulator.Run
import FlowEmulator.SortedSet

/-!
The backend over Redis. A value with a version is a member of a sorted set, with
the version rounded to a double as its score. Writing a value again moves the one
member there is, so a key reads back right at all versions exactly when no value
returns (`getBytesAtVersion_iff`).
-/
namespace FlowEmulator.Redis
open FlowEmulator.Text FlowEmulator.Keys FlowEmulator.Fallible FlowEmulator.DefaultStore
open FlowEmulator.SortedSet FlowEmulator.Float64 FlowEmulator.Run

/-- What a key of the database holds. -/
inductive Value where
  | text (value : Bytes)
  | sorted (set : Scores Bytes)

/-- The database of a server. -/
abbrev Database := Bytes → Option Value

def storeKey (name : StoreName) (key : Bytes) : Bytes := name.text ++ ascii "_" ++ hexEncode key

def decodeText (text : Bytes) : Except StoreError Bytes :=
  match hexDecode text with
  | some value => .ok value
  | none => .error .undecodable

def getBytes (name : StoreName) (key : Bytes) (db : Database) : Except StoreError Bytes :=
  match db (storeKey name key) with
  | none => .error .notFound
  | some (.text text) => decodeText text
  | some (.sorted _) => .error .backend

def setBytes (name : StoreName) (key value : Bytes) : StoreM Database Unit :=
  update fun db => Function.update db (storeKey name key) (some (.text (hexEncode value)))

/-- Add a member to the sorted set of a key, which is empty when the key holds nothing. -/
def zAdd (key : Bytes) (score : Nat) (member : Bytes) : StoreM Database Unit := fun db =>
  match db key with
  | none => (.ok (),Function.update db key (some (.sorted (zadd ∅ member score))))
  | some (.sorted set) => (.ok (),Function.update db key (some (.sorted (zadd set member score))))
  | some (.text _) => (.error .backend,db)

def setBytesWithVersion (name : StoreName) (key value : Bytes) (version : Nat) : StoreM Database Unit :=
  zAdd (storeKey name key) (float64 version) (hexEncode value)

/-- The value in the first member of a range, which may be empty. -/
def firstMember : Option Bytes → Except StoreError Bytes
  | none => .error .notFound
  | some text => decodeText text

/-- The version asked for is passed as text and parsed to a double by the server. -/
def getBytesAtVersion (choice : TopChoice (score (M := Bytes))) (name : StoreName) (key : Bytes) (version : Nat)
    (db : Database) : Except StoreError Bytes :=
  match db (storeKey name key) with
  | none => .error .notFound
  | some (.text _) => .error .backend
  | some (.sorted set) => firstMember (zRevRangeByScore choice set (float64 version))

/-- The server has one key for each store, so no height is kept. -/
def dataStore (choice : TopChoice (score (M := Bytes))) : DataStore Database where
  getBytes := getBytes
  getBytesAtVersion := getBytesAtVersion choice
  setBytes := setBytes
  setBytesWithVersion := setBytesWithVersion
  setCurrentHeight _ db := db

theorem storeKey_injective {name name' : StoreName} {key key' : Bytes} (same : storeKey name key = storeKey name' key') :
    name = name' ∧ key = key' := by
  have plainName : (95 : UInt8) ∉ name.text := by cases name <;> decide
  have plainKey : (95 : UInt8) ∉ hexEncode key := by
    intro member
    have digit := hexEncode_digits member
    revert digit
    decide
  unfold storeKey at same
  rw [List.append_assoc,List.append_assoc] at same
  have separated : name.text ++ 95 :: hexEncode key = name'.text ++ 95 :: hexEncode key' := same
  obtain ⟨names,_,keys⟩ := (List.append_cons_inj_of_notMem plainName plainKey).mp separated
  exact ⟨StoreName.text_injective names,hexEncode_injective keys⟩

/-- A call that sets a value with a version. -/
structure Call where
  name : StoreName
  key : Bytes
  value : Bytes
  version : Nat

def call (c : Call) (db : Database) : Database := (setBytesWithVersion c.name c.key c.value c.version db).2

/-- The versions and values of the calls for one key. -/
def callsFor (name : StoreName) (key : Bytes) (calls : List Call) : List (Nat × Bytes) :=
  (calls.filter fun c => decide (c.name = name ∧ c.key = key)).map fun c => (c.version,c.value)

/-- What the server holds for a key after the calls for it. -/
def logged (own : List (Nat × Bytes)) : Option Value :=
  if own = [] then none else some (.sorted (log float64 (own.map fun c => (c.1,hexEncode c.2))))

theorem log_append (own : List (Nat × Bytes)) (c : Nat × Bytes) :
    log float64 ((own ++ [c]).map fun c => (c.1,hexEncode c.2)) =
      zadd (log float64 (own.map fun c => (c.1,hexEncode c.2))) (hexEncode c.2) (float64 c.1) := by
  unfold log
  rw [List.map_append,List.foldl_append]
  rfl

/-- After any calls on an empty server each key holds the log of its calls. -/
theorem play_calls (calls : List Call) (name : StoreName) (key : Bytes) :
    play call calls (fun _ => none) (storeKey name key) = logged (callsFor name key calls) := by
  induction calls using List.reverseRecOn with
  | nil => rfl
  | append_singleton front c ih =>
    rw [play_append]
    show call c (play call front fun _ => none) (storeKey name key) = _
    have split : callsFor name key (front ++ [c]) =
        callsFor name key front ++ if c.name = name ∧ c.key = key then [(c.version,c.value)] else [] := by
      unfold callsFor
      rw [List.filter_append,List.map_append]
      by_cases own : c.name = name ∧ c.key = key <;> simp [own]
    rw [split]
    generalize play call front (fun _ => none) = db at ih ⊢
    by_cases own : c.name = name ∧ c.key = key
    · obtain ⟨rfl,rfl⟩ := own
      rw [if_pos ⟨rfl,rfl⟩]
      unfold logged at ih ⊢
      rw [if_neg (by simp),log_append]
      unfold call setBytesWithVersion zAdd
      by_cases first : callsFor c.name c.key front = []
      · rw [if_pos first] at ih
        rw [ih]
        dsimp only
        rw [Function.update_self,first]
        rfl
      · rw [if_neg first] at ih
        rw [ih]
        dsimp only
        rw [Function.update_self]
    · rw [if_neg own,List.append_nil,← ih]
      have apart : storeKey name key ≠ storeKey c.name c.key := by
        intro same
        obtain ⟨rfl,rfl⟩ := storeKey_injective same
        exact own ⟨rfl,rfl⟩
      unfold call setBytesWithVersion zAdd
      split
      · exact Function.update_of_ne apart ..
      · exact Function.update_of_ne apart ..
      · rfl

/-- The answer a key should give: the value of the last call up to the version. -/
def expected (own : List (Nat × Bytes)) (version : Nat) : Except StoreError Bytes := found (lastAtMost own version)

/-- A key reads back right at every version. -/
def ReadsBack (choice : TopChoice (score (M := Bytes))) (calls : List Call) (name : StoreName) (key : Bytes) : Prop :=
  ∀ version, getBytesAtVersion choice name key version (play call calls fun _ => none) =
    expected (callsFor name key calls) version

/-- An answer is right when the member behind it is. -/
theorem firstMember_right {text : Option Bytes} (written : ∀ t, text = some t → ∃ b, t = hexEncode b)
    (own : List (Nat × Bytes)) (version : Nat) :
    firstMember text = expected own version ↔ text = (lastAtMost own version).map hexEncode := by
  unfold expected
  cases text with
  | none => cases lastAtMost own version <;> simp [firstMember,found]
  | some t =>
    obtain ⟨b,rfl⟩ := written t rfl
    cases lastAtMost own version with
    | none => simp [firstMember,found,decodeText,hexDecode_hexEncode]
    | some v => simp [firstMember,found,decodeText,hexDecode_hexEncode,hexEncode_injective.eq_iff]

theorem readsBack_iff_log (choice : TopChoice (score (M := Bytes))) (calls : List Call) (name : StoreName) (key : Bytes)
    (increasing : Increasing (callsFor name key calls)) :
    ReadsBack choice calls name key ↔ ∀ version,
      zRevRangeByScore choice (log float64 ((callsFor name key calls).map fun c => (c.1,hexEncode c.2))) (float64 version) =
        lastAtMost ((callsFor name key calls).map fun c => (c.1,hexEncode c.2)) version := by
  refine forall_congr' (fun version => ?_)
  unfold getBytesAtVersion
  rw [play_calls,lastAtMost_map,logged]
  by_cases unused : callsFor name key calls = []
  · have empty : zRevRangeByScore choice (log float64 (([] : List (Nat × Bytes)).map fun c => (c.1,hexEncode c.2)))
        (float64 version) = none := by
      show (choice.pick []).map _ = _
      rw [choice.pick_nil]
      rfl
    rw [if_pos unused,unused,empty]
    exact iff_of_true rfl rfl
  · rw [if_neg unused]
    refine firstMember_right (fun text read => ?_) _ _
    obtain ⟨u,called⟩ := zRevRangeByScore_mem (increasing_map increasing) read
    obtain ⟨c,_,same⟩ := List.mem_map.mp called
    exact ⟨c.2,(congrArg Prod.snd same).symm⟩

/-- A key whose versions increase reads back right at every version exactly when
    its calls can be told apart by their doubles; as long as the versions are
    below 2^53, exactly when no value returns. -/
theorem getBytesAtVersion_iff (choice : TopChoice (score (M := Bytes))) (calls : List Call) (name : StoreName)
    (key : Bytes) (increasing : Increasing (callsFor name key calls)) :
    (ReadsBack choice calls name key ↔ Separated float64 (callsFor name key calls)) ∧
      ((∀ c ∈ callsFor name key calls, c.1 < 2^53) →
        (ReadsBack choice calls name key ↔ ((callsFor name key calls).map Prod.snd).Nodup)) := by
  have general : ReadsBack choice calls name key ↔ Separated float64 (callsFor name key calls) := by
    rw [readsBack_iff_log choice calls name key increasing,
      zRevRangeByScore_log_iff choice float64_mono (increasing_map increasing),separated_map hexEncode_injective]
  refine ⟨general,fun small => general.trans (separated_exact increasing ?_)⟩
  exact fun c member n low => float64_exact (Nat.lt_of_le_of_lt low (small c member))

theorem getBytesAtVersion_two_values :
    ReadsBack (TopChoice.earliest score) [⟨.ledger,[7],[1],1⟩,⟨.ledger,[7],[2],2⟩] .ledger [7] :=
  ((getBytesAtVersion_iff (TopChoice.earliest score) [⟨.ledger,[7],[1],1⟩,⟨.ledger,[7],[2],2⟩] .ledger [7]
    (by decide)).2 (by decide)).mpr (by decide)

/-- A register set to 1, then 2, then 1 again has no value at its first version. -/
theorem getBytesAtVersion_value_returns :
    ¬ ReadsBack (TopChoice.earliest score)
      [⟨.ledger,[7],[1],1⟩,⟨.ledger,[7],[2],2⟩,⟨.ledger,[7],[1],3⟩] .ledger [7] := by
  intro right
  have increasing : Increasing (callsFor .ledger [7]
      [⟨.ledger,[7],[1],1⟩,⟨.ledger,[7],[2],2⟩,⟨.ledger,[7],[1],3⟩]) := by decide
  rw [readsBack_iff_log _ _ _ _ increasing,
    zRevRangeByScore_log_iff _ float64_mono (increasing_map increasing)] at right
  have scores := (right.1 (1,hexEncode [1]) (by decide) (3,hexEncode [1]) (by decide)).mp rfl
  rw [float64_exact (by decide),float64_exact (by decide)] at scores
  exact absurd scores (by decide)

end FlowEmulator.Redis
