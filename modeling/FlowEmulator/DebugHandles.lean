import FlowEmulator.DebugRuns
import Mathlib.Data.List.Forall2
import Mathlib.Logic.Function.Basic

/-!
The handles of a debug session. Each answer to a request for variables hands out
a new handle for every account and for every value that has members, and the
table keeps what each of them stands for until the local scope is asked for again.
Two things come in between when a handle is used: the numbers of the scopes are
taken for the scopes, and accounts are kept under a type that is not asked for.
-/
namespace FlowEmulator.Debugger
open FlowEmulator.Fallible FlowEmulator.Run

/-- What the table keeps for an entry. -/
def Entry.stored : Entry → Stored
  | .account address => .account address
  | .value _ shown => .cadence shown

/-- What the handle of an entry is to be taken for. -/
def Entry.intended : Entry → Resolution
  | .account address => .storageOf address
  | .value _ shown => .membersOf shown

/-- The variable shows the entry. -/
def Shows : Entry → Variable → Prop
  | .account address, shown => shown.name = addressText address
  | .value name value, shown => shown.name = name ∧ shown.value = value.text ∧ shown.type = value.type

/-- A session with the handles that were handed out since the local scope was
    asked for, each with the entry it is for. -/
structure Desk where
  session : Session
  issued : List (Nat × Entry)

/-- The handles in an answer. -/
def handles : Except Panic (List Variable) → Except Panic (List Entry) → List (Nat × Entry)
  | .ok listed,.ok entries => ((listed.map Variable.variablesReference).zip entries).filter fun pair => pair.1 ≠ 0
  | _,_ => []

/-- The handles that the answer to a request hands out. -/
def handedOut (host : Host) (world : World) (reference : Nat) (s : Session) : List (Nat × Entry) :=
  match s.stop with
  | none => []
  | some stop => handles (requestedVariables host world reference stop s).1 (entriesOf host world s stop (resolve reference s))

def ask (host : Host) (request : World × Nat) (d : Desk) : Desk where
  session := (handleVariablesRequest host request.1 request.2 d.session).2
  issued := (if request.2 = scopeIdentifierLocal then [] else d.issued) ++ handedOut host request.1 request.2 d.session

/-- The desks that requests for variables lead to, in any session that is reached. -/
def Asked (host : Host) (d : Desk) : Prop :=
  Reachable (ask host) (fun _ _ => True) (fun first => Reached host first.session ∧ first.issued = []) d

/-! ### What an answer leaves -/

/-- The variables show the entries, with new handles that are in the table; the old part of the table stays. -/
structure Lists (s : Session) (entries : List Entry) (listed : List Variable) (after : Session) : Prop where
  stop : after.stop = s.stop
  outputs : after.outputs = s.outputs
  grows : s.variableHandleCounter ≤ after.variableHandleCounter
  old : ∀ n ≤ s.variableHandleCounter, after.variableTable n = s.variableTable n
  new : ∀ pair ∈ (listed.map Variable.variablesReference).zip entries, pair.1 ≠ 0 →
    pair.1 ≤ after.variableHandleCounter ∧ after.variableTable pair.1 = some pair.2.stored
  shows : List.Forall₂ Shows entries listed

section
variable {s : Session}

theorem storeVariable_run (value : Stored) : storeVariable value s = (.ok (s.variableHandleCounter+1),{ s with
    variableHandleCounter := s.variableHandleCounter+1
    variableTable := Function.update s.variableTable (s.variableHandleCounter+1) (some value) }) := rfl

/-- One entry gets the next handle, or none. -/
theorem variable_run (entry : Entry) : ∃ shown after, entry.variable s = (.ok shown,after) ∧ Lists s [entry] [shown] after := by
  have stored (shown : Variable) (handle : shown.variablesReference = s.variableHandleCounter+1) (shows : Shows entry shown) :
      Lists s [entry] [shown] { s with
        variableHandleCounter := s.variableHandleCounter+1
        variableTable := Function.update s.variableTable (s.variableHandleCounter+1) (some entry.stored) } := by
    refine ⟨rfl,rfl,Nat.le_succ _,fun n low => Function.update_of_ne (by omega) _ _,fun pair member _ => ?_,.cons shows .nil⟩
    simp only [List.map_cons,List.map_nil,List.zip_cons_cons,List.zip_nil_left,List.mem_singleton] at member
    simp [member,handle]
  cases entry with
  | account address =>
    refine ⟨_,_,?_,stored ⟨addressText address,"FlowAccount","FlowAccount","class","public",_⟩ rfl rfl⟩
    rw [Entry.variable,accountVariable,bind_ok (storeVariable_run _)]
    rfl
  | value name shown =>
    rw [Entry.variable,convertValueToDAPVariable]
    by_cases expandable : shown.expandable = true
    · refine ⟨_,_,?_,stored ⟨name,shown.text,shown.type,"property","private",_⟩ rfl ⟨rfl,rfl,rfl⟩⟩
      rw [if_pos expandable,bind_ok (storeVariable_run _)]
      rfl
    · refine ⟨⟨name,shown.text,shown.type,"property","private",0⟩,s,by rw [if_neg expandable]; rfl,rfl,rfl,Nat.le_refl _,
        fun _ _ => rfl,fun pair member proper => ?_,.cons ⟨rfl,rfl,rfl⟩ .nil⟩
      simp only [List.map_cons,List.map_nil,List.zip_cons_cons,List.zip_nil_left,List.mem_singleton] at member
      simp [member] at proper

/-- All entries are shown, the handles of the first ones are kept while the later ones get theirs. -/
theorem convertEntries_run (entries : List Entry) :
    ∃ listed after, convertEntries entries s = (.ok listed,after) ∧ Lists s entries listed after := by
  induction entries generalizing s with
  | nil => exact ⟨[],s,rfl,rfl,rfl,Nat.le_refl _,fun _ _ => rfl,fun _ member => by simp at member,.nil⟩
  | cons entry rest ih =>
    obtain ⟨shown,middle,first,one⟩ : ∃ shown middle, entry.variable s = (.ok shown,middle) ∧ Lists s [entry] [shown] middle :=
      variable_run entry
    obtain ⟨listed,after,later,others⟩ : ∃ listed after, convertEntries rest middle = (.ok listed,after) ∧
      Lists middle rest listed after := ih
    refine ⟨shown :: listed,after,?_,others.stop.trans one.stop,others.outputs.trans one.outputs,one.grows.trans others.grows,fun n low => ?_,
      fun pair member proper => ?_,?_⟩
    · rw [convertEntries,bind_ok first,bind_ok later]
      rfl
    · rw [others.old n (low.trans one.grows),one.old n low]
    · rw [List.map_cons,List.zip_cons_cons,List.mem_cons] at member
      rcases member with rfl | member
      · obtain ⟨low,here⟩ := one.new _ (by simp) proper
        exact ⟨low.trans others.grows,(others.old _ low).trans here⟩
      · exact others.new pair member proper
    · cases one.shows with
      | cons shows _ => exact .cons shows others.shows

/-- The session a request finds: for the local scope the table is emptied. -/
def begun (reference : Nat) (s : Session) : Session :=
  if reference = scopeIdentifierLocal then { s with variableHandleCounter := 0, variableTable := fun _ => none } else s

theorem resolve_local {reference : Nat} : resolve reference s = .localScope ↔ reference = scopeIdentifierLocal := by
  rw [resolve]
  split_ifs with first second
  · simp [first]
  · simp [first]
  · cases s.variableTable reference with
    | none => simp [first]
    | some stored => cases stored <;> simp [first]

theorem requestedVariables_run (debugger : s.hasDebugger = true) (host : Host) (world : World) (reference : Nat) (stop : Stop) :
    requestedVariables host world reference stop s = match entriesOf host world s stop (resolve reference s) with
      | .ok entries => convertEntries entries (begun reference s)
      | .error e => (.error e,begun reference s) := by
  rw [requestedVariables,bind_ok (view_run _ s)]
  by_cases first : reference = scopeIdentifierLocal
  · have resolved : resolve reference s = .localScope := resolve_local.mpr first
    have asked : resetVariables .localScope s = (.ok (),begun reference s) := by
      rw [begun,if_pos first,resetVariables,bind_ok (update_run _ s),useDebugger,bind_ok (view_run _ _),debugger]
      rfl
    rw [resolved,bind_ok asked,begun,if_pos first]
    rfl
  · have untouched : resetVariables (resolve reference s) s = (.ok (),s) := by
      cases resolution : resolve reference s with
      | localScope => exact absurd (resolve_local.mp resolution) first
      | _ => rfl
    rw [bind_ok untouched,begun,if_neg first,bind_run,attempt_run]
    cases entriesOf host world s stop (resolve reference s) <;> rfl

/-- What a request at a stop leaves: the entries it lists, if it ends well. -/
theorem requestedVariables_lists (debugger : s.hasDebugger = true) (host : Host) (world : World) (reference : Nat) (stop : Stop) :
    (∃ entries listed after, entriesOf host world s stop (resolve reference s) = .ok entries ∧
      requestedVariables host world reference stop s = (.ok listed,after) ∧ Lists (begun reference s) entries listed after) ∨
    ∃ e, requestedVariables host world reference stop s = (.error e,begun reference s) := by
  rw [requestedVariables_run debugger]
  cases entriesOf host world s stop (resolve reference s) with
  | error e => exact .inr ⟨e,rfl⟩
  | ok entries =>
    obtain ⟨listed,after,run,lists⟩ : ∃ listed after, convertEntries entries (begun reference s) = (.ok listed,after) ∧
      Lists (begun reference s) entries listed after := convertEntries_run entries
    exact .inl ⟨entries,listed,after,rfl,run,lists⟩

end

/-- Every handle that was handed out is in the table, for its entry. -/
structure Tabled (host : Host) (d : Desk) : Prop where
  sound : d.session.Sound host
  stopped : d.issued ≠ [] → d.session.stop.isSome
  kept : ∀ pair ∈ d.issued,
    pair.1 ≤ d.session.variableHandleCounter ∧ d.session.variableTable pair.1 = some pair.2.stored

section
variable {host : Host} {d : Desk}

/-- What was handed out before a request is still in the table it finds, unless it is one for the local scope. -/
theorem tabled_begun (tabled : Tabled host d) (reference : Nat) {pair : Nat × Entry}
    (old : pair ∈ if reference = scopeIdentifierLocal then [] else d.issued) :
    pair.1 ≤ (begun reference d.session).variableHandleCounter ∧
      (begun reference d.session).variableTable pair.1 = some pair.2.stored := by
  by_cases first : reference = scopeIdentifierLocal
  · simp [first] at old
  · rw [if_neg first] at old
    rw [begun,if_neg first]
    exact tabled.kept pair old

theorem tabled_ask (d : Desk) (request : World × Nat) (tabled : Tabled host d) : Tabled host (ask host request d) := by
  obtain ⟨world,reference⟩ := request
  have sound : (ask host (world,reference) d).session.Sound host :=
    sound_handleVariablesRequest world reference d.session tabled.sound
  cases stop : d.session.stop with
  | none =>
    have none : d.issued = [] := by
      by_contra some_issued
      simpa [stop] using tabled.stopped some_issued
    have nothing : (ask host (world,reference) d).issued = [] := by simp [ask,handedOut,stop,none]
    exact ⟨sound,fun wrong => absurd nothing wrong,by simp [nothing]⟩
  | some stop' =>
    have debugger : d.session.hasDebugger = true := tabled.sound.stopped (by rw [stop]; rfl)
    have handled : (ask host (world,reference) d).session =
        (handleVariablesRequest host world reference d.session).2 := rfl
    rw [handleVariablesRequest,bind_ok (view_run _ d.session),stop] at handled
    have handed : handedOut host world reference d.session = handles (requestedVariables host world reference stop' d.session).1
        (entriesOf host world d.session stop' (resolve reference d.session)) := by simp [handedOut,stop]
    have still : (begun reference d.session).stop = some stop' := by
      rw [begun]
      split_ifs <;> exact stop
    rcases requestedVariables_lists debugger host world reference stop' with ⟨entries,listed,after,resolved,run,lists⟩ | ⟨e,run⟩
    · rw [run,resolved] at handed
      dsimp only at handled
      rw [bind_ok run] at handled
      refine ⟨sound,fun _ => ?_,fun pair member => ?_⟩
      · have same : (ask host (world,reference) d).session.stop = after.stop := by rw [handled]; rfl
        simp [same,lists.stop,still]
      · have table : (ask host (world,reference) d).session.variableTable = after.variableTable := by rw [handled]; rfl
        have counter : (ask host (world,reference) d).session.variableHandleCounter = after.variableHandleCounter := by
          rw [handled]; rfl
        rw [table,counter]
        rcases List.mem_append.mp member with old | new
        · obtain ⟨low,here⟩ := tabled_begun tabled reference old
          exact ⟨low.trans lists.grows,(lists.old _ low).trans here⟩
        · rw [handed] at new
          obtain ⟨inside,proper⟩ := List.mem_filter.mp new
          exact lists.new pair inside (by simpa using proper)
    · rw [run] at handed
      dsimp only at handled
      rw [bind_error run] at handled
      refine ⟨sound,fun _ => ?_,fun pair member => ?_⟩
      · simp [handled,still]
      · rcases List.mem_append.mp member with old | new
        · rw [handled]
          exact tabled_begun tabled reference old
        · simp [handed,handles] at new

theorem asked_tabled (asked : Asked host d) : Tabled host d :=
  reachable_keeps (fun first fresh => ⟨reached_sound fresh.1,fun wrong => absurd fresh.2 wrong,by simp [fresh.2]⟩)
    (fun d request tabled _ => tabled_ask d request tabled) asked

/-- A handle is handed out only where there is a debugger. It is taken for what it
    was handed out for exactly if it is not the number of a scope and stands for a
    value. The members of the value are then listed. -/
theorem handles_resolve_iff (asked : Asked host d) {handle : Nat} {entry : Entry} (handed : (handle,entry) ∈ d.issued) :
    host.startDebugger = true ∧
    (resolve handle d.session = entry.intended ↔
      handle ≠ scopeIdentifierLocal ∧ handle ≠ scopeIdentifierStorage ∧ ∃ name value, entry = .value name value) ∧
    ∀ world value, resolve handle d.session = .membersOf value → ∃ listed,
      putOut (handleVariablesRequest host world handle) d.session = [.send (.variablesResponse listed)] ∧
      List.Forall₂ Shows (value.members world) listed := by
  have tabled := asked_tabled asked
  obtain ⟨_,here⟩ := tabled.kept _ handed
  have debugger := tabled.sound.stopped (tabled.stopped (List.ne_nil_of_mem handed))
  refine ⟨tabled.sound.started debugger,?_,fun world value resolved => ?_⟩
  · rw [resolve]
    by_cases first : handle = scopeIdentifierLocal
    · cases entry <;> simp [first,Entry.intended]
    · by_cases second : handle = scopeIdentifierStorage
      · cases entry <;> simp [second,Entry.intended,scopeIdentifierStorage,scopeIdentifierLocal]
      · rw [if_neg first,if_neg second,here]
        cases entry <;> simp [first,second,Entry.stored,Entry.intended]
  · obtain ⟨stop,stopped⟩ := Option.isSome_iff_exists.mp (tabled.stopped (List.ne_nil_of_mem handed))
    obtain ⟨listed,after,run,lists⟩ : ∃ listed after, convertEntries (value.members world) d.session = (.ok listed,after) ∧
      Lists d.session (value.members world) listed after := convertEntries_run _
    have other : handle ≠ scopeIdentifierLocal := fun first => by simp [resolve_local.mpr first] at resolved
    have answered : requestedVariables host world handle stop d.session = (.ok listed,after) := by
      rw [requestedVariables_run debugger,resolved,begun,if_neg other]
      exact run
    refine ⟨listed,?_,lists.shows⟩
    have handled : handleVariablesRequest host world handle d.session =
        (.ok (),{ after with outputs := after.outputs ++ [.send (.variablesResponse listed)] }) := by
      rw [handleVariablesRequest,bind_ok (view_run _ d.session),stopped]
      dsimp only
      rw [bind_ok answered]
      rfl
    simp [putOut,handled,lists.outputs]

end

/-! ### Handles that go wrong -/

/-- Values with members get the next handles, without a gap. -/
theorem convertEntries_replicate (name : String) (value : Value) (expandable : value.expandable = true) (n : Nat) (s : Session) :
    ∃ listed after, convertEntries (List.replicate n (.value name value)) s = (.ok listed,after) ∧
      listed.map Variable.variablesReference = List.range' (s.variableHandleCounter+1) n := by
  induction n generalizing s with
  | zero => exact ⟨[],s,rfl,rfl⟩
  | succ n ih =>
    obtain ⟨listed,after,run,references⟩ := ih (storeVariable (.cadence value) s).2
    have first : (Entry.value name value).variable s =
        (.ok ⟨name,value.text,value.type,"property","private",s.variableHandleCounter+1⟩,(storeVariable (.cadence value) s).2) := by
      rw [Entry.variable,convertValueToDAPVariable,if_pos expandable]
      rfl
    refine ⟨⟨name,value.text,value.type,"property","private",s.variableHandleCounter+1⟩ :: listed,after,?_,?_⟩
    · rw [List.replicate_succ,convertEntries,bind_ok first,bind_ok run]
      rfl
    · rw [List.map_cons,references,List.range'_succ]
      rfl

/-- A function with some arrays for its variables, an emulator with one account. -/
def sampleWorld (n : Nat) : World where
  locals := List.replicate n ("list",some (.array "[true]" "[Bool]" [.simple "true" "Bool"]))
  accounts := [1]
  storage := fun _ => []
  fieldOrder := id
  fieldOrder_perm := fun fields => .refl fields

def sampleDesk : Desk := ⟨sampleSession sampleHost,[]⟩

theorem sample_asked (request : World × Nat) : Asked sampleHost (ask sampleHost request sampleDesk) :=
  ⟨sampleDesk,[request],⟨sample_reached rfl,rfl⟩,throughout_all fun _ _ => trivial,rfl⟩

/-- Every number is handed out for an array if a function has that many of them. -/
theorem sample_handed {n : Nat} (positive : 0 < n) :
    (n,.value "list" (.array "[true]" "[Bool]" [.simple "true" "Bool"])) ∈
      (ask sampleHost (sampleWorld n,scopeIdentifierLocal) sampleDesk).issued := by
  have resolved : resolve scopeIdentifierLocal sampleDesk.session = .localScope := rfl
  have entries : entriesOf sampleHost (sampleWorld n) sampleDesk.session ⟨1,.script zeroID⟩ .localScope =
      .ok (List.replicate n (.value "list" (.array "[true]" "[Bool]" [.simple "true" "Bool"]))) := by
    simp [entriesOf,localEntries,sampleWorld]
  obtain ⟨listed,after,run,references⟩ := convertEntries_replicate "list"
    (.array "[true]" "[Bool]" [.simple "true" "Bool"]) rfl n (begun scopeIdentifierLocal sampleDesk.session)
  have handed : handedOut sampleHost (sampleWorld n) scopeIdentifierLocal sampleDesk.session =
      handles (.ok listed) (entriesOf sampleHost (sampleWorld n) sampleDesk.session ⟨1,.script zeroID⟩ .localScope) := by
    have stopped : sampleDesk.session.stop = some ⟨1,.script zeroID⟩ := rfl
    rw [handedOut,stopped]
    dsimp only
    rw [requestedVariables_run rfl,resolved,entries]
    dsimp only
    rw [run]
  rw [ask]
  dsimp only
  rw [if_pos rfl,List.nil_append]
  rw [handed,entries,handles,references,List.mem_filter]
  refine ⟨List.mem_iff_getElem.mpr ⟨n-1,by simp; omega,?_⟩,by simp; omega⟩
  simp [begun]
  omega

/-- The handle of an account stands for nothing, and the one of the ten
    thousandth array of a function is taken for the local scope. -/
theorem handle_not_resolved :
    (∃ d, Asked sampleHost d ∧ (1,.account 1) ∈ d.issued ∧ resolve 1 d.session = .nothing ∧
      (Entry.account 1).intended = .storageOf 1 ∧
      putOut (handleVariablesRequest sampleHost (sampleWorld 0) 1) d.session = [.send (.variablesResponse [])]) ∧
    ∃ d name value, Asked sampleHost d ∧ (10000,.value name value) ∈ d.issued ∧ resolve 10000 d.session = .localScope :=
  ⟨⟨_,sample_asked (sampleWorld 0,scopeIdentifierStorage),List.mem_singleton.mpr rfl,rfl,rfl,rfl⟩,
    _,_,_,sample_asked (sampleWorld 10000,scopeIdentifierLocal),sample_handed (by decide),rfl⟩

theorem handles_resolve_iff_array : ∃ d, Asked sampleHost d ∧ d.session.stop = some ⟨1,.script zeroID⟩ ∧
    resolve 1 d.session = .membersOf (.array "[true]" "[Bool]" [.simple "true" "Bool"]) := by
  refine ⟨_,sample_asked (sampleWorld 1,scopeIdentifierLocal),rfl,?_⟩
  exact (handles_resolve_iff (sample_asked _) (sample_handed (by decide))).2.1.mpr ⟨by decide,by decide,_,_,rfl⟩

end FlowEmulator.Debugger
