import FlowEmulator.DebugStops

/-!
The paths a debug session shows for the places where the interpreter is, and the
places it takes them for when the client sets breakpoints. A path is the printed
location with an ending, which does not say what kind of location it was: the
kind is guessed from the dots in it. Locations of scripts and of contracts are
guessed right, those of transactions are always taken for scripts
(`breakpoint_registered_iff`). How Cadence prints and reads locations, and keeps
breakpoints, is assumed (`Host.Documented`, `BreakpointTable.Lawful`).
-/
namespace FlowEmulator.Debugger
open FlowEmulator.Fallible FlowEmulator.Run FlowEmulator.Pieces
open FlowEmulator.Text (Bytes ascii hexEncode hexDecode)

/-! ### What is assumed of Cadence -/

/-- Scripts and transactions print as bare hexadecimal digits, contracts as an
    address, a dot and a name. The letter before the first dot of a type ID gives
    the kind of its location. That of a contract is its address and its name, up to the next dot. -/
structure Host.Documented (host : Host) : Prop where
  script_string : ∀ id, host.locationString (.script id) = hexEncode id.bytes
  transaction_string : ∀ id, host.locationString (.transaction id) = hexEncode id.bytes
  address_string : ∀ account name, name ≠ [] →
    host.locationString (.address account name) = hexEncode account.bytes ++ 46 :: name
  script_decoded : ∀ id, host.decodeTypeID (ascii "s." ++ hexEncode id.bytes) = .ok (some (.script id))
  address_decoded : ∀ account name rest, name ≠ [] → 46 ∉ name →
    host.decodeTypeID (ascii "A." ++ (hexEncode account.bytes ++ 46 :: (name ++ 46 :: rest))) = .ok (some (.address account name))
  decoded_name : ∀ typeID account name, host.decodeTypeID typeID = .ok (some (.address account name)) → 46 ∉ name

/-- The breakpoints of a debugger, and where it has them. -/
structure BreakpointTable (β : Type) where
  clearBreakpointsForLocation : Option Location → β → β
  addBreakpoint : Option Location → Nat → β → β
  has : β → Option Location → Nat → Prop

/-- Clearing takes the breakpoints of one location away, and adding one adds it. -/
structure BreakpointTable.Lawful {β : Type} (table : BreakpointTable β) : Prop where
  has_clear : ∀ location b place line,
    table.has (table.clearBreakpointsForLocation location b) place line ↔ place ≠ location ∧ table.has b place line
  has_add : ∀ location added b place line,
    table.has (table.addBreakpoint location added b) place line ↔ table.has b place line ∨ place = location ∧ line = added

/-- The breakpoints after what a session has put out. -/
def BreakpointTable.told {β : Type} (table : BreakpointTable β) : List Output → β → β
  | [], b => b
  | .clearBreakpointsForLocation location :: rest, b => table.told rest (table.clearBreakpointsForLocation location b)
  | .addBreakpoint location line :: rest, b => table.told rest (table.addBreakpoint location line b)
  | _ :: rest, b => table.told rest b

/-! ### Paths of locations -/

/-- Contracts have names. -/
def Location.Complete : Location → Prop
  | .address _ name => name ≠ []
  | _ => True

/-- The locations that are guessed right: those of scripts, and those of contracts with a name that has no dot. -/
def Location.Recognised : Location → Prop
  | .script _ => True
  | .transaction _ => False
  | .address _ name => 46 ∉ name

theorem dot_notMem_hexEncode (bytes : Bytes) : 46 ∉ hexEncode bytes := by
  intro member
  exact absurd (Text.hexEncode_digits member) (by decide)

section
variable {host : Host} (documented : host.Documented)
include documented

/-- The digits of an identifier are taken for those of a script. -/
theorem pathLocation_digits {path : Bytes} {id : Identifier} (trimmed : trimSuffix (ascii ".cdc") path = hexEncode id.bytes) :
    pathLocation host path = .ok (some (.script id)) := by
  unfold pathLocation
  simp only [trimmed,List.count_eq_zero.mpr (dot_notMem_hexEncode _),if_true,documented.script_decoded]

/-- The path of a location is taken for the location itself exactly if it is recognised. -/
theorem pathLocation_locationPath {location : Location} (complete : location.Complete) :
    pathLocation host (locationPath host location) = .ok (some location) ↔ location.Recognised := by
  have trimmed := trimSuffix_append (ascii ".cdc") (host.locationString location)
  cases location with
  | script id =>
    rw [documented.script_string] at trimmed
    rw [locationPath,documented.script_string,pathLocation_digits documented trimmed]
    simp [Location.Recognised]
  | transaction id =>
    rw [documented.transaction_string] at trimmed
    rw [locationPath,documented.transaction_string,pathLocation_digits documented trimmed]
    simp [Location.Recognised]
  | address account name =>
    rw [documented.address_string account name complete] at trimmed
    have dotted : (hexEncode account.bytes ++ 46 :: name).count 46 ≠ 0 := by simp
    rw [locationPath,documented.address_string account name complete]
    unfold pathLocation
    simp only [trimmed,if_neg dotted]
    refine ⟨fun read => documented.decoded_name _ account name read,fun free => ?_⟩
    have few : (hexEncode account.bytes ++ 46 :: name).count 46 < 3 := by
      rw [List.count_append,List.count_eq_zero.mpr (dot_notMem_hexEncode _),List.count_cons_self,List.count_eq_zero.mpr free]
      decide
    have padded : ascii "A." ++ (hexEncode account.bytes ++ 46 :: name ++ ascii "._") =
        ascii "A." ++ (hexEncode account.bytes ++ 46 :: (name ++ 46 :: [95])) := by
      rw [List.append_assoc]
      rfl
    rw [if_pos few,padded,documented.address_decoded account name [95] complete free]

theorem locationString_ne_nil {location : Location} (complete : location.Complete) : host.locationString location ≠ [] := by
  have digits (id : Identifier) : hexEncode id.bytes ≠ [] := by
    intro none
    have size := Text.hexEncode_length id.bytes
    rw [none,id.size] at size
    cases size
  cases location with
  | script id => rw [documented.script_string]; exact digits id
  | transaction id => rw [documented.transaction_string]; exact digits id
  | address account name => rw [documented.address_string account name complete]; simp

/-- Of the locations that print as an identifier, only the script is recognised. -/
theorem script_of_string {location : Location} (complete : location.Complete) {id : Identifier}
    (printed : host.locationString location = hexEncode id.bytes) : .script id = location ↔ location.Recognised := by
  cases location with
  | script other =>
    rw [documented.script_string] at printed
    have same : other = id := Identifier.ext_bytes (Text.hexEncode_injective printed)
    simp [same,Location.Recognised]
  | transaction other => simp [Location.Recognised]
  | address account name =>
    rw [documented.address_string account name complete] at printed
    have dot : 46 ∈ hexEncode id.bytes := printed ▸ List.mem_append_right _ List.mem_cons_self
    exact absurd dot (dot_notMem_hexEncode _)

/-- The path that is shown for a location is taken for it: for the launched script
    if the path is the one it was launched from, and for what is guessed otherwise. -/
theorem shown_location {s : Session} (sound : s.Sound host) {location : Location} (complete : location.Complete)
    (positioned : Positioned) :
    pathLocation host (s.requestedPath (newStackFrame host s positioned location).path) = .ok (some location) ↔
      location.Recognised ∧
        (host.locationString location = s.scriptID ∨ locationPath host location ≠ s.scriptLocation) := by
  have nonempty := locationString_ne_nil documented complete
  have script {id : Identifier} (given : s.scriptID = hexEncode id.bytes) :
      pathLocation host s.scriptID = .ok (some (.script id)) := by
    rw [given,pathLocation_digits documented (trimSuffix_free (by decide) (dot_notMem_hexEncode _))]
  unfold Session.requestedPath newStackFrame
  by_cases running : host.locationString location = s.scriptID
  · rcases sound.named with ⟨none,_⟩ | ⟨id,given⟩
    · exact absurd (running.trans none) nonempty
    · simp only [if_pos running,if_true,script given,Except.ok.injEq,Option.some.injEq]
      rw [script_of_string documented complete (running.trans given)]
      exact ⟨fun recognised => ⟨recognised,.inl running⟩,And.left⟩
  · by_cases same : locationPath host location = s.scriptLocation
    · rcases sound.named with ⟨_,none⟩ | ⟨id,given⟩
      · exact absurd (List.append_eq_nil_iff.mp (same.trans none)).1 nonempty
      · simp only [if_neg running,if_pos same,script given,Except.ok.injEq,Option.some.injEq]
        refine iff_of_false ?_ (by simp [running,same])
        rintro rfl
        exact running ((documented.script_string id).trans given.symm)
    · simp only [if_neg running,if_neg same]
      rw [pathLocation_locationPath documented complete]
      exact ⟨fun recognised => ⟨recognised,.inr same⟩,And.left⟩

end

/-! ### Breakpoints on shown paths -/

section
variable {host : Host} {s : Session}

theorem addBreakpoints_ok (debugger : s.hasDebugger = true) (location : Option Location) (lines : List Int) :
    addBreakpoints location lines s =
      (.ok (),{ s with outputs := s.outputs ++ lines.map fun line => .addBreakpoint location (uint line) }) := by
  induction lines generalizing s with
  | nil => simp [addBreakpoints]
  | cons line rest ih =>
    have held : ({ s with outputs := s.outputs ++ [.addBreakpoint location (uint line)] } : Session).hasDebugger = true := debugger
    rw [addBreakpoints,bind_ok (tell_ok debugger),ih held]
    simp

/-- What a request for breakpoints tells the debugger, if its path can be read. -/
theorem putOut_handleSetBreakpointsRequest (debugger : s.hasDebugger = true) (path : Bytes) (lines : List Int) :
    putOut (handleSetBreakpointsRequest host path lines) s = match pathLocation host (s.requestedPath path) with
      | .error _ => [.send (.errorResponse "cannot add breakpoints for path: \x7bpath\x7d" [("path",s.requestedPath path)])]
      | .ok location => .clearBreakpointsForLocation location :: lines.map (fun line => .addBreakpoint location (uint line)) ++
        [.send (.setBreakpointsResponse (lines.map fun _ => ⟨path,true⟩))] := by
  rw [putOut,handleSetBreakpointsRequest,bind_ok (view_run _ s)]
  cases pathLocation host (s.requestedPath path) with
  | error message => simp [send,emit]
  | ok location =>
    have held : ({ s with outputs := s.outputs ++ [.clearBreakpointsForLocation location] } : Session).hasDebugger = true :=
      debugger
    dsimp only
    rw [bind_ok (tell_ok debugger),bind_ok (addBreakpoints_ok held location lines)]
    simp [send,emit]

variable {β : Type} {table : BreakpointTable β} (lawful : table.Lawful)
include lawful

/-- The breakpoints of a list of lines are added to the others. -/
theorem has_told {location place : Option Location} {line : Nat} (lines : List Int) (message : Message) (b : β) :
    table.has (table.told (lines.map (fun line => .addBreakpoint location (uint line)) ++ [.send message]) b) place line ↔
      table.has b place line ∨ place = location ∧ line ∈ lines.map uint := by
  induction lines generalizing b with
  | nil => simp [BreakpointTable.told]
  | cons first rest ih =>
    rw [List.map_cons,List.cons_append,BreakpointTable.told,ih,lawful.has_add,List.map_cons,List.mem_cons,and_or_left,or_assoc]

/-- A breakpoint that was not there is set for the location that its path is taken for, and for no other. -/
theorem has_handleSetBreakpointsRequest (debugger : s.hasDebugger = true) {path : Bytes} {location : Location}
    {lines : List Int} {line : Int} (requested : line ∈ lines) {b : β} (fresh : ¬ table.has b (some location) (uint line)) :
    table.has (table.told (putOut (handleSetBreakpointsRequest host path lines) s) b) (some location) (uint line) ↔
      pathLocation host (s.requestedPath path) = .ok (some location) := by
  rw [putOut_handleSetBreakpointsRequest debugger]
  cases pathLocation host (s.requestedPath path) with
  | error message => simp [BreakpointTable.told,fresh]
  | ok taken =>
    dsimp only
    rw [List.cons_append,BreakpointTable.told,has_told lawful,lawful.has_clear]
    constructor
    · rintro (before | added)
      · exact absurd before.2 fresh
      · rw [added.1]
    · intro same
      exact .inr ⟨(Except.ok.inj same).symm,List.mem_map_of_mem requested⟩

end

/-- The path of a location is taken for the location itself exactly if it is one
    of a script, or one of a contract with a name that has no dot. In every session
    that is reached, a breakpoint that is set on the path shown for a location is
    registered for it exactly if that is so, and if the path is not the one that
    another script was launched from. -/
theorem breakpoint_registered_iff {host : Host} (documented : host.Documented) (location : Location)
    (complete : location.Complete) :
    (pathLocation host (locationPath host location) = .ok (some location) ↔ location.Recognised) ∧
    ∀ {β : Type} (table : BreakpointTable β), table.Lawful → ∀ s, Reached host s → s.hasDebugger = true →
      ∀ (positioned : Positioned) (lines : List Int), ∀ line ∈ lines, ∀ b : β, ¬ table.has b (some location) (uint line) →
      (table.has (table.told (putOut (handleSetBreakpointsRequest host (newStackFrame host s positioned location).path lines) s) b)
          (some location) (uint line) ↔
        location.Recognised ∧ (host.locationString location = s.scriptID ∨ locationPath host location ≠ s.scriptLocation)) := by
  refine ⟨pathLocation_locationPath documented complete,?_⟩
  intro β table lawful s reached debugger positioned lines line requested b fresh
  rw [has_handleSetBreakpointsRequest lawful debugger requested fresh,
    shown_location documented (reached_sound reached) complete]

/-! ### A launched script -/

/-- A printer and a reader of locations as they are documented. -/
def printed : Location → Bytes
  | .script id | .transaction id => hexEncode id.bytes
  | .address account name => hexEncode account.bytes ++ 46 :: name

def readScript (digits : Bytes) : Option Location :=
  (hexDecode digits).bind fun bytes => if size : bytes.length = 32 then some (.script ⟨bytes,size⟩) else none

def readAddress (text : Bytes) : Option Location :=
  (hexDecode (before 46 text)).bind fun bytes =>
    if size : bytes.length = 8 then some (.address ⟨bytes,size⟩ (before 46 (text.drop ((before 46 text).length+1)))) else none

def readTypeID : Bytes → Except String (Option Location)
  | 115 :: 46 :: digits => .ok (readScript digits)
  | 65 :: 46 :: text => .ok (readAddress text)
  | _ => .error "invalid type ID"

def documentedHost : Host := { sampleHost with locationString := printed, decodeTypeID := readTypeID }

theorem documented_host : documentedHost.Documented where
  script_string _ := rfl
  transaction_string _ := rfl
  address_string _ _ _ := rfl
  script_decoded id := by
    show Except.ok (readScript (hexEncode id.bytes)) = _
    simp [readScript,Text.hexDecode_hexEncode,id.size]
  address_decoded account name rest _ free := by
    show Except.ok (readAddress (hexEncode account.bytes ++ 46 :: (name ++ 46 :: rest))) = _
    have front : before 46 (hexEncode account.bytes ++ 46 :: (name ++ 46 :: rest)) = hexEncode account.bytes := by
      rw [before_cut,before_eq_self.mpr (dot_notMem_hexEncode _)]
    have back : (hexEncode account.bytes ++ 46 :: (name ++ 46 :: rest)).drop ((hexEncode account.bytes).length+1) =
        name ++ 46 :: rest := by simp
    rw [readAddress,front,back,before_cut,before_eq_self.mpr free]
    simp [Text.hexDecode_hexEncode,account.size]
  decoded_name typeID account name read := by
    have found {text : Bytes} (some : readAddress text = .some (.address account name)) : 46 ∉ name := by
      obtain ⟨bytes,_,cut⟩ := Option.bind_eq_some_iff.mp some
      split at cut
      · cases cut
        exact notMem_before _ _
      · cases cut
    have script {digits : Bytes} : readScript digits ≠ some (.address account name) := by
      intro some
      obtain ⟨bytes,_,cut⟩ := Option.bind_eq_some_iff.mp some
      split at cut <;> cases cut
    change readTypeID typeID = _ at read
    unfold readTypeID at read
    split at read
    · exact absurd (Except.ok.inj read) script
    · exact found (Except.ok.inj read)
    · cases read

/-- A set of breakpoints. -/
def breakpointSet : BreakpointTable (List (Option Location × Nat)) where
  clearBreakpointsForLocation location b := b.filter fun breakpoint => breakpoint.1 ≠ location
  addBreakpoint location line b := (location,line) :: b
  has b location line := (location,line) ∈ b

theorem breakpointSet_lawful : breakpointSet.Lawful where
  has_clear location b place line := by
    show (place,line) ∈ b.filter _ ↔ _ ∧ (place,line) ∈ b
    rw [List.mem_filter]
    simp [and_comm]
  has_add location added b place line := by
    show (place,line) ∈ (location,added) :: b ↔ (place,line) ∈ b ∨ _
    rw [List.mem_cons,Prod.mk.injEq,or_comm]

def transactionID : Identifier := ⟨7 :: List.replicate 31 0,by simp⟩

/-- The path of a transaction is taken for a script. A breakpoint that is set on
    the path shown for the transaction is said to be verified, and is registered
    for a script with the same identifier, which there is none of. -/
theorem transaction_breakpoint_lost :
    pathLocation documentedHost (locationPath documentedHost (.transaction transactionID)) =
        .ok (some (.script transactionID)) ∧
      Reached documentedHost (sampleSession documentedHost) ∧
      newStackFrame documentedHost (sampleSession documentedHost) ⟨⟨3,0⟩,⟨3,9⟩⟩ (.transaction transactionID) =
        ⟨hexEncode transactionID.bytes ++ ascii ".cdc",3,1,3,11⟩ ∧
      putOut (handleSetBreakpointsRequest documentedHost (hexEncode transactionID.bytes ++ ascii ".cdc") [3])
          (sampleSession documentedHost) =
        [.clearBreakpointsForLocation (some (.script transactionID)),.addBreakpoint (some (.script transactionID)) 3,
          .send (.setBreakpointsResponse [⟨hexEncode transactionID.bytes ++ ascii ".cdc",true⟩])] := by
  refine ⟨?_,sample_reached rfl,?_,?_⟩
  · decide +kernel
  · decide +kernel
  · decide +kernel

theorem breakpoint_registered_iff_script : documentedHost.Documented ∧
    Reached documentedHost (sampleSession documentedHost) ∧ (sampleSession documentedHost).hasDebugger = true ∧
      breakpointSet.has (breakpointSet.told (putOut (handleSetBreakpointsRequest documentedHost
        (newStackFrame documentedHost (sampleSession documentedHost) ⟨⟨3,0⟩,⟨3,9⟩⟩ (.script zeroID)).path [3])
          (sampleSession documentedHost)) []) (some (.script zeroID)) 3 := by
  have registered := (breakpoint_registered_iff documented_host (.script zeroID) trivial).2 breakpointSet
    breakpointSet_lawful _ (sample_reached rfl) rfl ⟨⟨3,0⟩,⟨3,9⟩⟩ [3] 3 List.mem_cons_self [] List.not_mem_nil
  exact ⟨documented_host,sample_reached rfl,rfl,registered.mpr ⟨trivial,.inl rfl⟩⟩

end FlowEmulator.Debugger
