import FlowEmulator.DebugSession
import FlowEmulator.Run

/-!
The sessions of the debugger that are reached: by any requests, stops and ends of
scripts, as long as nothing panics, which ends the process. In all of them a
launched script has an identifier, no handle stands for an account of the client
library, there is a debugger only if the emulator answers with one, and a stop only
if there is a debugger (`reached_sound`).
-/
namespace FlowEmulator.Debugger
open FlowEmulator.Fallible FlowEmulator.Run
open FlowEmulator.Text (Bytes ascii hexEncode)

def Reached (host : Host) (s : Session) : Prop :=
  Reachable (fun input s => (react host input s).2) (fun s input => s.awaits input = true ∧ (react host input s).1 = .ok ())
    (fun first => first = newSession) s

/-- What a reaction puts out. -/
def putOut (reaction : DebugM Unit) (s : Session) : List Output := (reaction s).2.outputs.drop s.outputs.length

/-- What holds in every session. No script was launched, or the one that was has an identifier. -/
structure Session.Sound (host : Host) (s : Session) : Prop where
  named : s.scriptID = [] ∧ s.scriptLocation = [] ∨ ∃ id : Identifier, s.scriptID = hexEncode id.bytes
  plain : ∀ handle address, s.variableTable handle ≠ some (.sdkAccount address)
  started : s.hasDebugger = true → host.startDebugger = true
  stopped : s.stop.isSome = true → s.hasDebugger = true

section
variable {host : Host}

theorem sound_emit (output : Output) : Keeps (Session.Sound host) (emit output) := keeps_update fun _ sound => { sound with }

theorem sound_useDebugger : Keeps (Session.Sound host) useDebugger := by
  refine keeps_bind (keeps_view _ _) fun hasDebugger => ?_
  cases hasDebugger
  · exact keeps_fail _ _
  · exact keeps_pure _ _

theorem sound_tell (output : Output) : Keeps (Session.Sound host) (tell output) :=
  keeps_bind sound_useDebugger fun _ => sound_emit output

theorem sound_step : Keeps (Session.Sound host) step := keeps_bind (sound_tell _) fun _ => sound_tell _

theorem sound_currentDepth : Keeps (Session.Sound host) currentDepth := by
  refine keeps_bind (keeps_view _ _) fun stop => ?_
  cases stop
  · exact keeps_fail _ _
  · exact keeps_pure _ _

theorem sound_setTargetDepth (depth : Int) : Keeps (Session.Sound host) (setTargetDepth depth) :=
  keeps_update fun _ sound => { sound with }

theorem sound_startDebugger : Keeps (Session.Sound host) (startDebugger host) :=
  keeps_update fun _ sound => { sound with started := id, stopped := fun stop => sound.started (sound.stopped stop) }

theorem sound_run : Keeps (Session.Sound host) (run host) := by
  have begun : Keeps (Session.Sound host) (do
      useDebugger
      update fun s => { s with variableHandleCounter := 0, variableTable := fun _ => none, launched := true }) :=
    keeps_bind sound_useDebugger fun _ => keeps_update fun _ sound => { sound with plain := by simp }
  refine keeps_bind sound_startDebugger fun _ => keeps_bind (keeps_view _ _) fun stopOnEntry => ?_
  cases stopOnEntry
  · exact begun
  · exact keeps_bind (sound_tell _) fun _ => begun

theorem sound_runIf (condition : Session → Bool) : Keeps (Session.Sound host) (runIf host condition) := by
  refine keeps_bind (keeps_view _ _) fun now => ?_
  cases now
  · exact keeps_pure _ _
  · exact sound_run

/-- A launch gives the script its identifier. -/
theorem sound_handleLaunchRequest (arguments : LaunchArguments) :
    Keeps (Session.Sound host) (handleLaunchRequest host arguments) := by
  refine keeps_bind sound_startDebugger fun _ => keeps_bind (sound_setTargetDepth 1) fun _ => ?_
  rcases arguments.program with _ | ⟨path,code⟩ | _
  · exact sound_emit _
  · refine keeps_bind (keeps_update fun s sound => ?_) fun _ => keeps_bind (sound_emit _) fun _ => sound_runIf _
    exact { sound with named := .inr ⟨host.makeIDFromFingerPrint code,rfl⟩ }
  · exact keeps_fail _ _

theorem sound_convertEntries (entries : List Entry) : Keeps (Session.Sound host) (convertEntries entries) := by
  have stored {value : Stored} (other : ∀ address, value ≠ .sdkAccount address) :
      Keeps (Session.Sound host) (storeVariable value) := by
    refine keeps_bind (keeps_update fun s sound => { sound with plain := fun handle address => ?_ }) fun _ => keeps_view _ _
    by_cases here : handle = s.variableHandleCounter+1
    · simpa [here] using other address
    · simpa [here] using sound.plain handle address
  induction entries with
  | nil => exact keeps_pure _ _
  | cons entry rest ih =>
    refine keeps_bind ?_ fun _ => keeps_bind ih fun _ => keeps_pure _ _
    cases entry with
    | account address => exact keeps_bind (stored (by simp)) fun _ => keeps_pure _ _
    | value name shown =>
      rw [Entry.variable,convertValueToDAPVariable]
      split
      · exact keeps_bind (stored (by simp)) fun _ => keeps_pure _ _
      · exact keeps_pure _ _

theorem sound_handleVariablesRequest (world : World) (reference : Nat) :
    Keeps (Session.Sound host) (handleVariablesRequest host world reference) := by
  refine keeps_bind (keeps_view _ _) fun stop => ?_
  cases stop with
  | none => exact sound_emit _
  | some stop =>
    refine keeps_bind (keeps_bind (keeps_view _ _) fun resolution => keeps_bind ?_ fun _ =>
      keeps_bind (keeps_attempt _ _) fun entries => sound_convertEntries entries) fun _ => sound_emit _
    cases resolution with
    | localScope => exact keeps_bind (keeps_update fun _ sound => { sound with plain := by simp }) fun _ => sound_useDebugger
    | _ => exact keeps_pure _ _

theorem sound_handleSetBreakpointsRequest (path : Bytes) (lines : List Int) :
    Keeps (Session.Sound host) (handleSetBreakpointsRequest host path lines) := by
  refine keeps_bind (keeps_view _ _) fun known => ?_
  cases pathLocation host known with
  | error message => exact sound_emit _
  | ok location =>
    refine keeps_bind (sound_tell _) fun _ => keeps_bind ?_ fun _ => sound_emit _
    induction lines with
    | nil => exact keeps_pure _ _
    | cons line rest ih => exact keeps_bind (sound_tell _) fun _ => ih

/-- The requests that only look. -/
theorem sound_looks (shown : View) (text : Bytes) : Keeps (Session.Sound host) (handleStackTraceRequest host shown) ∧
    Keeps (Session.Sound host) (handleSourceRequest host shown text) ∧
    Keeps (Session.Sound host) (handleEvaluateRequest shown text) := by
  refine ⟨keeps_bind (keeps_view _ _) fun s => ?_,keeps_bind (keeps_attempt _ _) fun code => ?_,
    keeps_bind (keeps_view _ _) fun stop => ?_⟩
  · cases s.stop <;> exact sound_emit _
  · split <;> exact sound_emit _
  · cases stop with
    | none => exact sound_emit _
    | some stop =>
      refine keeps_bind sound_useDebugger fun _ => ?_
      cases shown.find text <;> exact sound_emit _

theorem sound_dispatchRequest (r : Request) : Keeps (Session.Sound host) (dispatchRequest host r) := by
  have send (message : Message) : Keeps (Session.Sound host) (send message) := sound_emit _
  cases r with
  | initializeRequest => exact keeps_bind sound_startDebugger fun _ => keeps_bind (send _) fun _ => send _
  | launchRequest arguments => exact sound_handleLaunchRequest arguments
  | attachRequest =>
    exact keeps_bind (sound_setTargetDepth 1) fun _ => keeps_bind (keeps_update fun _ sound => { sound with }) fun _ =>
      keeps_bind sound_startDebugger fun _ => keeps_bind sound_run fun _ => send _
  | configurationDoneRequest =>
    exact keeps_bind (keeps_update fun _ sound => { sound with }) fun _ => keeps_bind (sound_runIf _) fun _ => send _
  | disconnectRequest =>
    exact keeps_bind (sound_tell _) fun _ => keeps_bind (keeps_update fun _ sound => { sound with }) fun _ =>
      keeps_bind (keeps_update fun _ sound => { sound with }) fun _ => send _
  | threadsRequest | scopesRequest => exact send _
  | pauseRequest => exact keeps_bind (sound_tell _) fun _ => send _
  | nextRequest | stepOutRequest =>
    exact keeps_bind sound_currentDepth fun _ => keeps_bind (sound_setTargetDepth _) fun _ => keeps_bind sound_step fun _ => send _
  | stepInRequest => exact keeps_bind (sound_setTargetDepth _) fun _ => keeps_bind sound_step fun _ => send _
  | continueRequest =>
    refine keeps_bind (keeps_update fun _ sound => { sound with stopped := ?_ }) fun _ => keeps_bind (sound_tell _) fun _ => send _
    exact fun none => nomatch none
  | variablesRequest world reference => exact sound_handleVariablesRequest world reference
  | setBreakpointsRequest path lines => exact sound_handleSetBreakpointsRequest path lines
  | stackTraceRequest shown => exact (sound_looks shown []).1
  | sourceRequest shown path => exact (sound_looks shown path).2.1
  | evaluateRequest shown expression => exact (sound_looks shown expression).2.2
  | unhandled command => exact keeps_pure _ _

theorem sound_scriptEnded (result : Except String (Option String)) : Keeps (Session.Sound host) (scriptEnded result) := by
  have finish : Keeps (Session.Sound host) (do send .terminatedEvent; endDebugging) :=
    keeps_bind (sound_emit _) fun _ => keeps_update fun _ sound => { sound with }
  rcases result with message | _ | output
  · exact keeps_bind (sound_emit _) fun _ => keeps_bind (sound_emit _) fun _ => finish
  · exact keeps_bind (keeps_fail _ _) fun _ => finish
  · exact keeps_bind (sound_emit _) fun _ => keeps_bind (sound_emit _) fun _ => finish

/-- A stop is received with a debugger. -/
theorem sound_receiveStop {s : Session} (stop : Stop) (debugger : s.hasDebugger = true) (sound : s.Sound host) :
    (receiveStop stop s).2.Sound host := by
  have stopped : Session.Sound host { s with stop := some stop } := { sound with stopped := fun _ => debugger }
  rw [receiveStop,bind_ok (update_run _ s),bind_ok (view_run _ _)]
  split
  · exact sound_emit _ _ stopped
  · exact sound_step _ stopped

theorem reached_sound {s : Session} (reached : Reached host s) : s.Sound host := by
  refine reachable_keeps (fun first isNew => ?_) (fun s input sound possible => ?_) reached
  · subst isNew
    exact ⟨.inl ⟨rfl,rfl⟩,by simp [newSession],(fun none => nomatch none),(fun none => nomatch none)⟩
  · cases input with
    | request r => exact sound_dispatchRequest r s sound
    | stopped stop => exact sound_receiveStop stop (Bool.and_eq_true_iff.mp possible.1).2 sound
    | ended result => exact sound_scriptEnded result s sound

end

/-! ### A session at a stop -/

/-- A script is launched, and stops at its entry. -/
def sampleInputs : List Input :=
  [.request .initializeRequest,.request (.launchRequest ⟨some (.file (ascii "script.cdc") "main"),true⟩),
    .request .configurationDoneRequest,.stopped ⟨1,.script zeroID⟩]

/-- An emulator that answers with a debugger. -/
def sampleHost : Host := ⟨true,false,fun _ => zeroID,fun _ => [],fun _ => .ok none⟩

def sampleSession (host : Host) : Session := play (fun input s => (react host input s).2) sampleInputs newSession

theorem sample_reached {host : Host} (answers : host.startDebugger = true) : Reached host (sampleSession host) := by
  obtain ⟨_,isBlockchain,makeID,locationString,decodeTypeID⟩ := host
  cases answers
  exact ⟨newSession,sampleInputs,rfl,⟨⟨rfl,rfl⟩,⟨rfl,rfl⟩,⟨rfl,rfl⟩,⟨rfl,rfl⟩,trivial⟩,rfl⟩

end FlowEmulator.Debugger
