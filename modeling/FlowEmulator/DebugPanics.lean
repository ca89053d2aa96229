import FlowEmulator.DebugHandles
import FlowEmulator.DebugPaths

/-!
A debug session runs in the process of the emulator, so that a panic of one of its
goroutines ends all of it. Over every run of a session this happens for a few
reasons only (`panics_iff`). One branch that could panic is never taken, as no
handle is ever given to what it looks for. Where the emulator answers without a
debugger, as the blockchain does, whatever uses the debugger is such a reason.
-/
namespace FlowEmulator.Debugger
open FlowEmulator.Fallible FlowEmulator.Run
open FlowEmulator.Text (Bytes)

/-- A run that begins without a debugger. -/
def Host.unfitFor (host : Host) (begins : Bool) : Bool := begins && !host.startDebugger

/-- The path of a request for breakpoints can be read. -/
def Session.reads (s : Session) (host : Host) (path : Bytes) : Bool :=
  match pathLocation host (s.requestedPath path) with
  | .ok _ => true
  | .error _ => false

/-- The requests that panic: those that begin a run that gets no debugger, those
    that tell the interpreter something when there is no debugger, steps without a
    stop to step from, a launch whose program is not a text, and questions for code
    to an emulator that is not the blockchain. -/
def Request.panics (host : Host) (s : Session) : Request → Bool
  | .launchRequest arguments => match arguments.program with
    | none => false
    | some .malformed => true
    | some (.file _ _) => host.unfitFor (s.configurationDone && !s.launched)
  | .attachRequest => host.unfitFor true
  | .configurationDoneRequest => host.unfitFor (s.launchRequested && !s.launched)
  | .disconnectRequest | .pauseRequest | .stepInRequest | .continueRequest => !s.hasDebugger
  | .nextRequest | .stepOutRequest => !s.hasDebugger || s.stop.isNone
  | .setBreakpointsRequest path _ => !s.hasDebugger && s.reads host path
  | .sourceRequest _ _ => !host.isBlockchain
  | _ => false

/-- What panics of a session: such a request, and a script that ends without an error and without a value. -/
def Input.panics (host : Host) (s : Session) : Input → Bool
  | .request r => r.panics host s
  | .stopped _ => false
  | .ended (.ok none) => true
  | .ended _ => false

section
variable {host : Host} {s : Session}

theorem entriesOf_sound (sound : s.Sound host) (world : World) (stop : Stop) (reference : Nat) :
    ∃ entries, entriesOf host world s stop (resolve reference s) = .ok entries := by
  cases resolution : resolve reference s with
  | storageOf address =>
    rw [resolve] at resolution
    split_ifs at resolution
    split at resolution
    · next stored => exact absurd stored (sound.plain _ _)
    all_goals cases resolution
  | _ => exact ⟨_,rfl⟩

/-- A request for variables does not panic, as accounts are never kept in the one way that is looked into. -/
theorem handleVariablesRequest_ok (sound : s.Sound host) (world : World) (reference : Nat) :
    (handleVariablesRequest host world reference s).1 = .ok () := by
  rw [handleVariablesRequest,bind_ok (view_run _ s)]
  cases stopped : s.stop with
  | none => rfl
  | some stop =>
    have debugger : s.hasDebugger = true := sound.stopped (by rw [stopped]; rfl)
    obtain ⟨entries,resolved⟩ := entriesOf_sound sound world stop reference
    obtain ⟨listed,after,run,_⟩ : ∃ listed after, convertEntries entries (begun reference s) = (.ok listed,after) ∧
      Lists (begun reference s) entries listed after := convertEntries_run entries
    have answer : requestedVariables host world reference stop s = (.ok listed,after) := by
      rw [requestedVariables_run debugger,resolved]
      exact run
    dsimp only
    rw [bind_ok answer]
    rfl

theorem handleSetBreakpointsRequest_panics (path : Bytes) (lines : List Int) :
    (∃ p, (handleSetBreakpointsRequest host path lines s).1 = .error p) ↔ (!s.hasDebugger && s.reads host path) = true := by
  rw [handleSetBreakpointsRequest,bind_ok (view_run _ s),Session.reads]
  cases pathLocation host (s.requestedPath path) with
  | error message => simp [send,emit]
  | ok location =>
    cases debugger : s.hasDebugger with
    | false => simp [tell,useDebugger,bind_run,debugger]
    | true =>
      have held : ({ s with outputs := s.outputs ++ [.clearBreakpointsForLocation location] } : Session).hasDebugger = true :=
        debugger
      dsimp only
      rw [bind_ok (tell_ok debugger),bind_ok (addBreakpoints_ok held location lines)]
      simp [send,emit]

theorem dispatchRequest_panics (sound : s.Sound host) (r : Request) :
    (∃ p, (dispatchRequest host r s).1 = .error p) ↔ r.panics host s = true := by
  -- each request is executed, after a split on the fields of the session that it reads
  cases r with
  | variablesRequest world reference =>
    simp [dispatchRequest,handleVariablesRequest_ok sound world reference,Request.panics]
  | setBreakpointsRequest path lines => exact handleSetBreakpointsRequest_panics path lines
  | launchRequest arguments =>
    obtain ⟨_ | ⟨path,code⟩ | _,stopOnEntry⟩ := arguments
    · simp [dispatchRequest,handleLaunchRequest,startDebugger,setTargetDepth,send,emit,bind_run,Request.panics]
    · cases stopOnEntry <;> cases done : s.configurationDone <;> cases launched : s.launched <;>
        cases answers : host.startDebugger <;>
        simp [dispatchRequest,handleLaunchRequest,startDebugger,setTargetDepth,send,emit,runIf,run,tell,useDebugger,bind_run,
          Request.panics,Host.unfitFor,done,launched,answers]
    · simp [dispatchRequest,handleLaunchRequest,startDebugger,setTargetDepth,bind_run,Request.panics]
  | attachRequest =>
    cases answers : host.startDebugger <;>
      simp [dispatchRequest,handleAttachRequest,run,startDebugger,setTargetDepth,useDebugger,send,emit,bind_run,
        Request.panics,Host.unfitFor,answers]
  | configurationDoneRequest =>
    cases requested : s.launchRequested <;> cases launched : s.launched <;> cases entry : s.stopOnEntry <;>
      cases answers : host.startDebugger <;>
      simp [dispatchRequest,handleConfigurationDoneRequest,runIf,run,startDebugger,tell,useDebugger,send,emit,bind_run,
        Request.panics,Host.unfitFor,requested,launched,entry,answers]
  | nextRequest | stepOutRequest =>
    cases debugger : s.hasDebugger <;> cases stop : s.stop <;>
      simp [dispatchRequest,handleNextRequest,handleStepOutRequest,currentDepth,setTargetDepth,step,tell,useDebugger,send,emit,
        bind_run,Request.panics,debugger,stop]
  | stackTraceRequest shown =>
    cases stop : s.stop <;> simp [dispatchRequest,handleStackTraceRequest,send,emit,bind_run,Request.panics,stop]
  | sourceRequest shown path =>
    cases answers : host.isBlockchain with
    | false => simp [dispatchRequest,handleSourceRequest,pathCode,bind_run,Request.panics,answers]
    | true =>
      have looked : ∃ code, pathCode host shown path = .ok code := by
        unfold pathCode
        split_ifs
        · exact ⟨_,rfl⟩
        · split <;> exact ⟨_,rfl⟩
      obtain ⟨code,looked⟩ := looked
      by_cases none : code = [] <;>
        simp [dispatchRequest,handleSourceRequest,bind_run,looked,none,send,emit,Request.panics,answers]
  | evaluateRequest shown expression =>
    cases stop : s.stop with
    | none => simp [dispatchRequest,handleEvaluateRequest,send,emit,bind_run,Request.panics,stop]
    | some _ =>
      have debugger : s.hasDebugger = true := sound.stopped (by rw [stop]; rfl)
      cases found : shown.find expression <;>
        simp [dispatchRequest,handleEvaluateRequest,useDebugger,send,emit,bind_run,Request.panics,stop,debugger,found]
  | _ =>
    cases debugger : s.hasDebugger <;>
      simp [dispatchRequest,handleInitialize,handleDisconnectRequest,handleThreadsRequest,handlePauseRequest,handleStepInRequest,
        handleContinueRequest,handleScopesRequest,startDebugger,endDebugging,setTargetDepth,step,tell,useDebugger,send,emit,
        bind_run,Request.panics,debugger]

end

end FlowEmulator.Debugger
