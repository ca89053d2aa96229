import FlowEmulator.DebugRuns
import Mathlib.Data.List.Basic

/-!
Which stops of the interpreter the client of a debug session is told of. The
target depth alone decides this for each stop. The step requests set it, and
letting the interpreter run on leaves it as it was. So stepping stops where it
should, unless the depth to step out of is 0, and running on is cut short at a
stop only if the depth of an earlier request happens to allow it.
-/
namespace FlowEmulator.Debugger
open FlowEmulator.Fallible FlowEmulator.Run

/-- The first of some stops that the client is told of. -/
def firstReported : List Stop → Session → Option Nat
  | [], _ => none
  | stop :: rest, s =>
    if .send .stoppedEvent ∈ putOut (receiveStop stop) s then some 0
    else (firstReported rest (receiveStop stop s).2).map (· + 1)

/-- The requests that let the interpreter go on. -/
inductive Going where
  | next
  | stepIn
  | stepOut
  | onward
deriving DecidableEq

def Going.request : Going → Request
  | .next => .nextRequest
  | .stepIn => .stepInRequest
  | .stepOut => .stepOutRequest
  | .onward => .continueRequest

/-- The depth of the last stop. -/
def Session.depth (s : Session) : Nat := (s.stop.map Stop.depth).getD 0

/-- The stops the client is to be told of after a request at a depth. -/
def Going.due (depth : Nat) : Going → Stop → Bool
  | .next, stop => stop.depth ≤ depth
  | .stepOut, stop => stop.depth < depth
  | .stepIn, _ | .onward, _ => true

/-- The target depth after a request. -/
def Going.target (s : Session) : Going → Int
  | .next => s.depth
  | .stepIn => -1
  | .stepOut => s.depth-1
  | .onward => s.targetDepth

/-- The target depth lets a stop through. -/
def passes (target : Int) (stop : Stop) : Bool := target = -1 ∨ (stop.depth : Int) ≤ target

/-- The client is told of the right stop: there is a depth to step out of, and
    running on meets a stop that the target depth lets through. -/
def Going.Served (s : Session) (stops : List Stop) : Going → Prop
  | .next | .stepIn => True
  | .stepOut => stops = [] ∨ 0 < s.depth
  | .onward => ∀ stop ∈ stops.head?, passes s.targetDepth stop

section
variable {s after : Session}

theorem tell_ok {output : Output} (debugger : s.hasDebugger = true) :
    tell output s = (.ok (),{ s with outputs := s.outputs ++ [output] }) := by
  simp [tell,useDebugger,bind_run,debugger,emit]

theorem step_ok (debugger : s.hasDebugger = true) :
    step s = (.ok (),{ s with outputs := s.outputs ++ [.requestPause,.resume] }) := by
  have second : ({ s with outputs := s.outputs ++ [.requestPause] } : Session).hasDebugger = true := debugger
  rw [step,bind_ok (tell_ok debugger),tell_ok second]
  simp

/-- A stop is reported, or stepped over, as the target depth says. -/
theorem receiveStop_ok (debugger : s.hasDebugger = true) (stop : Stop) : receiveStop stop s =
    (.ok (),{ s with stop := some stop, outputs := s.outputs ++ (if passes s.targetDepth stop then [.send .stoppedEvent]
      else [.requestPause,.resume]) }) := by
  have held : ({ s with stop := some stop } : Session).hasDebugger = true := debugger
  rw [receiveStop,bind_ok (update_run _ s),bind_ok (view_run _ _)]
  by_cases through : s.targetDepth = -1 ∨ (stop.depth : Int) ≤ s.targetDepth
  · simp [through,passes,send,emit]
  · rw [if_neg through,step_ok held]
    simp [through,passes]

theorem reported_iff (debugger : s.hasDebugger = true) (stop : Stop) :
    .send .stoppedEvent ∈ putOut (receiveStop stop) s ↔ passes s.targetDepth stop = true := by
  rw [putOut,receiveStop_ok debugger]
  cases passes s.targetDepth stop <;> simp

/-- The client is told first of the first stop that the target depth lets through. -/
theorem firstReported_eq (debugger : s.hasDebugger = true) (stops : List Stop) :
    firstReported stops s = stops.findIdx? (passes s.targetDepth) := by
  induction stops generalizing s with
  | nil => rfl
  | cons stop rest ih =>
    rw [firstReported,List.findIdx?_cons]
    by_cases through : passes s.targetDepth stop = true
    · simp [(reported_iff debugger stop).mpr through,through]
    · have later : firstReported rest (receiveStop stop s).2 = rest.findIdx? (passes s.targetDepth) := by
        rw [receiveStop_ok debugger]
        exact ih debugger
      simp [mt (reported_iff debugger stop).mp through,through,later]

/-- A request that lets the interpreter go on finds the depth it needs, and sets the target depth or leaves it. -/
theorem going_ok {host : Host} {r : Going} (run : dispatchRequest host r.request s = (.ok (),after)) :
    after.hasDebugger = true ∧ after.targetDepth = r.target s := by
  cases debugger : s.hasDebugger with
  | false =>
    cases r <;> cases stop : s.stop <;>
      simp [dispatchRequest,Going.request,handleNextRequest,handleStepInRequest,handleStepOutRequest,handleContinueRequest,
        currentDepth,setTargetDepth,step,tell,useDebugger,bind_run,debugger,stop] at run
  | true =>
    cases r <;> cases stop : s.stop <;>
      simp [dispatchRequest,Going.request,handleNextRequest,handleStepInRequest,handleStepOutRequest,handleContinueRequest,
        currentDepth,setTargetDepth,step,tell,useDebugger,emit,send,bind_run,debugger,stop] at run <;>
      subst run <;> simp [Going.target,Session.depth,stop]

/-- The first stop with a property is the first of all stops just if that one has it. -/
theorem findIdx?_eq_first_iff {stops : List Stop} {p : Stop → Bool} :
    stops.findIdx? p = stops.findIdx? (fun _ => true) ↔ ∀ stop ∈ stops.head?, p stop = true := by
  cases stops with
  | nil => simp
  | cons stop rest =>
    by_cases found : p stop = true
    · simp [List.findIdx?_cons,found]
    · simp [List.findIdx?_cons,found]

/-- After a request that lets the interpreter go on, the client is told first of
    the stop it waits for exactly if the depths are as the request needs them. -/
theorem firstReported_due_iff {host : Host} {r : Going}
    (run : dispatchRequest host r.request s = (.ok (),after)) (stops : List Stop) :
    firstReported stops after = stops.findIdx? (r.due s.depth) ↔ r.Served s stops := by
  obtain ⟨debugger,target⟩ := going_ok run
  rw [firstReported_eq debugger,target]
  cases r with
  | next =>
    have same : passes (s.depth : Int) = Going.due s.depth .next := by
      funext stop
      have sentinel : ¬ (s.depth : Int) = -1 := by omega
      simp [passes,Going.due,sentinel]
    simp [Going.target,Going.Served,same]
  | stepIn =>
    have same : passes (-1) = Going.due s.depth .stepIn := by
      funext stop
      simp [passes,Going.due]
    simp [Going.target,Going.Served,same]
  | stepOut =>
    by_cases inside : 0 < s.depth
    · have same : passes (s.depth-1 : Int) = Going.due s.depth .stepOut := by
        funext stop
        have sentinel : ¬ (s.depth-1 : Int) = -1 := by omega
        have bound : (stop.depth : Int) ≤ s.depth-1 ↔ stop.depth < s.depth := by omega
        simp [passes,Going.due,sentinel,bound]
      simp [Going.target,Going.Served,same,inside]
    · -- at depth 0 the target is the sentinel, which lets every stop through
      have outside : s.depth = 0 := by omega
      have none : stops.findIdx? (Going.due s.depth .stepOut) = none := by
        simp [outside,Going.due]
      have every : passes (s.depth-1 : Int) = fun _ => true := by
        funext stop
        simp [passes,outside]
      rw [Going.target,none,every]
      cases stops <;> simp [Going.Served,outside,List.findIdx?_cons]
  | onward =>
    have all : Going.due s.depth .onward = fun _ => true := rfl
    rw [Going.target,all,findIdx?_eq_first_iff]
    rfl

end

/-- The interpreter runs on from the entry and stops in a function that is
    called. The depth of the launch is still the target, so the client is not told
    of the stop; nor is it right to be told of a stop after stepping out at depth 0. -/
theorem breakpoint_not_reported : Reached sampleHost (sampleSession sampleHost) ∧ (sampleSession sampleHost).depth = 1 ∧
    (sampleSession sampleHost).targetDepth = 1 ∧
    (dispatchRequest sampleHost .continueRequest (sampleSession sampleHost)).1 = .ok () ∧
    firstReported [⟨2,.script zeroID⟩] (dispatchRequest sampleHost .continueRequest (sampleSession sampleHost)).2 = none ∧
    [⟨2,.script zeroID⟩].findIdx? (Going.due (sampleSession sampleHost).depth .onward) = some 0 ∧
    ∃ top, Reached sampleHost top ∧ top.depth = 0 ∧ (dispatchRequest sampleHost .stepOutRequest top).1 = .ok () ∧
      firstReported [⟨0,.script zeroID⟩] (dispatchRequest sampleHost .stepOutRequest top).2 = some 0 ∧
      [⟨0,.script zeroID⟩].findIdx? (Going.due top.depth .stepOut) = none :=
  ⟨sample_reached rfl,rfl,rfl,rfl,rfl,rfl,_,
    reachable_step (a := .stopped ⟨0,.script zeroID⟩) (sample_reached rfl) ⟨rfl,rfl⟩,rfl,rfl,rfl,rfl⟩

theorem firstReported_due_iff_next : ∃ after,
    dispatchRequest sampleHost .nextRequest (sampleSession sampleHost) = (.ok (),after) ∧
    (firstReported [⟨2,.script zeroID⟩,⟨1,.script zeroID⟩] after =
      [⟨2,.script zeroID⟩,⟨1,.script zeroID⟩].findIdx? (Going.due (sampleSession sampleHost).depth .next) ↔
      Going.Served (sampleSession sampleHost) [⟨2,.script zeroID⟩,⟨1,.script zeroID⟩] .next) ∧
    firstReported [⟨2,.script zeroID⟩,⟨1,.script zeroID⟩] after = some 1 := by
  have run : dispatchRequest sampleHost Going.next.request (sampleSession sampleHost) =
    (.ok (),(dispatchRequest sampleHost .nextRequest (sampleSession sampleHost)).2) := rfl
  exact ⟨_,run,firstReported_due_iff run _,rfl⟩

end FlowEmulator.Debugger
