import FlowEmulator.Fallible
import FlowEmulator.Pieces
import FlowEmulator.Types

/-!
A session of the debugger: the requests of a client, and the stops of the
interpreter. The session keeps a target depth that decides which stops the client
is told of, and a table of the values it has handed out handles for. What it
sends to the client, and what it tells the interpreter, is kept in order. The
session asks an emulator to start a debugger, and the answer can be none: this is
what the blockchain answers, whose debugger is never set.
-/
namespace FlowEmulator.Debugger
open FlowEmulator.Fallible FlowEmulator.Pieces
open FlowEmulator.Text (Bytes ascii hexEncode)

structure AccountAddress where
  bytes : Bytes
  size : bytes.length = 8
deriving DecidableEq

/-- Where code comes from: a script, a transaction, or a contract of an account. -/
inductive Location where
  | script (id : Identifier)
  | transaction (id : Identifier)
  | address (account : AccountAddress) (name : Bytes)
deriving DecidableEq

/-- What a session uses of others: whether the emulator answers with a debugger
    when it is to start one, and whether it is the blockchain itself; the identifier
    of a code; and of Cadence, how locations print and which of them, if any, a type
    ID is of. -/
structure Host where
  startDebugger : Bool
  isBlockchain : Bool
  makeIDFromFingerPrint : String → Identifier
  locationString : Location → Bytes
  decodeTypeID : Bytes → Except String (Option Location)

inductive CompositeKind where
  | struct
  | resource
  | event
  | contract
  | enum
  | attachment
deriving DecidableEq

/-- A value of Cadence, with the texts that are shown for it and its type. The
    keys of a dictionary are given by their texts. -/
inductive Value where
  | composite (kind : CompositeKind) (text type : String) (fields : List (String × Value))
  | array (text type : String) (values : List Value)
  | dictionary (text type : String) (pairs : List (String × Value))
  | simple (text type : String)

def Value.text : Value → String
  | .composite _ text _ _ | .array text _ _ | .dictionary text _ _ | .simple text _ => text

def Value.type : Value → String
  | .composite _ _ type _ | .array _ type _ | .dictionary _ type _ | .simple _ type => type

/-- The values that get a handle. -/
def Value.expandable : Value → Bool
  | .dictionary .. | .array .. | .composite .struct .. | .composite .resource .. => true
  | _ => false

/-- What a handle can stand for. Accounts are of the type of the emulator; the
    session also asks for the account type of the client library and for values of
    the interpreter. -/
inductive Stored where
  | account (address : Address)
  | sdkAccount (address : Address)
  | interpreterValue
  | cadence (value : Value)

structure Variable where
  name : String
  value : String
  type : String
  kind : String
  visibility : String
  variablesReference : Nat
deriving DecidableEq

/-- A stop of the interpreter: the depth of its call stack and the location it is at. -/
structure Stop where
  depth : Nat
  location : Location
deriving DecidableEq

structure Position where
  line : Int
  column : Int

/-- A part of the code, with the position of its last character. -/
structure Positioned where
  startPosition : Position
  endPosition : Position

structure StackFrame where
  path : Bytes
  line : Int
  column : Int
  endLine : Int
  endColumn : Int
deriving DecidableEq

structure Breakpoint where
  path : Bytes
  verified : Bool
deriving DecidableEq

/-- Messages to the client. -/
inductive Message where
  | initializeResponse
  | initializedEvent
  | launchResponse
  | configurationDoneResponse
  | disconnectResponse
  | threadsResponse
  | pauseResponse
  | nextResponse
  | stepInResponse
  | stepOutResponse
  | continueResponse
  | scopesResponse (references : List Nat)
  | variablesResponse (listed : List Variable)
  | setBreakpointsResponse (breakpoints : List Breakpoint)
  | stackTraceResponse (stackFrames : List StackFrame)
  | sourceResponse (content : Bytes)
  | evaluateResponse (result : String)
  | errorResponse (format : String) (named : List (String × Bytes))
  | stoppedEvent
  | outputEvent (category output : String)
  | exitedEvent (exitCode : Nat)
  | terminatedEvent
deriving DecidableEq

/-- What the session does to others: send a message, ask the interpreter to
    pause at its next statement, let it run on, or change its breakpoints. -/
inductive Output where
  | send (message : Message)
  | requestPause
  | resume
  | clearBreakpointsForLocation (location : Option Location)
  | addBreakpoint (location : Option Location) (line : Nat)
deriving DecidableEq

/-- What crashes the session. -/
inductive Panic where
  | nilPointer
  | typeAssertion
  | exportValue
deriving DecidableEq

structure Session where
  variableTable : Nat → Option Stored
  variableHandleCounter : Nat
  hasDebugger : Bool
  stop : Option Stop
  code : String
  scriptLocation : Bytes
  scriptID : Bytes
  stopOnEntry : Bool
  configurationDone : Bool
  launchRequested : Bool
  launched : Bool
  targetDepth : Int
  activeDebuggingSession : Bool
  outputs : List Output

/-- A session before its first request. -/
def newSession : Session where
  variableTable := fun _ => none
  variableHandleCounter := 0
  hasDebugger := false
  stop := none
  code := ""
  scriptLocation := []
  scriptID := []
  stopOnEntry := false
  configurationDone := false
  launchRequested := false
  launched := false
  targetDepth := 0
  activeDebuggingSession := false
  outputs := []

abbrev DebugM := Fallible Panic Session

def emit (output : Output) : DebugM Unit := update fun s => { s with outputs := s.outputs ++ [output] }

def send (message : Message) : DebugM Unit := emit (.send message)

/-- The debugger is used, and has to be there. -/
def useDebugger : DebugM Unit := do
  let hasDebugger ← view Session.hasDebugger
  if hasDebugger then pure () else fail .nilPointer

/-- Tell the interpreter something. -/
def tell (output : Output) : DebugM Unit := do
  useDebugger
  emit output

def startDebugger (host : Host) : DebugM Unit :=
  update fun s => { s with hasDebugger := host.startDebugger, activeDebuggingSession := true }

def endDebugging : DebugM Unit := update fun s => { s with activeDebuggingSession := false }

/-! ### Stepping -/

def step : DebugM Unit := do
  tell .requestPause
  tell .resume

/-- The depth of the call stack at the last stop. -/
def currentDepth : DebugM Nat := do
  let stop ← view Session.stop
  match stop with
  | some stop => pure stop.depth
  | none => fail .nilPointer

def setTargetDepth (depth : Int) : DebugM Unit := update fun s => { s with targetDepth := depth }

def handleNextRequest : DebugM Unit := do
  let depth ← currentDepth
  setTargetDepth depth
  step
  send .nextResponse

def handleStepInRequest : DebugM Unit := do
  setTargetDepth (-1)
  step
  send .stepInResponse

def handleStepOutRequest : DebugM Unit := do
  let depth ← currentDepth
  setTargetDepth (depth-1)
  step
  send .stepOutResponse

def handleContinueRequest : DebugM Unit := do
  update fun s => { s with stop := none }
  tell .resume
  send .continueResponse

def handlePauseRequest : DebugM Unit := do
  tell .requestPause
  send .pauseResponse

/-- What is done when the interpreter has stopped. -/
def receiveStop (stop : Stop) : DebugM Unit := do
  update fun s => { s with stop := some stop }
  let targetDepth ← view Session.targetDepth
  if targetDepth = -1 ∨ (stop.depth : Int) ≤ targetDepth then send .stoppedEvent else step

/-! ### Starting and ending -/

/-- Start to listen for stops, and to execute the code if there is some. The
    listener asks the debugger for its stops at once. -/
def run (host : Host) : DebugM Unit := do
  startDebugger host
  let stopOnEntry ← view Session.stopOnEntry
  if stopOnEntry then tell .requestPause else pure ()
  useDebugger
  update fun s => { s with variableHandleCounter := 0, variableTable := fun _ => none, launched := true }

/-- The program of a launch: a file with the code that was read from it, or something that is not a text. -/
inductive Program where
  | file (path : Bytes) (code : String)
  | malformed

structure LaunchArguments where
  program : Option Program
  stopOnEntry : Bool

def handleInitialize (host : Host) : DebugM Unit := do
  startDebugger host
  send .initializeResponse
  send .initializedEvent

def runIf (host : Host) (condition : Session → Bool) : DebugM Unit := do
  let now ← view fun s => condition s && !s.launched
  if now then run host else pure ()

def handleLaunchRequest (host : Host) (arguments : LaunchArguments) : DebugM Unit := do
  startDebugger host
  setTargetDepth 1
  match arguments.program with
  | none => send (.errorResponse "Missing program" [])
  | some .malformed => fail .typeAssertion
  | some (.file path code) =>
    update fun s => { s with
      code := code
      stopOnEntry := arguments.stopOnEntry
      scriptID := hexEncode (host.makeIDFromFingerPrint code).bytes
      scriptLocation := path
      launchRequested := true }
    send .launchResponse
    runIf host Session.configurationDone

def handleAttachRequest (host : Host) : DebugM Unit := do
  setTargetDepth 1
  update fun s => { s with stopOnEntry := false }
  startDebugger host
  run host
  send .launchResponse

def handleConfigurationDoneRequest (host : Host) : DebugM Unit := do
  update fun s => { s with configurationDone := true }
  runIf host Session.launchRequested
  send .configurationDoneResponse

def handleDisconnectRequest : DebugM Unit := do
  tell .resume
  endDebugging
  update fun s => { s with configurationDone := false, launchRequested := false }
  send .disconnectResponse

def handleThreadsRequest : DebugM Unit := send .threadsResponse

/-- What is done when the script has ended: with an error, or with a value, given
    by its text, that is missing where the script itself has failed. -/
def scriptEnded (result : Except String (Option String)) : DebugM Unit := do
  match result with
  | .ok (some output) =>
    send (.outputEvent "stdout" output)
    send (.exitedEvent 0)
  | .ok none => fail .nilPointer
  | .error message =>
    send (.outputEvent "stderr" message)
    send (.exitedEvent 1)
  send .terminatedEvent
  endDebugging

/-! ### Variables -/

def scopeIdentifierLocal : Nat := 10000
def scopeIdentifierGlobal : Nat := 10001
def scopeIdentifierStorage : Nat := 10002

def handleScopesRequest : DebugM Unit := send (.scopesResponse [scopeIdentifierLocal,scopeIdentifierStorage])

/-- What the interpreter and the emulator answer at the time of a request: the
    variables of the current function, those that cannot be exported without a
    value; the accounts by their indexes from 1 on, up to the first index that has
    none; the entries of an account's storage, by a text or another key; and the
    order in which the fields of a value are taken. -/
structure World where
  locals : List (String × Option Value)
  accounts : List Address
  storage : Address → List (Option String × Option Value)
  fieldOrder : List (String × Value) → List (String × Value)
  fieldOrder_perm : ∀ fields, (fieldOrder fields).Perm fields

/-- The text of an address, in 16 hexadecimal digits. -/
def addressText (address : Address) : String :=
  String.ofList ((List.range 16).map fun i => Nat.digitChar (address / 16^(15-i) % 16))

def storeVariable (value : Stored) : DebugM Nat := do
  update fun s => { s with
    variableHandleCounter := s.variableHandleCounter+1
    variableTable := Function.update s.variableTable (s.variableHandleCounter+1) (some value) }
  view Session.variableHandleCounter

def convertValueToDAPVariable (name : String) (value : Value) : DebugM Variable := do
  let referenceHandle ← if value.expandable then storeVariable (.cadence value) else pure 0
  pure ⟨name,value.text,value.type,"property","private",referenceHandle⟩

def accountVariable (address : Address) : DebugM Variable := do
  let referenceHandle ← storeVariable (.account address)
  pure ⟨addressText address,"FlowAccount","FlowAccount","class","public",referenceHandle⟩

/-- What is listed in an answer: an account, or a value under a name. -/
inductive Entry where
  | account (address : Address)
  | value (name : String) (value : Value)

def Entry.variable : Entry → DebugM Variable
  | .account address => accountVariable address
  | .value name shown => convertValueToDAPVariable name shown

/-- The variables for some entries, in order. -/
def convertEntries : List Entry → DebugM (List Variable)
  | [] => pure []
  | entry :: rest => do
    let first ← entry.variable
    let later ← convertEntries rest
    pure (first :: later)

/-- The members of a value. -/
def Value.members (world : World) : Value → List Entry
  | .composite _ _ _ fields => (world.fieldOrder fields).map fun field => .value field.1 field.2
  | .array _ _ values => values.mapIdx fun i value => .value s!"[{i}]" value
  | .dictionary _ _ pairs => pairs.map fun pair => .value pair.1 pair.2
  | .simple .. => []

/-- The values of a function that are shown: not the built-in ones, and `self`
    only outside the script. -/
def localEntries (host : Host) (world : World) (s : Session) (stop : Stop) : List Entry :=
  world.locals.filterMap fun (name,exported) =>
    if host.locationString stop.location = s.scriptID ∧ name = "self" then none
    else if name = "BLS" ∨ name = "RLP" then none
    else exported.map (.value name)

/-- The entries of a storage that have a text as their key. A value that cannot be exported is not expected. -/
def storageEntries : List (Option String × Option Value) → Except Panic (List Entry)
  | [] => .ok []
  | (_,none) :: _ => .error .exportValue
  | (none,some _) :: rest => storageEntries rest
  | (some name,some value) :: rest => (storageEntries rest).map (.value name value :: ·)

/-- What a reference is taken for. -/
inductive Resolution where
  | localScope
  | storageScope
  | storageOf (address : Address)
  | membersOf (value : Value)
  | nothing

/-- The scopes come first, then the table is asked. An account of the emulator's
    own type is none of the cases. -/
def resolve (reference : Nat) (s : Session) : Resolution :=
  if reference = scopeIdentifierLocal then .localScope
  else if reference = scopeIdentifierStorage then .storageScope
  else match s.variableTable reference with
    | some (.sdkAccount address) => .storageOf address
    | some .interpreterValue => .nothing
    | some (.cadence value) => .membersOf value
    | some (.account _) | none => .nothing

/-- The entries an answer lists. -/
def entriesOf (host : Host) (world : World) (s : Session) (stop : Stop) : Resolution → Except Panic (List Entry)
  | .localScope => .ok (localEntries host world s stop)
  | .storageScope => .ok (world.accounts.map .account)
  | .storageOf address => storageEntries (world.storage address)
  | .membersOf value => .ok (value.members world)
  | .nothing => .ok []

/-- A request for the local scope begins the table anew, and asks the debugger for the current function. -/
def resetVariables : Resolution → DebugM Unit
  | .localScope => do
    update fun s => { s with variableHandleCounter := 0, variableTable := fun _ => none }
    useDebugger
  | _ => pure ()

/-- The variables of the answer to a request at a stop. -/
def requestedVariables (host : Host) (world : World) (reference : Nat) (stop : Stop) : DebugM (List Variable) := do
  let resolution ← view (resolve reference)
  resetVariables resolution
  let entries ← attempt fun s => entriesOf host world s stop resolution
  convertEntries entries

def handleVariablesRequest (host : Host) (world : World) (reference : Nat) : DebugM Unit := do
  let stop ← view Session.stop
  match stop with
  | none => send (.errorResponse "invalid request" [])
  | some stop =>
    let listed ← requestedVariables host world reference stop
    send (.variablesResponse listed)

/-! ### Paths -/

def locationPath (host : Host) (location : Location) : Bytes := host.locationString location ++ ascii ".cdc"

def pathLocation (host : Host) (path : Bytes) : Except String (Option Location) :=
  let basename := trimSuffix (ascii ".cdc") path
  let script := if basename.count 46 = 0 then host.decodeTypeID (ascii "s." ++ basename) else .ok none
  match script with
  | .ok (some location) => .ok (some location)
  | _ => host.decodeTypeID (ascii "A." ++ if basename.count 46 < 3 then basename ++ ascii "._" else basename)

/-- The script that was launched is shown under the path it was launched from. -/
def newStackFrame (host : Host) (s : Session) (positioned : Positioned) (location : Location) : StackFrame where
  path := if host.locationString location = s.scriptID then s.scriptLocation else locationPath host location
  line := positioned.startPosition.line
  column := positioned.startPosition.column+1
  endLine := positioned.endPosition.line
  endColumn := positioned.endPosition.column+2

/-- What the interpreter and the emulator show at the time of a request: the
    statement it has stopped at, the calls that lead there, those of built-in
    functions without a location, the variables by name, the code that is running,
    and the contracts of accounts. -/
structure View where
  statement : Positioned
  callStack : List (Positioned × Option Location)
  find : Bytes → Option String
  currentScript : Bytes × Bytes
  contracts : AccountAddress → Option (Bytes → Option Bytes)

/-- The frame of the stop, then those of the calls from the last one on. -/
def stackFrames (host : Host) (shown : View) (s : Session) (stop : Stop) : List StackFrame :=
  newStackFrame host s shown.statement stop.location :: shown.callStack.reverse.filterMap fun (positioned,location) =>
    location.map (newStackFrame host s positioned)

def handleStackTraceRequest (host : Host) (shown : View) : DebugM Unit := do
  let s ← view id
  match s.stop with
  | none => send (.errorResponse "invalid request" [])
  | some stop => send (.stackTraceResponse (stackFrames host shown s stop))

/-- The code that is shown for a path: the one that is running, or a contract.
    Only the blockchain is asked for it. The location of a path is never a file, so
    it is not the launched program. -/
def pathCode (host : Host) (shown : View) (path : Bytes) : Except Panic Bytes :=
  if host.isBlockchain then
    if trimSuffix (ascii ".cdc") path = shown.currentScript.1 then .ok shown.currentScript.2
    else match pathLocation host path with
      | .ok (some (.address account name)) => .ok (((shown.contracts account).bind (· name)).getD [])
      | _ => .ok []
  else .error .typeAssertion

def handleSourceRequest (host : Host) (shown : View) (path : Bytes) : DebugM Unit := do
  let code ← attempt fun _ => pathCode host shown path
  if code = [] then send (.errorResponse "unknown source: \x7bpath\x7d" [("path",path)])
  else send (.sourceResponse code)

def handleEvaluateRequest (shown : View) (expression : Bytes) : DebugM Unit := do
  let stop ← view Session.stop
  match stop with
  | none => send (.errorResponse "invalid request" [])
  | some _ =>
    useDebugger
    match shown.find expression with
    | none => send (.errorResponse "unknown variable: \x7bname\x7d" [("name",expression)])
    | some value => send (.evaluateResponse value)

/-- A line number of the client as a machine word. -/
def uint (line : Int) : Nat := (line % 2^64).toNat

/-- The launched script is known to the interpreter by its identifier. -/
def Session.requestedPath (s : Session) (path : Bytes) : Bytes := if path = s.scriptLocation then s.scriptID else path

def addBreakpoints (location : Option Location) : List Int → DebugM Unit
  | [] => pure ()
  | line :: rest => do
    tell (.addBreakpoint location (uint line))
    addBreakpoints location rest

def handleSetBreakpointsRequest (host : Host) (path : Bytes) (lines : List Int) : DebugM Unit := do
  let known ← view fun s => s.requestedPath path
  match pathLocation host known with
  | .error _ => send (.errorResponse "cannot add breakpoints for path: \x7bpath\x7d" [("path",known)])
  | .ok location =>
    tell (.clearBreakpointsForLocation location)
    addBreakpoints location lines
    send (.setBreakpointsResponse (lines.map fun _ => ⟨path,true⟩))

/-! ### Requests -/

inductive Request where
  | initializeRequest
  | launchRequest (arguments : LaunchArguments)
  | attachRequest
  | configurationDoneRequest
  | disconnectRequest
  | threadsRequest
  | pauseRequest
  | nextRequest
  | stepInRequest
  | stepOutRequest
  | continueRequest
  | scopesRequest
  | variablesRequest (world : World) (reference : Nat)
  | setBreakpointsRequest (path : Bytes) (lines : List Int)
  | stackTraceRequest (shown : View)
  | sourceRequest (shown : View) (path : Bytes)
  | evaluateRequest (shown : View) (expression : Bytes)
  | unhandled (command : String)

def dispatchRequest (host : Host) : Request → DebugM Unit
  | .initializeRequest => handleInitialize host
  | .launchRequest arguments => handleLaunchRequest host arguments
  | .attachRequest => handleAttachRequest host
  | .configurationDoneRequest => handleConfigurationDoneRequest host
  | .disconnectRequest => handleDisconnectRequest
  | .threadsRequest => handleThreadsRequest
  | .pauseRequest => handlePauseRequest
  | .nextRequest => handleNextRequest
  | .stepInRequest => handleStepInRequest
  | .stepOutRequest => handleStepOutRequest
  | .continueRequest => handleContinueRequest
  | .scopesRequest => handleScopesRequest
  | .variablesRequest world reference => handleVariablesRequest host world reference
  | .setBreakpointsRequest path lines => handleSetBreakpointsRequest host path lines
  | .stackTraceRequest shown => handleStackTraceRequest host shown
  | .sourceRequest shown path => handleSourceRequest host shown path
  | .evaluateRequest shown expression => handleEvaluateRequest shown expression
  | .unhandled _ => pure ()

/-- What happens to a session: a request, a stop of the interpreter, or the end of the script. -/
inductive Input where
  | request (r : Request)
  | stopped (stop : Stop)
  | ended (result : Except String (Option String))

def react (host : Host) : Input → DebugM Unit
  | .request r => dispatchRequest host r
  | .stopped stop => receiveStop stop
  | .ended result => scriptEnded result

/-- What can happen: stops come to the listener of a debugger, and scripts end, once they were launched. -/
def Session.awaits (s : Session) : Input → Bool
  | .request _ => true
  | .stopped _ => s.launched && s.hasDebugger
  | .ended _ => s.launched

end FlowEmulator.Debugger
