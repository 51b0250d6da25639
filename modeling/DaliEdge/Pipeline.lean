import DaliEdge.Transaction

/-!
# The protocol pipeline and its clients

A pipeline is a command queue, a transaction service and a quality tracker. The query client
and the control component both put one request into the queue and then let the pipeline
process whatever request is at its head.
-/

namespace DaliEdge

structure ProcessedDaliRequest where
  request : DaliRequest := {}
  result : DaliTransactionResult := {}
  deriving DecidableEq

structure DaliProtocolPipeline where
  queue : DaliCommandQueue := .initial
  quality : CommunicationQualityTracker := {}

/-- A pipeline together with the bus that its transaction service drives. -/
structure Station (σ : Type*) where
  pipeline : DaliProtocolPipeline
  bus : Bus σ

namespace Station

variable {σ : Type*}

def initial (state : σ) : Station σ := ⟨{}, ⟨state, []⟩⟩

/-- The requests that wait in the pipeline, most urgent first. -/
def waiting (st : Station σ) : List DaliRequest := st.pipeline.queue.contents

def enqueue (request : DaliRequest) (st : Station σ) : QueueResult × Station σ :=
  let r := st.pipeline.queue.enqueue request
  (r.1, ⟨{ st.pipeline with queue := r.2 }, st.bus⟩)

def processNext (service : DaliTransactionService σ) (st : Station σ) :
    Option ProcessedDaliRequest × Station σ :=
  let popped := st.pipeline.queue.pop
  match popped.1 with
  | none => (none, ⟨{ st.pipeline with queue := popped.2 }, st.bus⟩)
  | some request =>
      let executed := service.execute request st.bus
      (some ⟨request, executed.1⟩,
        ⟨⟨popped.2, st.pipeline.quality.record executed.1⟩, executed.2⟩)

end Station

inductive DaliQueryOutcome
  | ok | noResponse | collision | busy | busFailure | hardwareFailure | queueFull | invalid
  deriving DecidableEq

structure DaliQueryResult where
  outcome : DaliQueryOutcome := .invalid
  response : Reading UInt8 := .initial 0
  attempts : UInt8 := 0
  phyResult : PhyResult := .internalError
  deriving DecidableEq

/-- Any query client: what a query returns, and what it leaves of the client's state. -/
structure IDaliQueryClient (σ : Type*) where
  query : ShortAddress → DaliCommand → CommandPriority → σ → DaliQueryResult × σ

def outcomeFromResult (result : DaliTransactionResult) : DaliQueryOutcome :=
  if result.status = .ok ∧ result.response.isSome then .ok
  else match result.lastPhyResult with
    | .timeout => .noResponse
    | .collision => .collision
    | .busy => .busy
    | .busPowerLost => .busFailure
    | .transceiverFault | .notInitialised | .internalError => .hardwareFailure
    | .invalidArgument | .ok => .invalid

def readingForResult (result : DaliTransactionResult) (outcome : DaliQueryOutcome) :
    Reading UInt8 :=
  match outcome, result.response with
  | .ok, some value => .valid value 0 0
  | .noResponse, _ | .collision, _ | .busy, _ => .temporarilyUnavailable 0
  | _, _ => .invalid 0

structure PipelineQueryClient where
  timeoutMs : UInt32 := 20
  maximumRetries : UInt8 := 3
  nextSequence : UInt32 := 1
  deriving DecidableEq

namespace PipelineQueryClient

variable {σ : Type*}

def request (client : PipelineQueryClient) (address : ShortAddress) (command : DaliCommand)
    (priority : CommandPriority) : DaliRequest where
  frame := makeShortCommand address command
  expectsResponse := true
  timeoutMs := client.timeoutMs
  maxRetries := client.maximumRetries
  priority := priority
  deviceKey := address.value
  requestSequence := client.nextSequence

def query (service : DaliTransactionService σ) (client : PipelineQueryClient)
    (address : ShortAddress) (command : DaliCommand) (priority : CommandPriority)
    (st : Station σ) : DaliQueryResult × PipelineQueryClient × Station σ :=
  let client' := { client with nextSequence := client.nextSequence + 1 }
  let enqueued := st.enqueue (client.request address command priority)
  if enqueued.1 ≠ .ok then
    (⟨.queueFull, .temporarilyUnavailable 0, 0, .busy⟩, client', enqueued.2)
  else
    let processed := enqueued.2.processNext service
    match processed.1 with
    | none => (⟨.invalid, .invalid 0, 0, .internalError⟩, client', processed.2)
    | some p =>
        let outcome := outcomeFromResult p.result
        (⟨outcome, readingForResult p.result outcome, p.result.attempts, p.result.lastPhyResult⟩,
          client', processed.2)

/-- The query client as the interface that the device manager is given. -/
def toQueryClient (service : DaliTransactionService σ) :
    IDaliQueryClient (PipelineQueryClient × Station σ) where
  query address command priority s := query service s.1 address command priority s.2

end PipelineQueryClient

inductive ControlResult
  | ok | queueFull | transactionFailed | invalidArgument
  deriving DecidableEq

structure DaliControl where
  timeoutMs : UInt32 := 20
  maxRetries : UInt8 := 3
  nextSequence : UInt32 := 1
  deriving DecidableEq

namespace DaliControl

variable {σ : Type*} (service : DaliTransactionService σ) (control : DaliControl)

def request (frame : ForwardFrame) (deviceKey : UInt8) (priority : CommandPriority) :
    DaliRequest where
  frame := frame
  expectsResponse := false
  timeoutMs := control.timeoutMs
  maxRetries := control.maxRetries
  priority := priority
  deviceKey := deviceKey
  requestSequence := control.nextSequence

def submit (frame : ForwardFrame) (deviceKey : UInt8) (priority : CommandPriority)
    (st : Station σ) : ControlResult × DaliControl × Station σ :=
  let control' := { control with nextSequence := control.nextSequence + 1 }
  let enqueued := st.enqueue (control.request frame deviceKey priority)
  if enqueued.1 ≠ .ok then (.queueFull, control', enqueued.2)
  else
    let processed := enqueued.2.processNext service
    match processed.1 with
    | none => (.transactionFailed, control', processed.2)
    | some p => (if p.result.status = .ok then .ok else .transactionFailed, control', processed.2)

def sendShort (address : ShortAddress) (command : DaliCommand) (priority : CommandPriority)
    (st : Station σ) : ControlResult × DaliControl × Station σ :=
  control.submit service (makeShortCommand address command) address.value priority st

def sendGroup (address : GroupAddress) (command : DaliCommand) (priority : CommandPriority)
    (st : Station σ) : ControlResult × DaliControl × Station σ :=
  control.submit service (makeGroupCommand address command) ((0x80 : UInt8) ||| address.value)
    priority st

def sendBroadcast (command : DaliCommand) (priority : CommandPriority) (st : Station σ) :
    ControlResult × DaliControl × Station σ :=
  control.submit service (makeBroadcastCommand command) 0xFF priority st

def setShortLevel (address : ShortAddress) (level : UInt8) (priority : CommandPriority)
    (st : Station σ) : ControlResult × DaliControl × Station σ :=
  match ArcLevel.fromRaw level with
  | none => (.invalidArgument, control, st)
  | some arc => control.submit service (makeShortArc address arc) address.value priority st

def setGroupLevel (address : GroupAddress) (level : UInt8) (priority : CommandPriority)
    (st : Station σ) : ControlResult × DaliControl × Station σ :=
  match ArcLevel.fromRaw level with
  | none => (.invalidArgument, control, st)
  | some arc =>
      control.submit service (makeGroupArc address arc) ((0x80 : UInt8) ||| address.value)
        priority st

def sendSpecial (command : DaliSpecialCommand) (parameter : UInt8) (priority : CommandPriority)
    (st : Station σ) : ControlResult × DaliControl × Station σ :=
  control.submit service (makeSpecialCommand command parameter) 0xFF priority st

def setDtr0 (value : UInt8) (priority : CommandPriority) (st : Station σ) :
    ControlResult × DaliControl × Station σ :=
  control.sendSpecial service .setDtr0 value priority st

end DaliControl

end DaliEdge
