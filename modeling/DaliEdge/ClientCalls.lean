import DaliEdge.Pipeline
import DaliEdge.Machine

/-!
# Calls of the pipeline's clients

Every call of the query client or of the control component is one of the constructors below.
A call that has a request puts it into the queue and, when the queue takes it, processes the
head of the queue; `transact` is that shared part, and a call's outcome is read off it.
-/

namespace DaliEdge

namespace Station

variable {σ : Type*} (service : DaliTransactionService σ)

theorem enqueue_ok_iff (request : DaliRequest) (st : Station σ) :
    (st.enqueue request).1 = .ok ↔ st.pipeline.queue.count < 64 :=
  st.pipeline.queue.enqueue_ok_iff request

theorem waiting_enqueue (request : DaliRequest) (st : Station σ)
    (h : st.pipeline.queue.count < 64) :
    (st.enqueue request).2.waiting =
      StableQueue.insert DaliRequest.urgency request st.waiting :=
  st.pipeline.queue.contents_enqueue_of_lt request h

theorem enqueue_of_full (request : DaliRequest) (st : Station σ)
    (h : ¬ st.pipeline.queue.count < 64) : st.enqueue request = (.full, st) := by
  have heq : st.pipeline.queue.count = 64 := le_antisymm st.pipeline.queue.count_le (not_lt.1 h)
  rw [enqueue, st.pipeline.queue.enqueue_of_eq request heq]

theorem processNext_of_nil (st : Station σ) (h : st.waiting = []) :
    (st.processNext service).1 = none ∧ (st.processNext service).2.waiting = [] ∧
      (st.processNext service).2.bus = st.bus := by
  obtain ⟨hp, hc⟩ := st.pipeline.queue.pop_eq
  have hnone : st.pipeline.queue.pop.1 = none := by rw [hp]; exact congrArg List.head? h
  rw [processNext]
  simp only [hnone]
  refine ⟨trivial, ?_, trivial⟩
  change st.pipeline.queue.pop.2.contents = []
  rw [hc]
  exact congrArg List.tail h

theorem processNext_of_cons (st : Station σ) {request : DaliRequest} {rest : List DaliRequest}
    (h : st.waiting = request :: rest) :
    (st.processNext service).1 = some ⟨request, (service.execute request st.bus).1⟩ ∧
      (st.processNext service).2.waiting = rest ∧
      (st.processNext service).2.bus = (service.execute request st.bus).2 := by
  obtain ⟨hp, hc⟩ := st.pipeline.queue.pop_eq
  have hsome : st.pipeline.queue.pop.1 = some request := by rw [hp]; exact congrArg List.head? h
  rw [processNext]
  simp only [hsome]
  refine ⟨trivial, ?_, trivial⟩
  change st.pipeline.queue.pop.2.contents = rest
  rw [hc]
  exact congrArg List.tail h

/-- The part that all calls share: enqueue, and on success process the head. -/
def transact (request : DaliRequest) (st : Station σ) :
    QueueResult × Option ProcessedDaliRequest × Station σ :=
  let enqueued := st.enqueue request
  if enqueued.1 ≠ .ok then (enqueued.1, none, enqueued.2)
  else (.ok, enqueued.2.processNext service)

theorem transact_of_full (request : DaliRequest) (st : Station σ)
    (h : ¬ st.pipeline.queue.count < 64) : st.transact service request = (.full, none, st) := by
  rw [transact, enqueue_of_full request st h]
  rfl

theorem transact_of_lt (request : DaliRequest) (st : Station σ)
    (h : st.pipeline.queue.count < 64) :
    st.transact service request = (.ok, (st.enqueue request).2.processNext service) := by
  have hok := (enqueue_ok_iff request st).2 h
  simp only [transact, hok, ne_eq, not_true_eq_false, if_false]

end Station

inductive ClientCall
  | query (client : PipelineQueryClient) (address : ShortAddress) (command : DaliCommand)
      (priority : CommandPriority)
  | sendShort (control : DaliControl) (address : ShortAddress) (command : DaliCommand)
      (priority : CommandPriority)
  | sendGroup (control : DaliControl) (address : GroupAddress) (command : DaliCommand)
      (priority : CommandPriority)
  | sendBroadcast (control : DaliControl) (command : DaliCommand) (priority : CommandPriority)
  | setShortLevel (control : DaliControl) (address : ShortAddress) (level : UInt8)
      (priority : CommandPriority)
  | setGroupLevel (control : DaliControl) (address : GroupAddress) (level : UInt8)
      (priority : CommandPriority)
  | setDtr0 (control : DaliControl) (value : UInt8) (priority : CommandPriority)
  | sendSpecial (control : DaliControl) (command : DaliSpecialCommand) (parameter : UInt8)
      (priority : CommandPriority)

inductive CallOutcome
  | query (result : DaliQueryResult)
  | control (result : ControlResult)
  deriving DecidableEq

/-- The call reports that it put no request into the queue. -/
def CallOutcome.refused : CallOutcome → Bool
  | .query result => result.outcome = .queueFull
  | .control result => result = .queueFull || result = .invalidArgument

namespace ClientCall

variable {σ : Type*} (service : DaliTransactionService σ)

def perform (st : Station σ) : ClientCall → CallOutcome × Station σ
  | .query client address command priority =>
      let r := client.query service address command priority st
      (.query r.1, r.2.2)
  | .sendShort control address command priority =>
      let r := control.sendShort service address command priority st
      (.control r.1, r.2.2)
  | .sendGroup control address command priority =>
      let r := control.sendGroup service address command priority st
      (.control r.1, r.2.2)
  | .sendBroadcast control command priority =>
      let r := control.sendBroadcast service command priority st
      (.control r.1, r.2.2)
  | .setShortLevel control address level priority =>
      let r := control.setShortLevel service address level priority st
      (.control r.1, r.2.2)
  | .setGroupLevel control address level priority =>
      let r := control.setGroupLevel service address level priority st
      (.control r.1, r.2.2)
  | .setDtr0 control value priority =>
      let r := control.setDtr0 service value priority st
      (.control r.1, r.2.2)
  | .sendSpecial control command parameter priority =>
      let r := control.sendSpecial service command parameter priority st
      (.control r.1, r.2.2)

/-- The request that the call puts into the queue; none for a level that is no arc level. -/
def request : ClientCall → Option DaliRequest
  | .query client address command priority => some (client.request address command priority)
  | .sendShort control address command priority =>
      some (control.request (makeShortCommand address command) address.value priority)
  | .sendGroup control address command priority =>
      some (control.request (makeGroupCommand address command) ((0x80 : UInt8) ||| address.value)
        priority)
  | .sendBroadcast control command priority =>
      some (control.request (makeBroadcastCommand command) 0xFF priority)
  | .setShortLevel control address level priority =>
      (ArcLevel.fromRaw level).map fun arc =>
        control.request (makeShortArc address arc) address.value priority
  | .setGroupLevel control address level priority =>
      (ArcLevel.fromRaw level).map fun arc =>
        control.request (makeGroupArc address arc) ((0x80 : UInt8) ||| address.value) priority
  | .setDtr0 control value priority =>
      some (control.request (makeSpecialCommand .setDtr0 value) 0xFF priority)
  | .sendSpecial control command parameter priority =>
      some (control.request (makeSpecialCommand command parameter) 0xFF priority)

def priority : ClientCall → CommandPriority
  | .query _ _ _ priority | .sendShort _ _ _ priority | .sendGroup _ _ _ priority
  | .sendBroadcast _ _ priority | .setShortLevel _ _ _ priority | .setGroupLevel _ _ _ priority
  | .setDtr0 _ _ priority | .sendSpecial _ _ _ priority => priority

def isQuery : ClientCall → Bool
  | .query _ _ _ _ => true
  | _ => false

/-- What a query reports of the queue's answer and the processed request. -/
def queryReport : QueueResult × Option ProcessedDaliRequest → DaliQueryResult
  | (.full, _) => ⟨.queueFull, .temporarilyUnavailable 0, 0, .busy⟩
  | (.ok, none) => ⟨.invalid, .invalid 0, 0, .internalError⟩
  | (.ok, some p) =>
      ⟨outcomeFromResult p.result, readingForResult p.result (outcomeFromResult p.result),
        p.result.attempts, p.result.lastPhyResult⟩

/-- What a control operation reports of the queue's answer and the processed request. -/
def controlReport : QueueResult × Option ProcessedDaliRequest → ControlResult
  | (.full, _) => .queueFull
  | (.ok, none) => .transactionFailed
  | (.ok, some p) => if p.result.status = .ok then .ok else .transactionFailed

def report (call : ClientCall) (r : QueueResult × Option ProcessedDaliRequest) : CallOutcome :=
  if call.isQuery then .query (queryReport r) else .control (controlReport r)

theorem query_eq_transact (client : PipelineQueryClient) (address : ShortAddress)
    (command : DaliCommand) (priority : CommandPriority) (st : Station σ) :
    let r := st.transact service (client.request address command priority)
    (client.query service address command priority st).1 = queryReport (r.1, r.2.1) ∧
      (client.query service address command priority st).2.2 = r.2.2 := by
  by_cases h : st.pipeline.queue.count < 64
  · have hok := (st.enqueue_ok_iff (client.request address command priority)).2 h
    rw [Station.transact_of_lt service _ st h]
    simp only [PipelineQueryClient.query, hok, ne_eq, not_true_eq_false, if_false]
    cases hp : ((st.enqueue (client.request address command priority)).2.processNext service).1 <;>
      exact ⟨rfl, rfl⟩
  · rw [Station.transact_of_full service _ st h, PipelineQueryClient.query,
      st.enqueue_of_full _ h]
    exact ⟨rfl, rfl⟩

theorem submit_eq_transact (control : DaliControl) (frame : ForwardFrame) (deviceKey : UInt8)
    (priority : CommandPriority) (st : Station σ) :
    let r := st.transact service (control.request frame deviceKey priority)
    (control.submit service frame deviceKey priority st).1 = controlReport (r.1, r.2.1) ∧
      (control.submit service frame deviceKey priority st).2.2 = r.2.2 := by
  by_cases h : st.pipeline.queue.count < 64
  · have hok := (st.enqueue_ok_iff (control.request frame deviceKey priority)).2 h
    rw [Station.transact_of_lt service _ st h]
    simp only [DaliControl.submit, hok, ne_eq, not_true_eq_false, if_false]
    cases hp : ((st.enqueue (control.request frame deviceKey priority)).2.processNext service).1 <;>
      exact ⟨rfl, rfl⟩
  · rw [Station.transact_of_full service _ st h, DaliControl.submit, st.enqueue_of_full _ h]
    exact ⟨rfl, rfl⟩

theorem urgency_of_request {call : ClientCall} {request : DaliRequest}
    (h : call.request = some request) : request.urgency = call.priority.code := by
  cases call <;> simp only [ClientCall.request, Option.map_eq_some_iff, Option.some.injEq] at h
  case setShortLevel => obtain ⟨arc, _, rfl⟩ := h; rfl
  case setGroupLevel => obtain ⟨arc, _, rfl⟩ := h; rfl
  all_goals subst h; rfl

/-- Every call is its request's `transact`, reported. -/
theorem perform_eq_transact (st : Station σ) {call : ClientCall} {request : DaliRequest}
    (h : call.request = some request) :
    let r := st.transact service request
    call.perform service st = (call.report (r.1, r.2.1), r.2.2) := by
  cases call <;> simp only [ClientCall.request, Option.map_eq_some_iff, Option.some.injEq] at h
  case query client address command priority =>
      subst h
      obtain ⟨h1, h2⟩ := query_eq_transact service client address command priority st
      exact Prod.ext (congrArg CallOutcome.query h1) h2
  case setShortLevel control address level priority =>
      obtain ⟨arc, harc, rfl⟩ := h
      obtain ⟨h1, h2⟩ := submit_eq_transact service control (makeShortArc address arc)
        address.value priority st
      simp only [perform, DaliControl.setShortLevel, harc]
      exact Prod.ext (congrArg CallOutcome.control h1) h2
  case setGroupLevel control address level priority =>
      obtain ⟨arc, harc, rfl⟩ := h
      obtain ⟨h1, h2⟩ := submit_eq_transact service control (makeGroupArc address arc)
        ((0x80 : UInt8) ||| address.value) priority st
      simp only [perform, DaliControl.setGroupLevel, harc]
      exact Prod.ext (congrArg CallOutcome.control h1) h2
  all_goals
    subst h
    obtain ⟨h1, h2⟩ := submit_eq_transact service _ _ _ _ st
    exact Prod.ext (congrArg CallOutcome.control h1) h2

theorem perform_of_no_request (st : Station σ) {call : ClientCall} (h : call.request = none) :
    call.perform service st = (.control .invalidArgument, st) := by
  cases call <;> simp only [ClientCall.request, Option.map_eq_none_iff, reduceCtorEq] at h
  case setShortLevel => simp only [perform, DaliControl.setShortLevel, h]
  case setGroupLevel => simp only [perform, DaliControl.setGroupLevel, h]

end ClientCall

end DaliEdge
