import DaliEdge.Phy
import DaliEdge.CommandQueue

/-!
# Transactions with retries, and the quality counters

`DaliTransactionService.execute` transmits a request, receives its answer when one is
expected, and tries again after a delay while the outcome is a timeout, a busy bus or a
collision. The loop is a recursion on the attempts that the request still allows.
-/

namespace DaliEdge

inductive TransactionStatus
  | ok | retriesExhausted | invalidRequest | busPowerLost | transceiverFault | notInitialised
  | internalError
  deriving DecidableEq

structure DaliTransactionResult where
  status : TransactionStatus := .internalError
  response : Option UInt8 := none
  attempts : UInt8 := 0
  lastPhyResult : PhyResult := .internalError
  retryDelayTotalMs : UInt32 := 0
  deriving DecidableEq

def DaliTransactionResult.countAttempt (result : DaliTransactionResult) (phyResult : PhyResult) :
    DaliTransactionResult :=
  { result with attempts := result.attempts + 1, lastPhyResult := phyResult }

structure CommunicationQualityCounters where
  total : UInt32 := 0
  successes : UInt32 := 0
  timeouts : UInt32 := 0
  collisions : UInt32 := 0
  busy : UInt32 := 0
  busPowerLosses : UInt32 := 0
  transceiverFaults : UInt32 := 0
  otherFailures : UInt32 := 0
  deriving DecidableEq

structure CommunicationQualitySnapshot where
  counters : CommunicationQualityCounters
  failures : UInt32
  successRate : ℚ
  noData : Bool

structure CommunicationQualityTracker where
  counters : CommunicationQualityCounters := {}
  deriving DecidableEq

namespace CommunicationQualityTracker

def incrementSaturating (value : UInt32) : UInt32 :=
  if value ≠ 0xFFFFFFFF then value + 1 else value

def record (tracker : CommunicationQualityTracker) (result : DaliTransactionResult) :
    CommunicationQualityTracker :=
  let c := { tracker.counters with total := incrementSaturating tracker.counters.total }
  if result.status = .ok then ⟨{ c with successes := incrementSaturating c.successes }⟩
  else match result.lastPhyResult with
    | .timeout => ⟨{ c with timeouts := incrementSaturating c.timeouts }⟩
    | .collision => ⟨{ c with collisions := incrementSaturating c.collisions }⟩
    | .busy => ⟨{ c with busy := incrementSaturating c.busy }⟩
    | .busPowerLost => ⟨{ c with busPowerLosses := incrementSaturating c.busPowerLosses }⟩
    | .transceiverFault =>
        ⟨{ c with transceiverFaults := incrementSaturating c.transceiverFaults }⟩
    | .ok | .invalidArgument | .notInitialised | .internalError =>
        ⟨{ c with otherFailures := incrementSaturating c.otherFailures }⟩

def snapshot (tracker : CommunicationQualityTracker) : CommunicationQualitySnapshot :=
  let c := tracker.counters
  { counters := c
    failures := if c.total ≥ c.successes then c.total - c.successes else 0
    successRate := if c.total = 0 then 1 else (c.successes.toNat : ℚ) / (c.total.toNat : ℚ)
    noData := c.total = 0 }

end CommunicationQualityTracker

def isRetryable (result : PhyResult) : Bool :=
  result = .timeout || result = .busy || result = .collision

def baseRetryDelayMs (retryIndex : ℕ) : UInt32 :=
  if retryIndex = 0 then 100 else if retryIndex = 1 then 500 else 2000

theorem baseRetryDelayMs_values :
    baseRetryDelayMs 0 = 100 ∧ baseRetryDelayMs 1 = 500 ∧ ∀ i ≥ 2, baseRetryDelayMs i = 2000 := by
  refine ⟨rfl, rfl, fun i hi => ?_⟩
  rw [baseRetryDelayMs, if_neg (by omega), if_neg (by omega)]

def mapTerminalStatus : PhyResult → TransactionStatus
  | .busPowerLost => .busPowerLost
  | .transceiverFault => .transceiverFault
  | .notInitialised => .notInitialised
  | .invalidArgument => .invalidRequest
  | .timeout | .busy | .collision => .retriesExhausted
  | .ok => .ok
  | .internalError => .internalError

/-- A status tells the result that it comes from, but for the results that are tried again. -/
theorem mapTerminalStatus_iff (result : PhyResult) :
    (mapTerminalStatus result = .ok ↔ result = .ok) ∧
    (mapTerminalStatus result = .busPowerLost ↔ result = .busPowerLost) ∧
    (mapTerminalStatus result = .transceiverFault ↔ result = .transceiverFault) ∧
    (mapTerminalStatus result = .notInitialised ↔ result = .notInitialised) ∧
    (mapTerminalStatus result = .invalidRequest ↔ result = .invalidArgument) ∧
    (mapTerminalStatus result = .internalError ↔ result = .internalError) ∧
    (mapTerminalStatus result = .retriesExhausted ↔ isRetryable result = true) := by
  cases result <;> decide

theorem mapTerminalStatus_eq_ok_iff (result : PhyResult) :
    mapTerminalStatus result = .ok ↔ result = .ok := (mapTerminalStatus_iff result).1

def kAbsoluteMaxRetries : UInt8 := 8

def kMaximumJitterMs : UInt32 := 25

/-- The request passes the checks made before the first attempt. -/
def DaliRequest.Admissible (request : DaliRequest) : Prop :=
  request.timeoutMs ≠ 0 ∧ request.maxRetries ≤ kAbsoluteMaxRetries

structure DaliTransactionService (σ : Type*) where
  phy : IDaliPhy σ
  delay : IDelayProvider σ
  jitter : IJitterSource σ

namespace DaliTransactionService

variable {σ : Type*} (service : DaliTransactionService σ)

def transmit (forwardFrame : UInt16) (bus : Bus σ) : PhyResult × Bus σ :=
  let r := service.phy.transmit forwardFrame bus.state
  (r.1, bus.record (.transmit forwardFrame r.1) r.2)

def receive (backwardFrame : UInt8) (timeoutMs : UInt32) (bus : Bus σ) :
    PhyResult × UInt8 × Bus σ :=
  let r := service.phy.receive backwardFrame timeoutMs bus.state
  (r.1, r.2.1, bus.record (.receive timeoutMs r.1 r.2.1) r.2.2)

def nextJitter (maxInclusive : UInt32) (bus : Bus σ) : UInt32 × Bus σ :=
  let r := service.jitter.next maxInclusive bus.state
  (r.1, bus.record (.jitter maxInclusive r.1) r.2)

def delayMs (ms : UInt32) (bus : Bus σ) : Bus σ :=
  bus.record (.delay ms) (service.delay.delayMs ms bus.state)

/-- One transmit, and the receive that follows a successful one. The byte is the local
`backwardFrame`. -/
def exchange (request : DaliRequest) (bus : Bus σ) : PhyResult × UInt8 × Bus σ :=
  let sent := service.transmit request.frame.raw bus
  if sent.1 = .ok ∧ request.expectsResponse then service.receive 0 request.timeoutMs sent.2
  else (sent.1, 0, sent.2)

/-- The delay between two attempts, and the bus after it. -/
def backOff (attempt : ℕ) (bus : Bus σ) : UInt32 × Bus σ :=
  let jitter := service.nextJitter kMaximumJitterMs bus
  let retryDelay := baseRetryDelayMs attempt + jitter.1
  (retryDelay, service.delayMs retryDelay jitter.2)

/-- The `for` loop of `execute` at `attempt`, with `remaining` passes of it to go. -/
def attemptLoop (request : DaliRequest) :
    (remaining attempt : ℕ) → DaliTransactionResult → Bus σ → DaliTransactionResult × Bus σ
  | 0, _, result, bus =>
      ({ result with status := .internalError, lastPhyResult := .internalError }, bus)
  | remaining + 1, attempt, result, bus =>
      let r := service.exchange request bus
      let counted := result.countAttempt r.1
      if r.1 = .ok then
        ({ counted with
            status := .ok
            response := if request.expectsResponse then some r.2.1 else counted.response }, r.2.2)
      else if isRetryable r.1 = false then ({ counted with status := mapTerminalStatus r.1 }, r.2.2)
      else if attempt = request.maxRetries.toNat then
        ({ counted with status := .retriesExhausted }, r.2.2)
      else
        let waited := service.backOff attempt r.2.2
        attemptLoop request remaining (attempt + 1)
          { counted with retryDelayTotalMs := counted.retryDelayTotalMs + waited.1 } waited.2

def execute (request : DaliRequest) (bus : Bus σ) : DaliTransactionResult × Bus σ :=
  if request.timeoutMs = 0 ∨ request.maxRetries > kAbsoluteMaxRetries then
    ({ status := .invalidRequest, lastPhyResult := .invalidArgument }, bus)
  else service.attemptLoop request (request.maxRetries.toNat + 1) 0 {} bus

variable (request : DaliRequest)

/-- The result of the transmit that `exchange` begins with. -/
def transmitResult (bus : Bus σ) : PhyResult := (service.transmit request.frame.raw bus).1

theorem exchange_extends (bus : Bus σ) :
    ∃ received, Bus.Extends bus (service.exchange request bus).2.2
      (.transmit request.frame.raw (service.transmitResult request bus) :: received) := by
  simp only [exchange]
  split_ifs with h
  · exact ⟨_, (Bus.extends_record _ _ _).trans (Bus.extends_record _ _ _)⟩
  · exact ⟨[], Bus.extends_record _ _ _⟩

theorem exchange_of_transmit_ne_ok (bus : Bus σ) (h : service.transmitResult request bus ≠ .ok) :
    (service.exchange request bus).1 = service.transmitResult request bus ∧
      Bus.Extends bus (service.exchange request bus).2.2
        [.transmit request.frame.raw (service.transmitResult request bus)] := by
  have hno : ¬ ((service.transmit request.frame.raw bus).1 = .ok ∧ request.expectsResponse = true) :=
    fun hc => h hc.1
  rw [exchange, if_neg hno]
  exact ⟨rfl, Bus.extends_record _ _ _⟩

theorem transmitResult_of_exchange_ok (bus : Bus σ) (h : (service.exchange request bus).1 = .ok) :
    service.transmitResult request bus = .ok := by
  by_contra hne
  rw [(service.exchange_of_transmit_ne_ok request bus hne).1] at h
  exact hne h

theorem backOff_extends (attempt : ℕ) (bus : Bus σ) :
    ∃ value, Bus.Extends bus (service.backOff attempt bus).2
      [.jitter kMaximumJitterMs value, .delay (baseRetryDelayMs attempt + value)] :=
  ⟨_, (Bus.extends_record _ _ _).trans (Bus.extends_record _ _ _)⟩

/-- One pass of the loop ends the transaction, or backs off and goes on after a retryable
outcome. -/
theorem attemptLoop_step (remaining attempt : ℕ) (result : DaliTransactionResult) (bus : Bus σ) :
    (∃ result', service.attemptLoop request (remaining + 1) attempt result bus =
        (result', (service.exchange request bus).2.2) ∧
      (result'.status = .ok ↔ (service.exchange request bus).1 = .ok)) ∨
    (isRetryable (service.exchange request bus).1 = true ∧
      ∃ result', service.attemptLoop request (remaining + 1) attempt result bus =
        service.attemptLoop request remaining (attempt + 1) result'
          (service.backOff attempt (service.exchange request bus).2.2).2) := by
  simp only [attemptLoop]
  by_cases hok : (service.exchange request bus).1 = .ok
  · exact Or.inl ⟨_, if_pos hok, fun _ => hok, fun _ => rfl⟩
  · rw [if_neg hok]
    by_cases hterminal : isRetryable (service.exchange request bus).1 = false
    · exact Or.inl ⟨_, if_pos hterminal, mapTerminalStatus_eq_ok_iff _⟩
    · rw [if_neg hterminal]
      by_cases hlast : attempt = request.maxRetries.toNat
      · refine Or.inl ⟨_, if_pos hlast, fun hs => ?_, fun hs => absurd hs hok⟩
        cases hs
      · rw [if_neg hlast]
        exact Or.inr ⟨eq_true_of_ne_false hterminal, _, rfl⟩

/-- The loop only adds to the record, and ends with status `Ok` only after a transmit of the
request's frame that the PHY accepted. -/
theorem attemptLoop_extends (remaining attempt : ℕ) (result : DaliTransactionResult)
    (bus : Bus σ) :
    ∃ events, Bus.Extends bus (service.attemptLoop request remaining attempt result bus).2 events ∧
      ((service.attemptLoop request remaining attempt result bus).1.status = .ok →
        .transmit request.frame.raw .ok ∈ events) := by
  induction remaining generalizing attempt result bus with
  | zero => exact ⟨[], Bus.Extends.refl _, fun hs => by cases hs⟩
  | succ remaining ih =>
      obtain ⟨received, hx⟩ := service.exchange_extends request bus
      rcases service.attemptLoop_step request remaining attempt result bus with
        ⟨result', heq, hs⟩ | ⟨_, result', heq⟩
      · rw [heq]
        refine ⟨_, hx, fun h => ?_⟩
        rw [service.transmitResult_of_exchange_ok request bus (hs.1 h)]
        exact List.mem_cons_self
      · obtain ⟨_, hwait⟩ := service.backOff_extends attempt (service.exchange request bus).2.2
        obtain ⟨events, he, hs⟩ := ih (attempt + 1) result'
          (service.backOff attempt (service.exchange request bus).2.2).2
        rw [heq]
        exact ⟨_, (hx.trans hwait).trans he, fun h => List.mem_append_right _ (hs h)⟩

theorem execute_extends (bus : Bus σ) :
    ∃ events, Bus.Extends bus (service.execute request bus).2 events ∧
      ((service.execute request bus).1.status = .ok → .transmit request.frame.raw .ok ∈ events) := by
  unfold execute
  split_ifs with h
  · exact ⟨[], Bus.Extends.refl _, fun hs => by cases hs⟩
  · exact service.attemptLoop_extends request _ _ _ bus

theorem execute_of_admissible (bus : Bus σ) (h : request.Admissible) :
    service.execute request bus =
      service.attemptLoop request (request.maxRetries.toNat + 1) 0 {} bus := by
  have hno : ¬ (request.timeoutMs = 0 ∨ request.maxRetries > kAbsoluteMaxRetries) := by
    rintro (h0 | hgt)
    · exact h.1 h0
    · exact UInt8.not_lt.2 h.2 hgt
  rw [execute, if_neg hno]

theorem execute_of_not_admissible (bus : Bus σ) (h : ¬ request.Admissible) :
    service.execute request bus =
      ({ status := .invalidRequest, lastPhyResult := .invalidArgument }, bus) := by
  have hyes : request.timeoutMs = 0 ∨ request.maxRetries > kAbsoluteMaxRetries := by
    by_contra! hc
    exact h ⟨hc.1, UInt8.not_lt.1 hc.2⟩
  rw [execute, if_pos hyes]

theorem execute_transmits (bus : Bus σ) (h : request.Admissible) :
    ∃ events, Bus.Extends bus (service.execute request bus).2
      (.transmit request.frame.raw (service.transmitResult request bus) :: events) := by
  obtain ⟨received, hx⟩ := service.exchange_extends request bus
  rw [service.execute_of_admissible request bus h]
  rcases service.attemptLoop_step request request.maxRetries.toNat 0 {} bus with
    ⟨result', heq, _⟩ | ⟨_, result', heq⟩
  · rw [heq]
    exact ⟨received, hx⟩
  · obtain ⟨_, hwait⟩ := service.backOff_extends 0 (service.exchange request bus).2.2
    obtain ⟨events, he, _⟩ := service.attemptLoop_extends request request.maxRetries.toNat (0 + 1)
      result' (service.backOff 0 (service.exchange request bus).2.2).2
    rw [heq]
    exact ⟨_, (hx.trans hwait).trans he⟩

theorem execute_of_terminal (bus : Bus σ) (h : request.Admissible)
    (hok : service.transmitResult request bus ≠ .ok)
    (hterminal : isRetryable (service.transmitResult request bus) = false) :
    (service.execute request bus).1 =
      { status := mapTerminalStatus (service.transmitResult request bus)
        attempts := 1
        lastPhyResult := service.transmitResult request bus } ∧
      Bus.Extends bus (service.execute request bus).2
        [.transmit request.frame.raw (service.transmitResult request bus)] := by
  obtain ⟨hresult, hx⟩ := service.exchange_of_transmit_ne_ok request bus hok
  rw [service.execute_of_admissible request bus h]
  simp only [attemptLoop, hresult, if_neg hok, if_pos hterminal]
  exact ⟨rfl, hx⟩

end DaliTransactionService

end DaliEdge
