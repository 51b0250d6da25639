import DaliEdge.Attempts
import DaliEdge.Script
import DaliEdge.SimulatedPhy

/-!
# Transactions on the simulated PHY

The responses that a simulated PHY holds are a script. A transaction reads it from the front, one
response for an attempt, and stops at a response that comes after the timeout, however many
attempts are left. So what a transaction reports, and the script that it leaves, can be told
before it starts.
-/

namespace DaliEdge

/-! ## The outlook of a PHY -/

/-- All of a PHY that the answers of the bus depend on: what refuses a transmit, and the script. -/
@[ext] structure Outlook where
  refusal : Option PhyResult
  script : List SimulatedResponse
  deriving DecidableEq

def SimulatedResponse.inTime (timeoutMs : UInt32) (response : SimulatedResponse) : Bool :=
  response.delayMs ≤ timeoutMs

namespace Outlook

variable (request : DaliRequest) (outlook : Outlook)

def Reads : Prop := outlook.refusal = none ∧ request.expectsResponse = true

instance : Decidable (outlook.Reads request) := inferInstanceAs (Decidable (_ ∧ _))

/-- The response that attempt `i` receives. -/
def response (i : ℕ) : Option SimulatedResponse :=
  Script.read (SimulatedResponse.inTime request.timeoutMs) i outlook.script

def outcome (i : ℕ) : PhyResult :=
  match outlook.refusal with
  | some result => result
  | none =>
      if request.expectsResponse then ((outlook.response request i).map (·.result)).getD .timeout
      else .ok

/-- The outlook that `i` attempts leave. -/
def after (i : ℕ) : Outlook :=
  if outlook.Reads request then
    { outlook with
      script := Script.rest (SimulatedResponse.inTime request.timeoutMs) i outlook.script }
  else outlook

def last : ℕ :=
  ((List.range request.maxRetries.toNat).find? fun i =>
    !isRetryable (outlook.outcome request i)).getD request.maxRetries.toNat

/-- What a transaction reports, but for its delays. -/
def report : DaliTransactionResult where
  status := mapTerminalStatus (outlook.outcome request (outlook.last request))
  response :=
    if outlook.outcome request (outlook.last request) = .ok ∧ request.expectsResponse = true then
      (outlook.response request (outlook.last request)).map (·.value)
    else none
  attempts := UInt8.ofNat (outlook.last request + 1)
  lastPhyResult := outlook.outcome request (outlook.last request)

@[simp] theorem after_zero : outlook.after request 0 = outlook := by
  rw [after, Script.rest_zero]
  exact ite_self _

@[simp] theorem refusal_after (i : ℕ) : (outlook.after request i).refusal = outlook.refusal := by
  unfold after
  split_ifs <;> rfl

theorem after_succ (i : ℕ) :
    outlook.after request (i + 1) = (outlook.after request i).after request 1 := by
  by_cases h : outlook.Reads request
  · have h' : (outlook.after request i).Reads request := by
      rwa [Reads, refusal_after]
    have hscript := Script.rest_succ (SimulatedResponse.inTime request.timeoutMs) i outlook.script
    rw [after, if_pos h, hscript]
    conv_rhs => rw [after, if_pos h', after, if_pos h]
  · have hsame : ∀ i, outlook.after request i = outlook := fun i => if_neg h
    rw [hsame, hsame, hsame]

theorem response_after (h : outlook.Reads request) (i : ℕ) :
    (outlook.after request i).response request 0 = outlook.response request i := by
  rw [after, if_pos h]
  exact Script.read_rest _ i outlook.script

theorem outcome_after (i : ℕ) :
    (outlook.after request i).outcome request 0 = outlook.outcome request i := by
  unfold outcome
  rw [refusal_after]
  cases hrefusal : outlook.refusal with
  | some result => rfl
  | none =>
      by_cases hexpects : request.expectsResponse = true
      · simp only [hexpects, if_true]
        rw [response_after request outlook ⟨hrefusal, hexpects⟩]
      · simp only [hexpects]
        rfl

end Outlook

namespace SimulatedDaliPhy

/-! ## One operation -/

/-- The result of every transmit, as long as it is refused. -/
def refusal (phy : SimulatedDaliPhy) : Option PhyResult :=
  if !phy.health.initialised then some .notInitialised
  else if !phy.health.busPowered then some .busPowerLost
  else if !phy.health.transceiverHealthy then some .transceiverFault
  else if phy.busBusy then some .busy
  else if phy.collision then some .collision
  else none

def line (phy : SimulatedDaliPhy) : PhyHealth × Bool × Bool :=
  (phy.health, phy.busBusy, phy.collision)

def sent (frame : UInt16) (phy : SimulatedDaliPhy) : SimulatedDaliPhy :=
  { phy with
    lastForwardFrame := frame
    transmittedFrameCount := phy.transmittedFrameCount + 1 }

def outlook (phy : SimulatedDaliPhy) : Outlook := ⟨phy.refusal, phy.held⟩

variable {phy phy' : SimulatedDaliPhy}

theorem refusal_of_line (h : phy'.line = phy.line) : phy'.refusal = phy.refusal := by
  obtain ⟨hhealth, hbusy, hcollision⟩ : phy'.health = phy.health ∧ phy'.busBusy = phy.busBusy ∧
      phy'.collision = phy.collision := by
    simpa only [line, Prod.mk.injEq] using h
  rw [refusal, refusal, hhealth, hbusy, hcollision]

theorem usable_of_refusal (h : phy.refusal = none) : phy.Usable := by
  unfold refusal at h
  split_ifs at h with hinit hpower htransceiver
  rw [Bool.not_eq_true', Bool.not_eq_false] at hinit hpower htransceiver
  exact ⟨hinit, hpower, htransceiver⟩

theorem transmit_of_refused {result : PhyResult} (frame : UInt16) (h : phy.refusal = some result) :
    result ≠ .ok ∧ phy.transmit frame = (result, phy) := by
  unfold refusal at h
  unfold transmit
  split_ifs at h ⊢ <;> cases h <;> exact ⟨PhyResult.noConfusion, rfl⟩

theorem transmit_of_accepted (frame : UInt16) (h : phy.refusal = none) :
    phy.transmit frame = (.ok, phy.sent frame) := by
  unfold refusal at h
  unfold transmit
  split_ifs at h ⊢
  rfl

/-- A usable PHY answers a receive from its script. -/
theorem receive_of_usable (frame : UInt8) (timeoutMs : UInt32) (h : phy.Usable) :
    let response := Script.read (SimulatedResponse.inTime timeoutMs) 0 phy.held
    let received := phy.receive frame timeoutMs
    received.1 = (response.map (·.result)).getD .timeout ∧
      (received.1 = .ok → response.map (·.value) = some received.2.1) ∧
      received.2.2.held = Script.rest (SimulatedResponse.inTime timeoutMs) 1 phy.held ∧
      received.2.2.line = phy.line ∧
      received.2.2.lastForwardFrame = phy.lastForwardFrame ∧
      received.2.2.transmittedFrameCount = phy.transmittedFrameCount := by
  by_cases hcount : phy.responseCount = 0
  · have hheld := phy.held_eq_nil_iff.2 hcount
    have hreceive : phy.receive frame timeoutMs = (.timeout, frame, phy) := by
      obtain ⟨hinit, hpower, htransceiver⟩ := h
      rw [receive, hinit, hpower, htransceiver, if_neg Bool.noConfusion, if_neg Bool.noConfusion,
        if_neg Bool.noConfusion, if_pos hcount]
    rw [hheld, hreceive, Script.rest_nil, Script.read_zero]
    exact ⟨rfl, PhyResult.noConfusion, hheld, rfl, rfl, rfl⟩
  · rw [phy.held_eq_cons hcount, Script.read_zero, List.head?_cons, Option.filter_some]
    by_cases hdelay : phy.head.delayMs ≤ timeoutMs
    · have hready : phy.head.inTime timeoutMs = true := decide_eq_true hdelay
      rw [phy.receive_of_answered frame h hcount hdelay, if_pos hready, Script.rest_succ_cons hready,
        Script.rest_zero]
      exact ⟨rfl, fun hok => congrArg some (if_pos hok).symm, rfl, rfl, rfl, rfl⟩
    · have hlate : ¬ phy.head.inTime timeoutMs = true := by
        rwa [SimulatedResponse.inTime, decide_eq_true_iff]
      have hreceive : phy.receive frame timeoutMs = (.timeout, frame, phy) := by
        obtain ⟨hinit, hpower, htransceiver⟩ := h
        rw [receive, hinit, hpower, htransceiver, if_neg Bool.noConfusion, if_neg Bool.noConfusion,
          if_neg Bool.noConfusion, if_neg hcount, if_pos (UInt32.not_le.1 hdelay)]
      rw [hreceive, if_neg hlate, Script.rest_of_late hlate, ← phy.held_eq_cons hcount]
      exact ⟨rfl, PhyResult.noConfusion, rfl, rfl, rfl, rfl⟩

/-! ## Attempts -/

/-- Transactions on the simulated PHY, with delays and jitters that have a state of their own. -/
def service {τ : Type*} (delay : IDelayProvider τ) (jitter : IJitterSource τ) :
    DaliTransactionService (SimulatedDaliPhy × τ) where
  phy :=
    { transmit := fun frame s => ((s.1.transmit frame).1, (s.1.transmit frame).2, s.2)
      receive := fun frame timeoutMs s =>
        ((s.1.receive frame timeoutMs).1, (s.1.receive frame timeoutMs).2.1,
          (s.1.receive frame timeoutMs).2.2, s.2) }
  delay := { delayMs := fun ms s => (s.1, delay.delayMs ms s.2) }
  jitter := { next := fun maxInclusive s =>
    ((jitter.next maxInclusive s.2).1, s.1, (jitter.next maxInclusive s.2).2) }

variable (request : DaliRequest)

/-- What `i` attempts of a request leave of a PHY. -/
structure Attempted (phy : SimulatedDaliPhy) (i : ℕ) (phy' : SimulatedDaliPhy) : Prop where
  line : phy'.line = phy.line
  outlook : phy'.outlook = phy.outlook.after request i
  lastForwardFrame : phy'.lastForwardFrame =
    if phy.refusal = none ∧ 0 < i then request.frame.raw else phy.lastForwardFrame
  transmittedFrameCount : phy'.transmittedFrameCount =
    if phy.refusal = none then phy.transmittedFrameCount + UInt32.ofNat i
    else phy.transmittedFrameCount

variable {request}

theorem Attempted.zero (phy : SimulatedDaliPhy) : Attempted request phy 0 phy where
  line := rfl
  outlook := (Outlook.after_zero request phy.outlook).symm
  lastForwardFrame := by rw [if_neg fun h => Nat.lt_irrefl 0 h.2]
  transmittedFrameCount := by
    have hzero : phy.transmittedFrameCount + UInt32.ofNat 0 = phy.transmittedFrameCount :=
      UInt32.add_zero _
    rw [hzero, ite_self]

theorem Attempted.succ {phy'' : SimulatedDaliPhy} {i : ℕ} (h : Attempted request phy i phy')
    (h' : Attempted request phy' 1 phy'') : Attempted request phy (i + 1) phy'' := by
  have hrefusal := refusal_of_line h.line
  refine ⟨h'.line.trans h.line, ?_, ?_, ?_⟩
  · rw [h'.outlook, h.outlook, ← Outlook.after_succ]
  · rw [h'.lastForwardFrame, h.lastForwardFrame, hrefusal]
    by_cases haccepted : phy.refusal = none
    · rw [if_pos ⟨haccepted, Nat.one_pos⟩, if_pos ⟨haccepted, Nat.succ_pos i⟩]
    · simp only [haccepted, false_and, if_false]
  · rw [h'.transmittedFrameCount, h.transmittedFrameCount, hrefusal]
    by_cases haccepted : phy.refusal = none
    · rw [if_pos haccepted, if_pos haccepted, if_pos haccepted, UInt32.add_assoc, UInt32.ofNat_add]
    · rw [if_neg haccepted, if_neg haccepted, if_neg haccepted]

/-! ## Transactions -/

section Transactions

variable {τ : Type*} (delay : IDelayProvider τ) (jitter : IJitterSource τ) (request)

/-- An attempt of a transaction service on the simulated PHY. -/
theorem exchange_attempted (bus : Bus (SimulatedDaliPhy × τ)) :
    Attempted request bus.state.1 1 ((service delay jitter).exchange request bus).2.2.state.1 ∧
      (service delay jitter).outcome request bus = bus.state.1.outlook.outcome request 0 ∧
      ((service delay jitter).outcome request bus = .ok → request.expectsResponse = true →
        (bus.state.1.outlook.response request 0).map (·.value) =
          some ((service delay jitter).receiveResult request bus).2) := by
  obtain ⟨⟨phy, state⟩, trace⟩ := bus
  unfold DaliTransactionService.outcome DaliTransactionService.exchange
    DaliTransactionService.receiveResult DaliTransactionService.transmitResult
    DaliTransactionService.transmit DaliTransactionService.receive service Outlook.outcome outlook
  cases hrefusal : phy.refusal with
  | some result =>
      obtain ⟨hfailed, htransmit⟩ := transmit_of_refused request.frame.raw hrefusal
      have hno : ¬ (result = .ok ∧ request.expectsResponse = true) := fun h => hfailed h.1
      have hblind : ¬ phy.outlook.Reads request :=
        fun h => Option.some_ne_none result (hrefusal.symm.trans h.1)
      simp only [htransmit, if_neg hno]
      refine ⟨⟨rfl, (if_neg hblind).symm, ?_, ?_⟩, trivial, fun h => absurd h hfailed⟩
      all_goals simp only [hrefusal, reduceCtorEq, false_and, if_false]
      all_goals rfl
  | none =>
      simp only [transmit_of_accepted request.frame.raw hrefusal]
      by_cases hexpects : request.expectsResponse = true
      · have husable : (phy.sent request.frame.raw).Usable := usable_of_refusal hrefusal
        obtain ⟨hresult, hvalue, hheld, hline, hlast, hcount⟩ :=
          receive_of_usable 0 request.timeoutMs husable
        have hreads : phy.outlook.Reads request := ⟨hrefusal, hexpects⟩
        simp only [hexpects, and_self, if_true]
        refine ⟨⟨hline, ?_, ?_, ?_⟩, hresult, fun hok _ => hvalue hok⟩
        · rw [Outlook.after, if_pos hreads]
          exact Outlook.ext (refusal_of_line hline) hheld
        · rw [if_pos ⟨hrefusal, Nat.one_pos⟩]
          exact hlast
        · rw [if_pos hrefusal]
          exact hcount
      · have hblind : ¬ phy.outlook.Reads request := fun h => hexpects h.2
        simp only [hexpects, and_false, if_false, Bool.false_eq_true]
        refine ⟨⟨rfl, (if_neg hblind).symm, ?_, ?_⟩, trivial, fun _ h => h.elim⟩
        · rw [if_pos ⟨hrefusal, Nat.one_pos⟩]
          rfl
        · rw [if_pos hrefusal]
          rfl

theorem busBefore_attempted (bus : Bus (SimulatedDaliPhy × τ)) (i : ℕ) :
    Attempted request bus.state.1 i ((service delay jitter).busBefore request bus i).state.1 := by
  induction i with
  | zero => exact Attempted.zero bus.state.1
  | succ i ih =>
      -- the pause behind an attempt leaves the PHY alone
      exact ih.succ (exchange_attempted request delay jitter _).1

theorem outcomeAt_eq (bus : Bus (SimulatedDaliPhy × τ)) (i : ℕ) :
    (service delay jitter).outcomeAt request bus i = bus.state.1.outlook.outcome request i := by
  have hbefore := busBefore_attempted request delay jitter bus i
  rw [DaliTransactionService.outcomeAt, (exchange_attempted request delay jitter _).2.1,
    hbefore.outlook, Outlook.outcome_after]

theorem lastAttempt_eq (bus : Bus (SimulatedDaliPhy × τ)) :
    (service delay jitter).lastAttempt request bus = bus.state.1.outlook.last request := by
  unfold DaliTransactionService.lastAttempt Outlook.last
  simp only [outcomeAt_eq]

theorem refusal_of_outcome_ok {i : ℕ} (h : phy.outlook.outcome request i = .ok) :
    phy.refusal = none := by
  cases hrefusal : phy.refusal with
  | none => rfl
  | some result =>
      have houtlook : phy.outlook.refusal = some result := hrefusal
      rw [Outlook.outcome, houtlook] at h
      exact absurd h (transmit_of_refused 0 hrefusal).1

/-- A transaction on the simulated PHY reports what the outlook tells, whatever the jitter, and
takes from the script one response for each attempt, up to one that comes too late. -/
theorem execute_on_script (h : request.Admissible) (bus : Bus (SimulatedDaliPhy × τ)) :
    let outlook := bus.state.1.outlook
    let executed := (service delay jitter).execute request bus
    executed.1 = { outlook.report request with
      retryDelayTotalMs := executed.1.retryDelayTotalMs } ∧
    Attempted request bus.state.1 (outlook.last request + 1) executed.2.state.1 := by
  intro outlook executed
  have hlast : (service delay jitter).lastAttempt request bus = outlook.last request :=
    lastAttempt_eq request delay jitter bus
  obtain ⟨hresult, -⟩ := (service delay jitter).execute_eq request bus h hlast
  have hbus := (service delay jitter).execute_bus request bus h
  have hbefore := busBefore_attempted request delay jitter bus (outlook.last request)
  obtain ⟨hattempted, houtcome, hvalue⟩ := exchange_attempted request delay jitter
    ((service delay jitter).busBefore request bus (outlook.last request))
  rw [hbefore.outlook] at houtcome hvalue
  have hlastOutcome := houtcome.trans (Outlook.outcome_after request outlook _)
  constructor
  · have hexecuted : executed.1 = _ := hresult
    have hresponse : (service delay jitter).responseOf request
        ((service delay jitter).busBefore request bus (outlook.last request)) =
          (outlook.report request).response := by
      unfold DaliTransactionService.responseOf Outlook.report
      rw [hlastOutcome]
      split_ifs with hreceived
      · obtain ⟨hok, hexpects⟩ := hreceived
        have hreads : outlook.Reads request := ⟨refusal_of_outcome_ok request hok, hexpects⟩
        rw [← Outlook.response_after request outlook hreads]
        exact (hvalue (hlastOutcome.trans hok) hexpects).symm
      · rfl
    rw [hexecuted, hresponse, outcomeAt_eq]
    rfl
  · rw [hlast] at hbus
    have hstate : executed.2 = _ := hbus
    rw [hstate]
    exact hbefore.succ hattempted

end Transactions

end SimulatedDaliPhy

/-! ## Runs of transactions -/

def DaliTransactionResult.undelayed (result : DaliTransactionResult) : DaliTransactionResult :=
  { result with retryDelayTotalMs := 0 }

instance (request : DaliRequest) : Decidable request.Admissible :=
  inferInstanceAs (Decidable (_ ∧ _))

namespace Outlook

/-- Requests that are told from an outlook one after the other. -/
def telling : Machine Outlook DaliRequest DaliTransactionResult where
  step outlook request :=
    if request.Admissible then
      (outlook.after request (outlook.last request + 1), outlook.report request)
    else (outlook, { status := .invalidRequest, lastPhyResult := .invalidArgument })

variable (request : DaliRequest) (outlook : Outlook)

theorem last_le : outlook.last request ≤ request.maxRetries.toNat := by
  unfold last
  cases hfound : (List.range request.maxRetries.toNat).find? fun i =>
      !isRetryable (outlook.outcome request i) with
  | none => exact Nat.le_refl _
  | some i => exact (List.mem_range.1 (List.mem_of_find?_eq_some hfound)).le

theorem telling_after (requests : List DaliRequest) :
    (telling.after outlook requests).refusal = outlook.refusal ∧
      (telling.after outlook requests).script <:+ outlook.script := by
  induction requests using List.reverseRecOn with
  | nil => exact ⟨rfl, List.suffix_rfl⟩
  | append_singleton requests request ih =>
      obtain ⟨hrefusal, hscript⟩ := ih
      rw [Machine.after_snoc]
      simp only [telling]
      split_ifs
      · refine ⟨(refusal_after request _ _).trans hrefusal, List.IsSuffix.trans ?_ hscript⟩
        unfold after
        split_ifs
        · exact Script.rest_suffix _ _ _
        · exact List.suffix_rfl
      · exact ⟨hrefusal, hscript⟩

theorem attempts_report (h : request.Admissible) :
    (outlook.report request).attempts.toNat = outlook.last request + 1 := by
  have hretries := UInt8.le_iff_toNat_le.1 h.2
  have height : kAbsoluteMaxRetries.toNat = 8 := rfl
  have hlast := outlook.last_le request
  have hsize : outlook.last request + 1 < 256 := by omega
  exact UInt8.toNat_ofNat_of_lt' hsize

end Outlook

namespace SimulatedDaliPhy

section Runs

variable {τ : Type*} (delay : IDelayProvider τ) (jitter : IJitterSource τ)

/-- The frames that the PHY has taken after these results of its transactions. -/
def framesAfter (phy : SimulatedDaliPhy) (results : List DaliTransactionResult) : UInt32 :=
  if phy.refusal = none then
    phy.transmittedFrameCount + UInt32.ofNat (results.map (·.attempts.toNat)).sum
  else phy.transmittedFrameCount

theorem framesAfter_nil (phy : SimulatedDaliPhy) :
    phy.framesAfter [] = phy.transmittedFrameCount := by
  have hzero : phy.transmittedFrameCount + UInt32.ofNat 0 = phy.transmittedFrameCount :=
    UInt32.add_zero _
  rw [framesAfter, List.map_nil, List.sum_nil, hzero, ite_self]

theorem framesAfter_cons {phy phy' : SimulatedDaliPhy} {result : DaliTransactionResult}
    (hrefusal : phy'.refusal = phy.refusal)
    (hcount : phy'.transmittedFrameCount = phy.framesAfter [result])
    (results : List DaliTransactionResult) :
    phy'.framesAfter results = phy.framesAfter (result :: results) := by
  unfold framesAfter at hcount ⊢
  rw [hrefusal, hcount]
  by_cases haccepted : phy.refusal = none
  · simp only [if_pos haccepted, List.map_cons, List.map_nil, List.sum_cons, List.sum_nil]
    rw [UInt32.add_assoc, ← UInt32.ofNat_add, Nat.add_zero]
  · simp only [if_neg haccepted]

/-- A transaction is told from the outlook, whether it is executed or not. -/
theorem executing_step (bus : Bus (SimulatedDaliPhy × τ)) (request : DaliRequest) :
    let executed := (service delay jitter).executing.step bus request
    let told := Outlook.telling.step bus.state.1.outlook request
    executed.2.undelayed = told.2 ∧ executed.1.state.1.outlook = told.1 ∧
      executed.1.state.1.transmittedFrameCount = bus.state.1.framesAfter [executed.2] := by
  intro executed told
  by_cases h : request.Admissible
  · obtain ⟨hresult, hattempted⟩ := execute_on_script request delay jitter h bus
    have htold : told = (bus.state.1.outlook.after request (bus.state.1.outlook.last request + 1),
        bus.state.1.outlook.report request) := if_pos h
    have hresult' : executed.2 = { bus.state.1.outlook.report request with
        retryDelayTotalMs := executed.2.retryDelayTotalMs } := hresult
    refine ⟨?_, ?_, ?_⟩
    · rw [htold, hresult']
      rfl
    · rw [htold]
      exact hattempted.outlook
    · rw [framesAfter, List.map_singleton, List.sum_singleton, hresult']
      simp only [Outlook.attempts_report request bus.state.1.outlook h]
      exact hattempted.transmittedFrameCount
  · have hexecuted := (service delay jitter).execute_of_not_admissible request bus h
    have htold : told = (bus.state.1.outlook, { status := .invalidRequest, lastPhyResult :=
        .invalidArgument }) := if_neg h
    have hsame : executed = (bus, { status := .invalidRequest, lastPhyResult := .invalidArgument }) :=
      Prod.ext (congrArg Prod.snd hexecuted) (congrArg Prod.fst hexecuted)
    rw [htold, hsame]
    refine ⟨rfl, rfl, ?_⟩
    have hnone : bus.state.1.framesAfter [{ status := .invalidRequest, lastPhyResult :=
        .invalidArgument }] = bus.state.1.framesAfter [] := rfl
    rw [hnone, framesAfter_nil]

/-- Requests of any kind, executed one after the other on the simulated PHY, report what its outlook
tells from the start: delays and jitters decide nothing, what is left of the script is its end, and
each attempt of a PHY that takes frames is a frame. -/
theorem requests_on_script (bus : Bus (SimulatedDaliPhy × τ)) (requests : List DaliRequest) :
    let executing := (service delay jitter).executing
    let outlook := bus.state.1.outlook
    let left := Outlook.telling.after outlook requests
    (executing.outputs bus requests).map (·.undelayed) =
        Outlook.telling.outputs outlook requests ∧
      (executing.after bus requests).state.1.outlook = left ∧
      left.refusal = outlook.refusal ∧ left.script <:+ outlook.script ∧
      (executing.after bus requests).state.1.transmittedFrameCount =
        bus.state.1.framesAfter (executing.outputs bus requests) := by
  intro executing outlook left
  have hstep := executing_step delay jitter
  refine ⟨?_, ?_, outlook.telling_after requests |>.1, outlook.telling_after requests |>.2, ?_⟩
  · have houtputs := Machine.outputs_project (M := executing) (N := Outlook.telling)
      (π := fun bus => bus.state.1.outlook) (g := id) (fun bus request => (hstep bus request).2.1)
      (fun bus request => (hstep bus request).1) bus requests
    rwa [List.map_id] at houtputs
  · exact Machine.after_project (M := executing) (N := Outlook.telling)
      (π := fun bus => bus.state.1.outlook) (fun bus request => (hstep bus request).2.1) bus requests
  · induction requests generalizing bus with
    | nil => exact (framesAfter_nil bus.state.1).symm
    | cons request requests ih =>
        obtain ⟨-, houtlook, hcount⟩ := hstep bus request
        have hrefusal : (executing.step bus request).1.state.1.refusal = bus.state.1.refusal := by
          have htold := (bus.state.1.outlook.telling_after [request]).1
          rw [Machine.after_cons, Machine.after_nil, ← houtlook] at htold
          exact htold
        rw [Machine.after_cons, Machine.outputs_cons, ← framesAfter_cons hrefusal hcount]
        exact ih (executing.step bus request).1

end Runs

end SimulatedDaliPhy

end DaliEdge
