import DaliEdge.FaultyBus

/-!
# Control commands on the bus

A control command expects no answer, so its transaction ends with the first transmit that the
PHY accepts. On a pipeline that is idle when the calls begin every call therefore puts its
frame on the bus once if it reports success, and not at all otherwise.
-/

namespace DaliEdge

def BusEvent.acceptedFrame : BusEvent → Option ForwardFrame
  | .transmit forwardFrame .ok => some ⟨forwardFrame⟩
  | _ => none

def acceptedFrames (events : List BusEvent) : List ForwardFrame :=
  events.filterMap BusEvent.acceptedFrame

@[simp] theorem acceptedFrames_append (xs ys : List BusEvent) :
    acceptedFrames (xs ++ ys) = acceptedFrames xs ++ acceptedFrames ys := List.filterMap_append

theorem acceptedFrames_transmit (frame : ForwardFrame) (result : PhyResult) :
    acceptedFrames [.transmit frame.raw result] = if result = .ok then [frame] else [] := by
  cases result <;> rfl

namespace DaliTransactionService

variable {σ : Type*} (service : DaliTransactionService σ) (request : DaliRequest)

theorem exchange_of_no_response (h : request.expectsResponse = false) (bus : Bus σ) :
    Bus.Extends bus (service.exchange request bus).2.2
      [.transmit request.frame.raw (service.exchange request bus).1] := by
  have hno : ¬ ((service.transmit request.frame.raw bus).1 = .ok ∧
      request.expectsResponse = true) := by
    rw [h]
    exact fun hc => Bool.false_ne_true hc.2
  rw [exchange, if_neg hno]
  exact Bus.extends_record _ _ _

/-- Without an answer to wait for, the loop ends with the first accepted transmit. -/
theorem attemptLoop_accepts (h : request.expectsResponse = false) (remaining attempt : ℕ)
    (result : DaliTransactionResult) (bus : Bus σ) :
    ∃ events, Bus.Extends bus (service.attemptLoop request remaining attempt result bus).2 events ∧
      acceptedFrames events =
        if (service.attemptLoop request remaining attempt result bus).1.status = .ok then
          [request.frame] else [] := by
  induction remaining generalizing attempt result bus with
  | zero => exact ⟨[], Bus.Extends.refl _, rfl⟩
  | succ remaining ih =>
      have hx := service.exchange_of_no_response request h bus
      rcases service.attemptLoop_step request remaining attempt result bus with
        ⟨result', heq, hs⟩ | ⟨hretry, result', heq⟩
      · rw [heq]
        refine ⟨_, hx, ?_⟩
        rw [acceptedFrames_transmit]
        exact if_congr hs.symm rfl rfl
      · obtain ⟨value, hwait⟩ :=
          service.backOff_extends attempt (service.exchange request bus).2.2
        obtain ⟨events, he, haccepted⟩ := ih (attempt + 1) result'
          (service.backOff attempt (service.exchange request bus).2.2).2
        have hne : (service.exchange request bus).1 ≠ .ok := by
          intro hok
          rw [hok] at hretry
          exact Bool.false_ne_true hretry
        rw [heq]
        refine ⟨_, (hx.trans hwait).trans he, ?_⟩
        rw [acceptedFrames_append, acceptedFrames_append, acceptedFrames_transmit, if_neg hne,
          haccepted]
        rfl

theorem execute_accepts (h : request.expectsResponse = false) (bus : Bus σ) :
    ∃ events, Bus.Extends bus (service.execute request bus).2 events ∧
      acceptedFrames events =
        if (service.execute request bus).1.status = .ok then [request.frame] else [] := by
  by_cases hadmissible : request.Admissible
  · rw [service.execute_of_admissible request bus hadmissible]
    exact service.attemptLoop_accepts request h _ _ _ bus
  · rw [service.execute_of_not_admissible request bus hadmissible]
    exact ⟨[], Bus.Extends.refl _, rfl⟩

end DaliTransactionService

/-! ## The frame a call asks for -/

namespace ClientCall

/-- The address byte of the call's target, and the data byte. -/
def target : ClientCall → UInt8 × UInt8
  | .query _ address command _ => (2 * address.value + 1, command.code)
  | .sendShort _ address command _ => (2 * address.value + 1, command.code)
  | .sendGroup _ address command _ => (0x80 + 2 * address.value + 1, command.code)
  | .sendBroadcast _ command _ => (0xFF, command.code)
  | .setShortLevel _ address level _ => (2 * address.value, level)
  | .setGroupLevel _ address level _ => (0x80 + 2 * address.value, level)
  | .setDtr0 _ value _ => (0xA3, value)
  | .sendSpecial _ command parameter _ => (command.code, parameter)

theorem shortAddress_bits (address : ShortAddress) :
    (address.value <<< 1) ||| 0x01 = 2 * address.value + 1 ∧
      address.value <<< 1 = 2 * address.value := by
  obtain ⟨raw, rfl⟩ := ShortAddress.ofIndex_surjective address
  revert raw
  decide

theorem groupAddress_bits (address : GroupAddress) :
    (0x81 : UInt8) ||| (address.value <<< 1) = 0x80 + 2 * address.value + 1 ∧
      (0x80 : UInt8) ||| (address.value <<< 1) = 0x80 + 2 * address.value := by
  have hall : ∀ n < 16, (0x81 : UInt8) ||| (UInt8.ofNat n <<< 1) = 0x80 + 2 * UInt8.ofNat n + 1 ∧
      (0x80 : UInt8) ||| (UInt8.ofNat n <<< 1) = 0x80 + 2 * UInt8.ofNat n := by decide
  have hle := address.value_le
  rw [UInt8.le_iff_toNat_le] at hle
  have h := hall address.value.toNat (Nat.lt_succ_of_le hle)
  rwa [UInt8.ofNat_toNat] at h

theorem value_of_fromRaw {level : UInt8} {arc : ArcLevel} (h : ArcLevel.fromRaw level = some arc) :
    arc.value = level := by
  unfold ArcLevel.fromRaw at h
  split_ifs at h
  cases h
  rfl

theorem frame_of_request {call : ClientCall} {request : DaliRequest}
    (h : call.request = some request) :
    request.frame = makeFrame call.target.1 call.target.2 := by
  cases call <;> simp only [ClientCall.request, Option.map_eq_some_iff, Option.some.injEq] at h
  case query client address command priority =>
      subst h
      exact congrArg (makeFrame · _) (shortAddress_bits address).1
  case sendShort control address command priority =>
      subst h
      exact congrArg (makeFrame · _) (shortAddress_bits address).1
  case sendGroup control address command priority =>
      subst h
      exact congrArg (makeFrame · _) (groupAddress_bits address).1
  case setShortLevel control address level priority =>
      obtain ⟨arc, harc, rfl⟩ := h
      exact congrArg₂ makeFrame (shortAddress_bits address).2 (value_of_fromRaw harc)
  case setGroupLevel control address level priority =>
      obtain ⟨arc, harc, rfl⟩ := h
      exact congrArg₂ makeFrame (groupAddress_bits address).2 (value_of_fromRaw harc)
  all_goals
    subst h
    rfl

theorem expectsResponse_of_control {call : ClientCall} {request : DaliRequest}
    (h : call.request = some request) (hcontrol : call.isQuery = false) :
    request.expectsResponse = false := by
  cases call <;> simp only [ClientCall.request, Option.map_eq_some_iff, Option.some.injEq] at h
  case query => cases hcontrol
  case setShortLevel => obtain ⟨arc, _, rfl⟩ := h; rfl
  case setGroupLevel => obtain ⟨arc, _, rfl⟩ := h; rfl
  all_goals subst h; rfl

end ClientCall

/-! ## Records of the calls -/

/-- A call with what it reports and the frames that the PHY accepted during it. -/
structure CallRecord where
  call : ClientCall
  outcome : CallOutcome
  accepted : List ForwardFrame

def CallOutcome.isQueueFull : CallOutcome → Bool
  | .query result => result.outcome = .queueFull
  | .control result => result = .queueFull

namespace CallRecord

def isControl (r : CallRecord) : Bool := !r.call.isQuery

def succeeded (r : CallRecord) : Bool := r.outcome = .control .ok

/-- The call is not turned away, and a control command has put its frame on the bus once or never,
as it reports. -/
structure Delivered (r : CallRecord) : Prop where
  not_full : r.outcome.isQueueFull = false
  control_of_outcome : ∀ result, r.outcome = .control result → r.isControl = true
  accepted_eq : r.isControl = true → r.accepted =
    if r.succeeded then [makeFrame r.call.target.1 r.call.target.2] else []

theorem frames_of_delivered {records : List CallRecord} (h : ∀ r ∈ records, r.Delivered) :
    (records.filter isControl).flatMap accepted =
      (records.filter succeeded).map fun r => makeFrame r.call.target.1 r.call.target.2 := by
  induction records with
  | nil => rfl
  | cons r records ih =>
      have hr := h r List.mem_cons_self
      have hrest := ih fun r' hr' => h r' (List.mem_cons_of_mem _ hr')
      by_cases hok : r.succeeded = true
      · have hcontrol := hr.control_of_outcome .ok (of_decide_eq_true hok)
        rw [List.filter_cons_of_pos hcontrol, List.filter_cons_of_pos hok, List.flatMap_cons,
          List.map_cons, hr.accepted_eq hcontrol, if_pos hok, hrest]
        rfl
      · rw [List.filter_cons_of_neg hok]
        by_cases hcontrol : r.isControl = true
        · rw [List.filter_cons_of_pos hcontrol, List.flatMap_cons, hr.accepted_eq hcontrol,
            if_neg hok, hrest]
          rfl
        · rw [List.filter_cons_of_neg hcontrol, hrest]

end CallRecord

namespace ClientCall

variable {σ : Type*} (service : DaliTransactionService σ)

/-- The calls as steps on the station, each leaving its record. -/
def recorder : Machine (Station σ) ClientCall CallRecord where
  step st call :=
    let performed := call.perform service st
    (performed.2, ⟨call, performed.1, acceptedFrames (Bus.since st.bus performed.2.bus)⟩)

theorem perform_of_idle {call : ClientCall} {request : DaliRequest} (h : call.request = some request)
    {st : Station σ} (hidle : st.Idle) :
    let executed := service.execute request st.bus
    (call.perform service st).1 = call.report (.ok, some ⟨request, executed.1⟩) ∧
      (call.perform service st).2.Idle ∧ (call.perform service st).2.bus = executed.2 := by
  obtain ⟨st', htransact, hidle', hbus⟩ := Station.transact_of_idle service request hidle
  have hperform := perform_eq_transact service st h
  simp only [htransact] at hperform
  simp only [hperform]
  exact ⟨trivial, hidle', hbus⟩

theorem outcomeFromResult_ne_queueFull (result : DaliTransactionResult) :
    outcomeFromResult result ≠ .queueFull := by
  unfold outcomeFromResult
  split_ifs
  · exact fun h => by cases h
  · cases result.lastPhyResult <;> exact fun h => by cases h

theorem delivered_of_idle (call : ClientCall) {st : Station σ} (h : st.Idle) :
    ((recorder service).step st call).1.Idle ∧ ((recorder service).step st call).2.Delivered := by
  simp only [recorder]
  cases hrequest : call.request with
  | none =>
      rw [call.perform_of_no_request service st hrequest]
      have hevents : Bus.since st.bus st.bus = [] := (Bus.Extends.refl st.bus).since_eq
      rw [hevents]
      refine ⟨h, rfl, fun _ _ => ?_, fun _ => rfl⟩
      cases call <;> first | rfl | cases hrequest
  | some request =>
      obtain ⟨houtcome, hidle, hbus⟩ := perform_of_idle service hrequest h
      refine ⟨hidle, ?_⟩
      rw [houtcome, hbus]
      by_cases hquery : call.isQuery = true
      · have hreport : call.report (.ok, some ⟨request, (service.execute request st.bus).1⟩) =
            .query (queryReport (.ok, some ⟨request, (service.execute request st.bus).1⟩)) :=
          if_pos hquery
        rw [hreport]
        refine ⟨?_, fun result hresult => (by cases hresult), fun hcontrol => ?_⟩
        · exact decide_eq_false (outcomeFromResult_ne_queueFull _)
        · simp only [CallRecord.isControl, hquery] at hcontrol
          cases hcontrol
      · have hreport : call.report (.ok, some ⟨request, (service.execute request st.bus).1⟩) =
            .control (if (service.execute request st.bus).1.status = .ok then .ok
              else .transactionFailed) := if_neg hquery
        have hcontrol : call.isQuery = false := Bool.eq_false_iff.2 hquery
        have hisControl : (!call.isQuery) = true := by rw [hcontrol]; rfl
        obtain ⟨events, hextends, haccepted⟩ := service.execute_accepts request
          (expectsResponse_of_control hrequest hcontrol) st.bus
        rw [hreport, hextends.since_eq, haccepted, frame_of_request hrequest]
        by_cases hok : (service.execute request st.bus).1.status = .ok
        · rw [if_pos hok, if_pos hok]
          exact ⟨rfl, fun _ _ => hisControl, fun _ => rfl⟩
        · rw [if_neg hok, if_neg hok]
          exact ⟨rfl, fun _ _ => hisControl, fun _ => rfl⟩

theorem delivered_run (calls : List ClientCall) {st : Station σ} (h : st.Idle) :
    ((recorder service).after st calls).Idle ∧
      ∀ r ∈ (recorder service).outputs st calls, r.Delivered := by
  induction calls generalizing st with
  | nil => exact ⟨h, fun r hr => absurd hr List.not_mem_nil⟩
  | cons call calls ih =>
      obtain ⟨hidle, hdelivered⟩ := delivered_of_idle service call h
      obtain ⟨hafter, hrest⟩ := ih hidle
      refine ⟨hafter, fun r hr => ?_⟩
      rcases List.mem_cons.1 hr with rfl | hr
      · exact hdelivered
      · exact hrest r hr

/-- The frames accepted during control commands are those of the commands that report success, each
once and in the order of the calls. -/
theorem control_commands_exactly_once (calls : List ClientCall) (st : Station σ) (h : st.Idle) :
    let records := (recorder service).outputs st calls
    ((recorder service).after st calls).Idle ∧
      (∀ r ∈ records, r.outcome.isQueueFull = false) ∧
      (((records.filter CallRecord.isControl).flatMap CallRecord.accepted).map fun frame =>
          (frame.addressByte, frame.dataByte)) =
        ((records.filter CallRecord.succeeded).map fun r => r.call.target) ∧
      ∀ r ∈ records, r.outcome = .control .transactionFailed ∨
        r.outcome = .control .invalidArgument → r.accepted = [] := by
  intro records
  obtain ⟨hidle, hdelivered⟩ := delivered_run service calls h
  refine ⟨hidle, fun r hr => (hdelivered r hr).not_full, ?_, fun r hr hfailed => ?_⟩
  · rw [CallRecord.frames_of_delivered hdelivered, List.map_map]
    refine List.map_congr_left fun r _ => ?_
    simp
  · obtain ⟨result, houtcome, hne⟩ : ∃ result, r.outcome = .control result ∧ result ≠ .ok := by
      rcases hfailed with hfailed | hfailed
      · exact ⟨_, hfailed, by decide⟩
      · exact ⟨_, hfailed, by decide⟩
    have hfail : ¬ r.succeeded = true := by
      rw [CallRecord.succeeded, decide_eq_true_iff, houtcome, CallOutcome.control.injEq]
      exact hne
    rw [(hdelivered r hr).accepted_eq ((hdelivered r hr).control_of_outcome result houtcome),
      if_neg hfail]

/-- A PHY that is busy at every other transmit. -/
def hesitantService : DaliTransactionService ℕ where
  phy :=
    { transmit := fun _ sent => (if sent % 2 = 0 then .busy else .ok, sent + 1)
      receive := fun byte _ sent => (.timeout, byte, sent) }
  delay := ⟨fun _ sent => sent⟩
  jitter := ⟨fun _ sent => (0, sent)⟩

/-- A level for group 3 and a broadcast are each sent twice and accepted once; a level that is no
arc level is not sent. -/
theorem control_commands_exactly_once_retried :
    let records := (recorder hesitantService).outputs (Station.initial 0)
      [.setGroupLevel {} ⟨3, by decide⟩ 128 .normal, .setGroupLevel {} ⟨3, by decide⟩ 255 .normal,
        .sendBroadcast {} ⟨0x05⟩ .high]
    (((records.filter CallRecord.isControl).flatMap CallRecord.accepted).map fun frame =>
        (frame.addressByte, frame.dataByte)) = [(0x86, 128), (0xFF, 0x05)] := by
  intro records
  obtain ⟨-, -, hframes, -⟩ :=
    control_commands_exactly_once hesitantService _ (Station.initial 0) rfl
  rw [hframes]
  decide +kernel

end ClientCall

end DaliEdge
