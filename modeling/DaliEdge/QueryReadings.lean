import DaliEdge.Attempts
import DaliEdge.ControlDelivery
import DaliEdge.History

/-!
# Readings of queries

A query classifies the result of its transaction, and the response parser classifies a PHY
result. On an idle pipeline the two agree: a query has a value exactly when the last receive of
its transaction returned `Ok`, and otherwise the quality that the parser gives to the PHY
result it reports.
-/

namespace DaliEdge

/-! ## The response parser -/

structure BackwardResponse where
  value : UInt8 := 0
  quality : ReadingQuality := .unknown
  deriving DecidableEq

structure BasicStatus where
  controlGearFailure : Bool := false
  lampFailure : Bool := false
  lampPowerOn : Bool := false
  limitError : Bool := false
  fadeRunning : Bool := false
  resetState : Bool := false
  missingShortAddress : Bool := false
  powerFailure : Bool := false
  deriving DecidableEq

def qualityFromPhyResult : PhyResult → ReadingQuality
  | .ok => .valid
  | .timeout | .busy | .collision => .temporarilyUnavailable
  | .busPowerLost | .transceiverFault | .invalidArgument | .notInitialised | .internalError =>
      .invalid

def makeBackwardResponse (result : PhyResult) (value : UInt8) : BackwardResponse :=
  ⟨value, qualityFromPhyResult result⟩

def unavailableReading {α : Type*} (zero : α) (quality : ReadingQuality) : Reading α :=
  ⟨zero, quality, 0, 0, false⟩

def parseYesNo (response : BackwardResponse) : Reading Bool :=
  if response.quality ≠ .valid then unavailableReading false response.quality
  else .valid (response.value ≠ 0) 0 0

def parseBasicStatus (response : BackwardResponse) : Reading BasicStatus :=
  if response.quality ≠ .valid then unavailableReading {} response.quality
  else
    let value := response.value
    .valid ⟨value &&& 0x01 ≠ 0, value &&& 0x02 ≠ 0, value &&& 0x04 ≠ 0, value &&& 0x08 ≠ 0,
      value &&& 0x10 ≠ 0, value &&& 0x20 ≠ 0, value &&& 0x40 ≠ 0, value &&& 0x80 ≠ 0⟩ 0 0

theorem parse_quality (response : BackwardResponse) :
    (parseYesNo response).quality = response.quality ∧
      (parseBasicStatus response).quality = response.quality := by
  unfold parseYesNo parseBasicStatus
  by_cases h : response.quality = .valid
  · rw [if_neg (not_not.2 h), if_neg (not_not.2 h), h]
    exact ⟨rfl, rfl⟩
  · rw [if_pos h, if_pos h]
    exact ⟨rfl, rfl⟩

/-! ## The last receive of a transaction -/

def BusEvent.received : BusEvent → Option (PhyResult × UInt8)
  | .receive _ result backwardFrame => some (result, backwardFrame)
  | _ => none

def lastReceive (events : List BusEvent) : Option (PhyResult × UInt8) :=
  History.latest BusEvent.received events

namespace DaliTransactionService

variable {σ : Type*} (service : DaliTransactionService σ) (request : DaliRequest)

theorem lastReceive_attemptEvents (bus : Bus σ) :
    lastReceive (service.attemptEvents request bus) =
      if service.transmitResult request bus = .ok ∧ request.expectsResponse = true then
        some (service.receiveResult request bus)
      else none := by
  unfold attemptEvents
  split_ifs <;> rfl

theorem lastReceive_retriedEvents (bus : Bus σ) (n : ℕ)
    (hretried : ∀ i < n, isRetryable (service.outcomeAt request bus i) = true) (byte : UInt8) :
    lastReceive ((List.range n).flatMap (service.retriedEvents request bus)) ≠ some (.ok, byte) := by
  induction n with
  | zero => exact fun h => by cases h
  | succ n ih =>
      have hrest := ih fun i hi => hretried i (by omega)
      have hn := hretried n (Nat.lt_succ_self n)
      have hpause : lastReceive (service.retriedEvents request bus n) =
          lastReceive (service.attemptEvents request (service.busBefore request bus n)) := by
        rw [retriedEvents, lastReceive, History.latest_append]
        rfl
      rw [List.range_succ, List.flatMap_append, List.flatMap_singleton, lastReceive,
        History.latest_append]
      change (lastReceive (service.retriedEvents request bus n)).or (lastReceive _) ≠ _
      rw [hpause, lastReceive_attemptEvents]
      split_ifs with hsent
      · rw [Option.some_or]
        intro h
        rw [outcomeAt, outcome, if_pos hsent, Option.some.inj h] at hn
        cases hn
      · exact hrest

theorem lastReceive_transactionEvents (bus : Bus σ) (n : ℕ)
    (hretried : ∀ i < n, isRetryable (service.outcomeAt request bus i) = true)
    (hexpects : request.expectsResponse = true) (byte : UInt8) :
    lastReceive (service.transactionEvents request bus n) = some (.ok, byte) ↔
      service.outcomeAt request bus n = .ok ∧
        (service.receiveResult request (service.busBefore request bus n)).2 = byte := by
  rw [transactionEvents, lastReceive, History.latest_append]
  change (lastReceive (service.attemptEvents request _)).or (lastReceive _) = _ ↔ _
  rw [lastReceive_attemptEvents]
  by_cases hsent : service.transmitResult request (service.busBefore request bus n) = .ok
  · rw [if_pos ⟨hsent, hexpects⟩, Option.some_or, Option.some.injEq, Prod.ext_iff, outcomeAt,
      outcome, if_pos ⟨hsent, hexpects⟩]
  · rw [if_neg fun h => hsent h.1, Option.none_or, outcomeAt, outcome, if_neg fun h => hsent h.1]
    constructor
    · exact fun h => absurd h (service.lastReceive_retriedEvents request bus n hretried byte)
    · exact fun h => absurd h.1 hsent

/-- A transaction that expects a response has one exactly when it ends `Ok`, and that is when its
last receive returned `Ok`. -/
theorem execute_receives (hexpects : request.expectsResponse = true) (bus : Bus σ) :
    ∃ events, Bus.Extends bus (service.execute request bus).2 events ∧
      ((service.execute request bus).1.status = .ok ↔
        (service.execute request bus).1.lastPhyResult = .ok) ∧
      ((service.execute request bus).1.lastPhyResult = .ok ↔
        ∃ byte, (service.execute request bus).1.response = some byte) ∧
      ∀ byte, lastReceive events = some (.ok, byte) ↔
        (service.execute request bus).1.response = some byte := by
  by_cases h : request.Admissible
  · obtain ⟨-, hretried, -⟩ := service.lastAttempt_spec request bus
    obtain ⟨hresult, hextends⟩ := service.execute_eq request bus h rfl
    have hresponse : (service.execute request bus).1.response =
        if (service.execute request bus).1.lastPhyResult = .ok ∧ request.expectsResponse = true then
          some (service.receiveResult request
            (service.busBefore request bus (service.lastAttempt request bus))).2
        else none := by
      rw [hresult]
      rfl
    refine ⟨_, hextends, ?_, ?_, fun byte => ?_⟩
    · rw [hresult]
      exact mapTerminalStatus_eq_ok_iff _
    · rw [hresponse, hexpects]
      split_ifs with hok
      · exact iff_of_true hok.1 ⟨_, rfl⟩
      · exact iff_of_false (fun h => hok ⟨h, rfl⟩) (fun ⟨_, h⟩ => (by cases h))
    · rw [hresponse, hresult, service.lastReceive_transactionEvents request bus _ hretried hexpects]
      split_ifs with hok
      · rw [Option.some.injEq]
        exact and_iff_right hok.1
      · exact iff_of_false (fun h => hok ⟨h.1, hexpects⟩) (fun h => (by cases h))
  · rw [service.execute_of_not_admissible request bus h]
    refine ⟨[], Bus.Extends.refl bus, ?_, ?_, fun byte => ?_⟩
    · exact iff_of_false (fun hs => (by cases hs)) (fun hp => (by cases hp))
    · exact iff_of_false (fun hp => (by cases hp)) (fun ⟨_, hr⟩ => (by cases hr))
    · exact iff_of_false (fun hl => (by cases hl)) (fun hr => (by cases hr))

end DaliTransactionService

/-! ## The classification of a query -/

theorem readings_of_response (result : DaliTransactionResult) {byte : UInt8}
    (hstatus : result.status = .ok) (hresponse : result.response = some byte) :
    outcomeFromResult result = .ok ∧
      readingForResult result (outcomeFromResult result) = .valid byte 0 0 := by
  have houtcome : outcomeFromResult result = .ok := by
    rw [outcomeFromResult, hresponse]
    exact if_pos ⟨hstatus, rfl⟩
  rw [houtcome]
  unfold readingForResult
  rw [hresponse]
  exact ⟨rfl, rfl⟩

theorem readings_of_failure (result : DaliTransactionResult) (hresponse : result.response = none)
    (hfailed : result.lastPhyResult ≠ .ok) :
    outcomeFromResult result ≠ .ok ∧
      (readingForResult result (outcomeFromResult result)).quality =
        qualityFromPhyResult result.lastPhyResult := by
  obtain ⟨status, response, attempts, lastPhyResult, retryDelayTotalMs⟩ := result
  subst hresponse
  have hno : ¬ (status = .ok ∧ (none : Option UInt8).isSome = true) :=
    fun h => Bool.false_ne_true h.2
  simp only [outcomeFromResult, if_neg hno]
  cases lastPhyResult with
  | ok => exact absurd rfl hfailed
  | timeout | busy | collision | busPowerLost | transceiverFault | invalidArgument | notInitialised
  | internalError => exact ⟨fun h => (by cases h), rfl⟩

theorem hasValue_iff_of_quality (reading : Reading UInt8) (result : PhyResult)
    (h : reading.quality = qualityFromPhyResult result) : reading.hasValue = true ↔ result = .ok := by
  unfold Reading.hasValue
  rw [h]
  cases result <;> decide

theorem readingForResult_agrees (result : DaliTransactionResult)
    (hstatus : result.status = .ok ↔ result.lastPhyResult = .ok)
    (hresponse : result.lastPhyResult = .ok ↔ ∃ byte, result.response = some byte) :
    (outcomeFromResult result = .ok ↔ result.lastPhyResult = .ok) ∧
      (∀ byte, result.response = some byte →
        (readingForResult result (outcomeFromResult result)).value = byte) ∧
      (readingForResult result (outcomeFromResult result)).quality =
        qualityFromPhyResult result.lastPhyResult := by
  cases hr : result.response with
  | some byte =>
      have hok := hresponse.2 ⟨byte, hr⟩
      obtain ⟨houtcome, hreading⟩ := readings_of_response result (hstatus.2 hok) hr
      rw [hreading, hok]
      exact ⟨iff_of_true houtcome rfl, fun _ h => Option.some.inj h, rfl⟩
  | none =>
      have hfailed : result.lastPhyResult ≠ .ok := by
        intro hok
        obtain ⟨byte, hbyte⟩ := hresponse.1 hok
        rw [hr] at hbyte
        cases hbyte
      obtain ⟨houtcome, hquality⟩ := readings_of_failure result hr hfailed
      exact ⟨iff_of_false houtcome hfailed, fun _ h => (by cases h), hquality⟩

namespace PipelineQueryClient

variable {σ : Type*} (service : DaliTransactionService σ)

/-- A query on an idle pipeline has a value exactly when its last receive returned `Ok`, which is
when its outcome is `Ok`; its quality is the one the parser gives to the PHY result. -/
theorem query_reads_as_parsed (client : PipelineQueryClient) (address : ShortAddress)
    (command : DaliCommand) (priority : CommandPriority) (st : Station σ) (h : st.Idle) :
    let r := client.query service address command priority st
    ∃ events, Bus.Extends st.bus r.2.2.bus events ∧
      (r.1.response.hasValue = true ↔ r.1.outcome = .ok) ∧
      (r.1.outcome = .ok ↔ ∃ byte, lastReceive events = some (.ok, byte)) ∧
      (∀ byte, lastReceive events = some (.ok, byte) → r.1.response.value = byte) ∧
      ∀ byte, r.1.response.quality = (makeBackwardResponse r.1.phyResult byte).quality := by
  intro r
  obtain ⟨hreport, hstation⟩ := ClientCall.query_eq_transact service client address command priority st
  obtain ⟨st', htransact, -, hbus⟩ :=
    Station.transact_of_idle service (client.request address command priority) h
  obtain ⟨events, hextends, hstatus, hresponse, hreceive⟩ :=
    service.execute_receives (client.request address command priority) rfl st.bus
  simp only [htransact] at hreport hstation
  obtain ⟨houtcome, hvalue, hquality⟩ := readingForResult_agrees _ hstatus hresponse
  refine ⟨events, ?_, ?_, ?_, fun byte hbyte => ?_, fun byte => ?_⟩
  · rw [hstation, hbus]
    exact hextends
  · rw [hreport]
    exact (hasValue_iff_of_quality _ _ hquality).trans houtcome.symm
  · rw [hreport]
    exact (houtcome.trans hresponse).trans (exists_congr fun byte => (hreceive byte).symm)
  · rw [hreport]
    exact hvalue byte ((hreceive byte).1 hbyte)
  · rw [hreport]
    exact hquality

/-- The slow PHY answers the third attempt. -/
theorem query_reads_as_parsed_example :
    let r := query DaliTransactionService.slowService {} (.ofIndex 3) .queryStatus .normal
      (Station.initial 0)
    (∃ events, Bus.Extends ⟨0, []⟩ r.2.2.bus events ∧
      ∃ byte, lastReceive events = some (.ok, byte)) ∧
      r.1.response.quality = (makeBackwardResponse r.1.phyResult 0).quality := by
  obtain ⟨events, hextends, -, hlast, -, hquality⟩ :=
    query_reads_as_parsed DaliTransactionService.slowService {} (.ofIndex 3) .queryStatus .normal
      (Station.initial 0) rfl
  exact ⟨⟨events, hextends, hlast.1 (by decide +kernel)⟩, hquality 0⟩

end PipelineQueryClient

end DaliEdge
