import DaliEdge.Machine
import DaliEdge.Transaction
import DaliEdge.RetryLoop
import Mathlib.Algebra.Ring.Nat
import Mathlib.Data.UInt

/-!
# What a transaction does

The loop of `execute` as a loop that tries again: the outcome of an attempt is that of its
transmit, or of the receive that follows a successful one, and the transaction ends with the
first attempt whose outcome is not retryable, or with the last one that the request allows. The
record of the bus is then known event by event, and the result is read off the last attempt.
-/

namespace DaliEdge

def BusEvent.transmitted : BusEvent → Option UInt16
  | .transmit forwardFrame _ => some forwardFrame
  | _ => none

def BusEvent.delayed : BusEvent → Option UInt32
  | .delay delayMs => some delayMs
  | _ => none

namespace DaliTransactionService

variable {σ : Type*} (service : DaliTransactionService σ) (request : DaliRequest)

/-- The receive that follows a transmit of the request's frame. -/
def receiveResult (bus : Bus σ) : PhyResult × UInt8 :=
  let r := service.receive 0 request.timeoutMs (service.transmit request.frame.raw bus).2
  (r.1, r.2.1)

/-- The outcome of an attempt: the transmit's result if it is not `Ok` or no response is expected,
and the receive's otherwise. -/
def outcome (bus : Bus σ) : PhyResult :=
  if service.transmitResult request bus = .ok ∧ request.expectsResponse = true then
    (service.receiveResult request bus).1
  else service.transmitResult request bus

def attemptEvents (bus : Bus σ) : List BusEvent :=
  .transmit request.frame.raw (service.transmitResult request bus) ::
    if service.transmitResult request bus = .ok ∧ request.expectsResponse = true then
      [.receive request.timeoutMs (service.receiveResult request bus).1
        (service.receiveResult request bus).2]
    else []

theorem exchange_fst (bus : Bus σ) : (service.exchange request bus).1 = service.outcome request bus := by
  unfold exchange outcome transmitResult receiveResult
  simp only
  split_ifs <;> rfl

theorem exchange_byte (bus : Bus σ) (hok : service.outcome request bus = .ok)
    (hexpects : request.expectsResponse = true) :
    (service.exchange request bus).2.1 = (service.receiveResult request bus).2 := by
  have hsent : (service.transmit request.frame.raw bus).1 = .ok := by
    have h := service.transmitResult_of_exchange_ok request bus
    rw [exchange_fst] at h
    exact h hok
  unfold exchange
  rw [if_pos ⟨hsent, hexpects⟩]
  rfl

theorem extends_exchange (bus : Bus σ) :
    Bus.Extends bus (service.exchange request bus).2.2 (service.attemptEvents request bus) := by
  unfold exchange attemptEvents transmitResult receiveResult
  simp only
  split_ifs
  · exact (Bus.extends_record _ _ _).trans (Bus.extends_record _ _ _)
  · exact Bus.extends_record _ _ _

/-! ## The attempts of a request -/

/-- The loop of `execute`, over its result so far and the bus. -/
def retries : RetryLoop (DaliTransactionResult × Bus σ) PhyResult where
  outcome s := (service.exchange request s.2).1
  again := isRetryable
  limit := request.maxRetries.toNat
  next attempt s :=
    let r := service.exchange request s.2
    let waited := service.backOff attempt r.2.2
    let counted := s.1.countAttempt r.1
    ({ counted with retryDelayTotalMs := counted.retryDelayTotalMs + waited.1 }, waited.2)

/-- The bus before attempt `i`, if the attempts before it are all tried again. -/
def busBefore (bus : Bus σ) (i : ℕ) : Bus σ := ((service.retries request).before ({}, bus) i).2

def outcomeAt (bus : Bus σ) (i : ℕ) : PhyResult :=
  service.outcome request (service.busBefore request bus i)

/-- The number of the last attempt: the first whose outcome is not retryable, or `maxRetries`. -/
def lastAttempt (bus : Bus σ) : ℕ :=
  ((List.range request.maxRetries.toNat).find? fun i =>
    !isRetryable (service.outcomeAt request bus i)).getD request.maxRetries.toNat

/-- The jitter drawn after attempt `i`. -/
def jitterAt (bus : Bus σ) (i : ℕ) : UInt32 :=
  (service.nextJitter kMaximumJitterMs
    (service.exchange request (service.busBefore request bus i)).2.2).1

def retryDelayAt (bus : Bus σ) (i : ℕ) : UInt32 :=
  baseRetryDelayMs i + service.jitterAt request bus i

/-- The events of an attempt that is tried again, and of the pause behind it. -/
def retriedEvents (bus : Bus σ) (i : ℕ) : List BusEvent :=
  service.attemptEvents request (service.busBefore request bus i) ++
    [.jitter kMaximumJitterMs (service.jitterAt request bus i),
      .delay (service.retryDelayAt request bus i)]

/-- The events of a transaction whose last attempt is `n`. -/
def transactionEvents (bus : Bus σ) (n : ℕ) : List BusEvent :=
  (List.range n).flatMap (service.retriedEvents request bus) ++
    service.attemptEvents request (service.busBefore request bus n)

@[simp] theorem busBefore_zero (bus : Bus σ) : service.busBefore request bus 0 = bus := rfl

theorem retries_outcomeAt (bus : Bus σ) (i : ℕ) :
    (service.retries request).outcomeAt ({}, bus) i = service.outcomeAt request bus i :=
  service.exchange_fst request (service.busBefore request bus i)

theorem retries_last (bus : Bus σ) :
    (service.retries request).last ({}, bus) = service.lastAttempt request bus := by
  unfold RetryLoop.last lastAttempt
  simp only [retries_outcomeAt]
  rfl

theorem extends_busBefore (bus : Bus σ) (i : ℕ) :
    Bus.Extends bus (service.busBefore request bus i)
      ((List.range i).flatMap (service.retriedEvents request bus)) := by
  induction i with
  | zero => exact Bus.Extends.refl bus
  | succ i ih =>
      have hattempt := service.extends_exchange request (service.busBefore request bus i)
      have hpause : Bus.Extends (service.exchange request (service.busBefore request bus i)).2.2
          (service.busBefore request bus (i + 1))
          [.jitter kMaximumJitterMs (service.jitterAt request bus i),
            .delay (service.retryDelayAt request bus i)] :=
        (Bus.extends_record _ _ _).trans (Bus.extends_record _ _ _)
      rw [List.range_succ, List.flatMap_append, List.flatMap_singleton]
      exact ih.trans (hattempt.trans hpause)

theorem resultBefore_spec (bus : Bus σ) (i : ℕ) :
    let result := ((service.retries request).before ({}, bus) i).1
    result.status = .internalError ∧ result.response = none ∧ result.attempts = UInt8.ofNat i ∧
      result.retryDelayTotalMs = ((List.range i).map (service.retryDelayAt request bus)).sum := by
  induction i with
  | zero => exact ⟨rfl, rfl, rfl, rfl⟩
  | succ i ih =>
      obtain ⟨hstatus, hresponse, hattempts, hdelay⟩ := ih
      refine ⟨hstatus, hresponse, ?_, ?_⟩
      · change _ + 1 = _
        rw [hattempts, UInt8.ofNat_add]
        rfl
      · rw [List.range_succ, List.map_append, List.sum_append, ← hdelay, List.map_singleton,
          List.sum_singleton]
        rfl

/-- The answer of an attempt: the received byte when a response is expected and received. -/
def responseOf (bus : Bus σ) : Option UInt8 :=
  if service.outcome request bus = .ok ∧ request.expectsResponse = true then
    some (service.receiveResult request bus).2
  else none

theorem mapTerminalStatus_of_retryable {result : PhyResult} (h : isRetryable result = true) :
    mapTerminalStatus result = .retriesExhausted := by
  cases result <;> first | rfl | cases h

theorem mapTerminalStatus_eq_retriesExhausted_iff (result : PhyResult) :
    mapTerminalStatus result = .retriesExhausted ↔ isRetryable result = true :=
  (mapTerminalStatus_iff result).2.2.2.2.2.2

/-- The pass of the loop that ends it. -/
theorem attemptLoop_last (remaining attempt : ℕ) (result : DaliTransactionResult) (bus : Bus σ)
    (hresponse : result.response = none)
    (hlast : isRetryable (service.outcome request bus) = false ∨
      attempt = request.maxRetries.toNat) :
    service.attemptLoop request (remaining + 1) attempt result bus =
      ({ status := mapTerminalStatus (service.outcome request bus)
         response := service.responseOf request bus
         attempts := result.attempts + 1
         lastPhyResult := service.outcome request bus
         retryDelayTotalMs := result.retryDelayTotalMs }, (service.exchange request bus).2.2) := by
  simp only [attemptLoop, exchange_fst]
  by_cases hok : service.outcome request bus = .ok
  · rw [if_pos hok, responseOf]
    by_cases hexpects : request.expectsResponse = true
    · rw [if_pos hexpects, if_pos ⟨hok, hexpects⟩, service.exchange_byte request bus hok hexpects,
        hok]
      rfl
    · rw [if_neg hexpects, if_neg fun h => hexpects h.2, hok, ← hresponse]
      rfl
  · have hnone : service.responseOf request bus = result.response := by
      rw [hresponse, responseOf, if_neg fun h => hok h.1]
    rw [if_neg hok, hnone]
    by_cases hterminal : isRetryable (service.outcome request bus) = false
    · rw [if_pos hterminal]
      rfl
    · have hattempt := hlast.resolve_left hterminal
      rw [if_neg hterminal, if_pos hattempt,
        mapTerminalStatus_of_retryable (eq_true_of_ne_false hterminal)]
      rfl

theorem attemptLoop_again (remaining attempt : ℕ) (s : DaliTransactionResult × Bus σ)
    (hagain : isRetryable (service.exchange request s.2).1 = true)
    (hne : attempt ≠ request.maxRetries.toNat) :
    service.attemptLoop request (remaining + 1) attempt s.1 s.2 =
      service.attemptLoop request remaining (attempt + 1)
        ((service.retries request).next attempt s).1
        ((service.retries request).next attempt s).2 := by
  have hok : (service.exchange request s.2).1 ≠ .ok := by
    intro hok
    rw [hok] at hagain
    cases hagain
  have hretry : ¬ isRetryable (service.exchange request s.2).1 = false := by
    rw [hagain]
    decide
  simp only [attemptLoop]
  rw [if_neg hok, if_neg hretry, if_neg hne]
  rfl

theorem lastAttempt_spec (bus : Bus σ) :
    service.lastAttempt request bus ≤ request.maxRetries.toNat ∧
      (∀ i < service.lastAttempt request bus,
        isRetryable (service.outcomeAt request bus i) = true) ∧
      (isRetryable (service.outcomeAt request bus (service.lastAttempt request bus)) = false ∨
        service.lastAttempt request bus = request.maxRetries.toNat) := by
  have hspec := (service.retries request).last_spec ({}, bus)
  simp only [retries_outcomeAt, retries_last] at hspec
  exact hspec

/-- The result of a transaction, and all that it does to the bus. -/
theorem execute_eq (bus : Bus σ) (h : request.Admissible) {n : ℕ}
    (hn : service.lastAttempt request bus = n) :
    (service.execute request bus).1 =
      { status := mapTerminalStatus (service.outcomeAt request bus n)
        response := service.responseOf request (service.busBefore request bus n)
        attempts := UInt8.ofNat (n + 1)
        lastPhyResult := service.outcomeAt request bus n
        retryDelayTotalMs := ((List.range n).map (service.retryDelayAt request bus)).sum } ∧
      Bus.Extends bus (service.execute request bus).2 (service.transactionEvents request bus n) := by
  obtain ⟨hle, -, hended⟩ := service.lastAttempt_spec request bus
  have hunroll := (service.retries request).unroll ({}, bus)
    (fun remaining attempt s => service.attemptLoop request remaining attempt s.1 s.2) ?_
    (le_of_eq (service.retries_last request bus).symm)
  · obtain ⟨-, hresponse, hattempts, hdelay⟩ := service.resultBefore_spec request bus n
    have hremaining : request.maxRetries.toNat + 1 - n = (request.maxRetries.toNat - n) + 1 := by
      omega
    rw [hn] at hunroll hended
    rw [service.execute_of_admissible request bus h]
    change service.attemptLoop request (request.maxRetries.toNat + 1) 0 {} bus =
      service.attemptLoop request (request.maxRetries.toNat + 1 - n) n
        ((service.retries request).before ({}, bus) n).1 (service.busBefore request bus n) at hunroll
    rw [hunroll, hremaining, service.attemptLoop_last request _ _ _ _ hresponse hended, hattempts,
      hdelay]
    refine ⟨?_, (service.extends_busBefore request bus n).trans (service.extends_exchange request _)⟩
    rw [UInt8.ofNat_add]
    rfl
  · intro remaining attempt s hagain hne
    exact service.attemptLoop_again request remaining attempt s hagain hne

theorem execute_bus (bus : Bus σ) (h : request.Admissible) :
    (service.execute request bus).2 = (service.exchange request
      (service.busBefore request bus (service.lastAttempt request bus))).2.2 := by
  obtain ⟨hle, -, hended⟩ := service.lastAttempt_spec request bus
  have hunroll := (service.retries request).unroll ({}, bus)
    (fun remaining attempt s => service.attemptLoop request remaining attempt s.1 s.2)
    (fun remaining attempt s => service.attemptLoop_again request remaining attempt s)
    (le_of_eq (service.retries_last request bus).symm)
  obtain ⟨-, hresponse, -, -⟩ :=
    service.resultBefore_spec request bus (service.lastAttempt request bus)
  have hlast := service.attemptLoop_last request
    (request.maxRetries.toNat - service.lastAttempt request bus) _ _
    (service.busBefore request bus (service.lastAttempt request bus)) hresponse hended
  rw [← Nat.sub_add_comm hle] at hlast
  rw [service.execute_of_admissible request bus h]
  exact congrArg Prod.snd (hunroll.trans hlast)

def executing : Machine (Bus σ) DaliRequest DaliTransactionResult where
  step bus request := ((service.execute request bus).2, (service.execute request bus).1)

/-! ## The delays in milliseconds -/

theorem toNat_baseRetryDelayMs_le (i : ℕ) : (baseRetryDelayMs i).toNat ≤ 2000 := by
  obtain ⟨hfirst, hsecond, hlater⟩ := baseRetryDelayMs_values
  match i with
  | 0 => rw [hfirst]; decide
  | 1 => rw [hsecond]; decide
  | i + 2 => rw [hlater (i + 2) (Nat.le_add_left 2 i)]; decide

theorem toNat_retryDelayTotal (bus : Bus σ) {n : ℕ} (hn : n ≤ 8)
    (hjitter : ∀ i < n, service.jitterAt request bus i ≤ kMaximumJitterMs) :
    ((List.range n).map (service.retryDelayAt request bus)).sum.toNat =
        ((List.range n).map fun i =>
          (baseRetryDelayMs i).toNat + (service.jitterAt request bus i).toNat).sum ∧
      ((List.range n).map (service.retryDelayAt request bus)).sum.toNat ≤ 2025 * n := by
  induction n with
  | zero => exact ⟨rfl, le_rfl⟩
  | succ n ih =>
      obtain ⟨heq, hle⟩ := ih (by omega) fun i hi => hjitter i (by omega)
      have hbase := toNat_baseRetryDelayMs_le n
      have hdrawn : (service.jitterAt request bus n).toNat ≤ 25 :=
        UInt32.le_iff_toNat_le.1 (hjitter n (Nat.lt_succ_self n))
      have hdelay : (service.retryDelayAt request bus n).toNat =
          (baseRetryDelayMs n).toNat + (service.jitterAt request bus n).toNat := by
        rw [retryDelayAt, UInt32.toNat_add, Nat.mod_eq_of_lt (by omega)]
      rw [List.range_succ, List.map_append, List.map_append, List.sum_append, List.sum_append,
        List.map_singleton, List.map_singleton, List.sum_singleton, List.sum_singleton,
        UInt32.toNat_add, hdelay, Nat.mod_eq_of_lt (by omega), heq]
      constructor
      · rfl
      · omega

/-! ## Transmits and delays -/

theorem filterMap_attemptEvents (bus : Bus σ) :
    (service.attemptEvents request bus).filterMap BusEvent.transmitted = [request.frame.raw] ∧
      (service.attemptEvents request bus).filterMap BusEvent.delayed = [] := by
  unfold attemptEvents
  split_ifs <;> exact ⟨rfl, rfl⟩

theorem filterMap_retriedEvents (bus : Bus σ) (i : ℕ) :
    (service.retriedEvents request bus i).filterMap BusEvent.transmitted = [request.frame.raw] ∧
      (service.retriedEvents request bus i).filterMap BusEvent.delayed =
        [service.retryDelayAt request bus i] := by
  obtain ⟨htransmitted, hdelayed⟩ :=
    service.filterMap_attemptEvents request (service.busBefore request bus i)
  rw [retriedEvents, List.filterMap_append, List.filterMap_append, htransmitted, hdelayed]
  exact ⟨rfl, rfl⟩

theorem filterMap_flatMap_retriedEvents (bus : Bus σ) (n : ℕ) :
    ((List.range n).flatMap (service.retriedEvents request bus)).filterMap BusEvent.transmitted =
        List.replicate n request.frame.raw ∧
      ((List.range n).flatMap (service.retriedEvents request bus)).filterMap BusEvent.delayed =
        (List.range n).map (service.retryDelayAt request bus) := by
  induction n with
  | zero => exact ⟨rfl, rfl⟩
  | succ n ih =>
      obtain ⟨htransmitted, hdelayed⟩ := service.filterMap_retriedEvents request bus n
      rw [List.range_succ, List.flatMap_append, List.flatMap_singleton, List.filterMap_append,
        List.filterMap_append, ih.1, ih.2, htransmitted, hdelayed, List.map_append,
        List.map_singleton, List.replicate_succ']
      exact ⟨rfl, rfl⟩

theorem filterMap_transactionEvents (bus : Bus σ) (n : ℕ) :
    (service.transactionEvents request bus n).filterMap BusEvent.transmitted =
        List.replicate (n + 1) request.frame.raw ∧
      (service.transactionEvents request bus n).filterMap BusEvent.delayed =
        (List.range n).map (service.retryDelayAt request bus) := by
  obtain ⟨htransmitted, hdelayed⟩ :=
    service.filterMap_attemptEvents request (service.busBefore request bus n)
  obtain ⟨hretried, hpauses⟩ := service.filterMap_flatMap_retriedEvents request bus n
  rw [transactionEvents, List.filterMap_append, List.filterMap_append, htransmitted, hdelayed,
    hretried, hpauses, List.append_nil, List.replicate_succ']
  exact ⟨rfl, rfl⟩

/-- A transaction, attempt by attempt: its record, the transmits and delays in it, and the result
read off the last attempt. -/
theorem execute_attempts (request : DaliRequest) (bus : Bus σ) (h : request.Admissible) (n : ℕ)
    (hn : service.lastAttempt request bus = n) :
    Bus.Extends bus (service.execute request bus).2 (service.transactionEvents request bus n) ∧
    (service.transactionEvents request bus n).filterMap BusEvent.transmitted =
      List.replicate (n + 1) request.frame.raw ∧
    (service.transactionEvents request bus n).filterMap BusEvent.delayed =
      (List.range n).map (service.retryDelayAt request bus) ∧
    (service.execute request bus).1.attempts.toNat = n + 1 ∧
    (service.execute request bus).1.lastPhyResult = service.outcomeAt request bus n ∧
    (service.execute request bus).1.retryDelayTotalMs =
      ((List.range n).map (service.retryDelayAt request bus)).sum ∧
    ((∀ i < n, service.jitterAt request bus i ≤ kMaximumJitterMs) →
      (service.execute request bus).1.retryDelayTotalMs.toNat =
        ((List.range n).map fun i =>
          (baseRetryDelayMs i).toNat + (service.jitterAt request bus i).toNat).sum) ∧
    ((service.execute request bus).1.status = .ok ↔ service.outcomeAt request bus n = .ok) ∧
    ((service.execute request bus).1.status = .retriesExhausted ↔
      isRetryable (service.outcomeAt request bus n) = true) ∧
    (service.execute request bus).1.status = mapTerminalStatus (service.outcomeAt request bus n) ∧
    (service.execute request bus).1.response =
      if service.outcomeAt request bus n = .ok ∧ request.expectsResponse = true then
        some (service.receiveResult request (service.busBefore request bus n)).2
      else none := by
  obtain ⟨hresult, hextends⟩ := service.execute_eq request bus h hn
  obtain ⟨htransmitted, hdelayed⟩ := service.filterMap_transactionEvents request bus n
  have hle : n ≤ 8 := by
    have hmax : request.maxRetries.toNat ≤ 8 := UInt8.le_iff_toNat_le.1 h.2
    rw [← hn]
    exact (service.lastAttempt_spec request bus).1.trans hmax
  rw [hresult]
  refine ⟨hextends, htransmitted, hdelayed, ?_, rfl, rfl, fun hjitter => ?_,
    mapTerminalStatus_eq_ok_iff _, mapTerminalStatus_eq_retriesExhausted_iff _, rfl, rfl⟩
  · exact UInt8.toNat_ofNat_of_lt' (Nat.lt_of_le_of_lt (Nat.succ_le_succ hle) (by decide))
  · exact (service.toNat_retryDelayTotal request bus hle hjitter).1

/-- A PHY that answers 5, but not before it has been asked twice; every jitter is 3 ms. -/
def slowService : DaliTransactionService ℕ where
  phy := { transmit := fun _ asked => (.ok, asked)
           receive := fun byte _ asked =>
            if asked < 2 then (.timeout, byte, asked + 1) else (.ok, 5, asked) }
  delay := { delayMs := fun _ asked => asked }
  jitter := { next := fun _ asked => (3, asked) }

/-- The third attempt gets the answer, 606 ms of delays after the first. -/
theorem execute_attempts_example :
    let r := slowService.execute { maxRetries := 8, expectsResponse := true } ⟨0, []⟩
    r.1.attempts.toNat = 3 ∧ r.1.retryDelayTotalMs = 606 ∧ r.1.response = some 5 := by
  obtain ⟨-, -, -, hattempts, -, hdelay, -, -, -, -, hresponse⟩ :=
    slowService.execute_attempts { maxRetries := 8, expectsResponse := true } ⟨0, []⟩
      ⟨by decide, by decide⟩ 2 (by decide +kernel)
  refine ⟨hattempts, hdelay.trans ?_, hresponse.trans ?_⟩
  · decide +kernel
  · decide +kernel

end DaliTransactionService

end DaliEdge
