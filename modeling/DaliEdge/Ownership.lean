import DaliEdge.ClientCalls

/-!
# Whose transaction a call reports

Two requests in the queue can be equal as data, so the code's own state does not tell them
apart. The ledger numbers the requests in the order in which the queue accepts them and keeps
the number of every occupied slot; the pipeline itself is untouched. A call reports on its own
request when the number of the request it processed is the number its own request was given.
-/

namespace DaliEdge

structure Ledger (σ : Type*) where
  station : Station σ
  owners : List ℕ
  issued : ℕ

structure CallReport where
  outcome : CallOutcome
  /-- The number that the call's own request was given. -/
  ticket : Option ℕ
  /-- The number of the request whose transaction the call reports. -/
  executed : Option ℕ

inductive PipelineOp
  | enqueue (request : DaliRequest)
  | processNext
  | call (call : ClientCall)

namespace Ledger

variable {σ : Type*} (service : DaliTransactionService σ)

def initial (state : σ) : Ledger σ := ⟨.initial state, [], 0⟩

def enqueue (request : DaliRequest) (l : Ledger σ) : QueueResult × Ledger σ :=
  let r := l.station.enqueue request
  if r.1 = .ok then
    (r.1, ⟨r.2, l.owners.insertIdx (l.station.pipeline.queue.insertionIndex request) l.issued,
      l.issued + 1⟩)
  else (r.1, { l with station := r.2 })

def processNext (l : Ledger σ) : Option ProcessedDaliRequest × Ledger σ :=
  let r := l.station.processNext service
  (r.1, ⟨r.2, l.owners.tail, l.issued⟩)

/-- A call, with the numbers of its own request and of the request it processes. -/
def call (c : ClientCall) (l : Ledger σ) : CallReport × Ledger σ :=
  let outcome := (c.perform service l.station).1
  match c.request with
  | none => (⟨outcome, none, none⟩, l)
  | some request =>
      let enqueued := l.enqueue request
      if enqueued.1 ≠ .ok then (⟨outcome, none, none⟩, enqueued.2)
      else (⟨outcome, some l.issued, enqueued.2.owners.head?⟩, (enqueued.2.processNext service).2)

def machine : Machine (Ledger σ) PipelineOp (Option CallReport) where
  step l
    | .enqueue request => ((l.enqueue request).2, none)
    | .processNext => ((l.processNext service).2, none)
    | .call c => ((l.call service c).2, some (l.call service c).1)

/-- Every slot has its number, the numbers are spent ones, and the queue is in order. -/
structure Valid (l : Ledger σ) : Prop where
  length_owners : l.owners.length = l.station.waiting.length
  lt_issued : ∀ n ∈ l.owners, n < l.issued
  sorted : StableQueue.Sorted DaliRequest.urgency l.station.waiting

theorem initial_valid (state : σ) : (initial state).Valid :=
  ⟨rfl, fun _ hn => absurd hn List.not_mem_nil, List.Pairwise.nil⟩

theorem enqueue_of_lt (request : DaliRequest) (l : Ledger σ)
    (h : l.station.pipeline.queue.count < 64) :
    l.enqueue request = (.ok, ⟨(l.station.enqueue request).2,
      l.owners.insertIdx (StableQueue.slot DaliRequest.urgency request l.station.waiting) l.issued,
      l.issued + 1⟩) := by
  have hok := (Station.enqueue_ok_iff request l.station).2 h
  simp only [enqueue, hok, if_true, DaliCommandQueue.insertionIndex_eq]
  rfl

theorem enqueue_of_full (request : DaliRequest) (l : Ledger σ)
    (h : ¬ l.station.pipeline.queue.count < 64) : l.enqueue request = (.full, l) := by
  rw [enqueue, Station.enqueue_of_full request l.station h]
  rfl

theorem Valid.enqueue {l : Ledger σ} (hv : l.Valid) (request : DaliRequest) :
    (l.enqueue request).2.Valid := by
  by_cases h : l.station.pipeline.queue.count < 64
  · rw [enqueue_of_lt request l h]
    have hslot : StableQueue.slot DaliRequest.urgency request l.station.waiting ≤
        l.owners.length := by
      rw [hv.length_owners]
      exact StableQueue.slot_le_length _ _ _
    refine ⟨?_, ?_, ?_⟩
    · rw [Station.waiting_enqueue request l.station h, StableQueue.length_insert,
        List.length_insertIdx_of_le_length hslot, hv.length_owners]
    · intro n hn
      rcases (List.mem_insertIdx hslot).1 hn with rfl | hn
      · exact Nat.lt_succ_self _
      · exact (hv.lt_issued n hn).trans (Nat.lt_succ_self _)
    · rw [Station.waiting_enqueue request l.station h]
      exact hv.sorted.insert
  · rw [enqueue_of_full request l h]
    exact hv

theorem waiting_processNext (st : Station σ) :
    (st.processNext service).2.waiting = st.waiting.tail := by
  cases h : st.waiting with
  | nil => exact (st.processNext_of_nil service h).2.1
  | cons request rest => exact (st.processNext_of_cons service h).2.1

theorem Valid.processNext {l : Ledger σ} (hv : l.Valid) : (l.processNext service).2.Valid := by
  refine ⟨?_, ?_, ?_⟩
  · simp only [Ledger.processNext, waiting_processNext, List.length_tail, hv.length_owners]
  · intro n hn
    exact hv.lt_issued n (List.mem_of_mem_tail hn)
  · simp only [Ledger.processNext, waiting_processNext]
    exact hv.sorted.tail

theorem Valid.call {l : Ledger σ} (hv : l.Valid) (c : ClientCall) :
    (l.call service c).2.Valid := by
  rw [Ledger.call]
  cases hreq : c.request with
  | none => exact hv
  | some request =>
      simp only
      split_ifs
      · exact hv.enqueue request
      · exact (hv.enqueue request).processNext service

theorem machine_valid (state : σ) (ops : List PipelineOp) :
    ((machine service).after (initial state) ops).Valid := by
  refine (machine service).after_induction (fun l op hv => ?_) (initial_valid state) ops
  cases op with
  | enqueue request => exact hv.enqueue request
  | processNext => exact hv.processNext service
  | call c => exact hv.call service c

theorem call_outcome (l : Ledger σ) (c : ClientCall) :
    (l.call service c).1.outcome = (c.perform service l.station).1 := by
  rw [Ledger.call]
  cases c.request with
  | none => rfl
  | some request =>
      simp only
      split_ifs <;> rfl

/-- The ledger's call leaves the pipeline and the bus as the code's call does. -/
theorem call_station (l : Ledger σ) (c : ClientCall) :
    (l.call service c).2.station = (c.perform service l.station).2 := by
  cases hreq : c.request with
  | none => simp only [Ledger.call, hreq, ClientCall.perform_of_no_request service l.station hreq]
  | some request =>
      rw [ClientCall.perform_eq_transact service l.station hreq]
      by_cases h : l.station.pipeline.queue.count < 64
      · rw [Station.transact_of_lt service request l.station h]
        simp only [Ledger.call, hreq, enqueue_of_lt request l h, ne_eq, not_true_eq_false, if_false]
        rfl
      · rw [Station.transact_of_full service request l.station h]
        simp only [Ledger.call, hreq, enqueue_of_full request l h]
        rfl

/-- The call reports the transaction of its own request: this is the request it processed, and what
it reports is read off the result of executing it. A query reports `Ok` only with the byte that this
execution received, and a control operation only if its own frame was transmitted. -/
structure ReportsOwn (l : Ledger σ) (c : ClientCall) : Prop where
  executed_eq : (l.call service c).1.executed = (l.call service c).1.ticket
  exists_result : ∃ request, c.request = some request ∧
    let result := (service.execute request l.station.bus).1
    (l.call service c).1.outcome = c.report (.ok, some ⟨request, result⟩) ∧
      (∀ answer, (l.call service c).1.outcome = .query answer → answer.outcome = .ok →
        result.status = .ok ∧ result.response = some answer.response.value) ∧
      ((l.call service c).1.outcome = .control .ok → result.status = .ok ∧
        .transmit request.frame.raw .ok ∈
          Bus.since l.station.bus (l.call service c).2.station.bus)

theorem accepted_of_not_refused (l : Ledger σ) (c : ClientCall)
    (h : (l.call service c).1.outcome.refused = false) :
    ∃ request, c.request = some request ∧ l.station.pipeline.queue.count < 64 := by
  rw [call_outcome] at h
  cases hreq : c.request with
  | none =>
      rw [ClientCall.perform_of_no_request service l.station hreq] at h
      cases h
  | some request =>
      refine ⟨request, rfl, ?_⟩
      by_contra hfull
      rw [ClientCall.perform_eq_transact service l.station hreq,
        Station.transact_of_full service request l.station hfull] at h
      unfold ClientCall.report at h
      split_ifs at h <;> cases h

theorem call_of_lt {l : Ledger σ} {c : ClientCall} {request : DaliRequest}
    (hreq : c.request = some request) (h : l.station.pipeline.queue.count < 64) :
    (l.call service c).1.ticket = some l.issued ∧
      (l.call service c).1.executed = (l.owners.insertIdx
        (StableQueue.slot DaliRequest.urgency request l.station.waiting) l.issued).head? ∧
      (l.call service c).2.station =
        ((l.station.enqueue request).2.processNext service).2 := by
  simp only [Ledger.call, hreq, enqueue_of_lt request l h, ne_eq, not_true_eq_false, if_false]
  exact ⟨trivial, trivial, rfl⟩

/-- A call processes its own request exactly when the scan finds no slot to leave in front. -/
theorem executed_eq_ticket_iff {l : Ledger σ} (hv : l.Valid) {c : ClientCall}
    {request : DaliRequest} (hreq : c.request = some request)
    (h : l.station.pipeline.queue.count < 64) :
    (l.call service c).1.executed = (l.call service c).1.ticket ↔
      StableQueue.slot DaliRequest.urgency request l.station.waiting = 0 := by
  obtain ⟨hticket, hexecuted, _⟩ := call_of_lt service hreq h
  rw [hticket, hexecuted]
  cases hslot : StableQueue.slot DaliRequest.urgency request l.station.waiting with
  | zero => simp
  | succ k =>
      have hle : k + 1 ≤ l.owners.length := by
        rw [hv.length_owners, ← hslot]
        exact StableQueue.slot_le_length _ _ _
      cases howners : l.owners with
      | nil => rw [howners] at hle; cases hle
      | cons owner rest =>
          have hlt := hv.lt_issued owner (by rw [howners]; exact List.mem_cons_self)
          simp only [List.insertIdx_succ_cons, List.head?_cons, Option.some.injEq]
          constructor
          · intro heq
            omega
          · intro heq
            cases heq

theorem call_of_slot_zero {l : Ledger σ} {c : ClientCall} {request : DaliRequest}
    (hreq : c.request = some request) (h : l.station.pipeline.queue.count < 64)
    (hslot : StableQueue.slot DaliRequest.urgency request l.station.waiting = 0) :
    (l.call service c).1.outcome =
        c.report (.ok, some ⟨request, (service.execute request l.station.bus).1⟩) ∧
      (l.call service c).2.station.bus = (service.execute request l.station.bus).2 := by
  have hwaiting : (l.station.enqueue request).2.waiting = request :: l.station.waiting := by
    rw [Station.waiting_enqueue request l.station h, StableQueue.insert, hslot,
      List.insertIdx_zero]
  obtain ⟨hprocessed, -, hbus⟩ := Station.processNext_of_cons service _ hwaiting
  constructor
  · rw [call_outcome, ClientCall.perform_eq_transact service l.station hreq,
      Station.transact_of_lt service request l.station h, hprocessed]
    rfl
  · rw [(call_of_lt service hreq h).2.2, hbus]
    rfl

theorem response_of_outcome_ok {result : DaliTransactionResult}
    (h : outcomeFromResult result = .ok) :
    result.status = .ok ∧
      result.response = some (readingForResult result (outcomeFromResult result)).value := by
  rw [h]
  unfold outcomeFromResult at h
  split_ifs at h with hok
  · obtain ⟨value, hvalue⟩ := Option.isSome_iff_exists.1 hok.2
    refine ⟨hok.1, ?_⟩
    unfold readingForResult
    rw [hvalue]
    rfl
  · cases hresult : result.lastPhyResult <;> rw [hresult] at h <;> cases h

theorem ok_of_report_query {c : ClientCall} {p : ProcessedDaliRequest} {answer : DaliQueryResult}
    (h : c.report (.ok, some p) = .query answer) (hok : answer.outcome = .ok) :
    p.result.status = .ok ∧ p.result.response = some answer.response.value := by
  unfold ClientCall.report at h
  split_ifs at h
  obtain rfl := CallOutcome.query.inj h
  exact response_of_outcome_ok hok

theorem ok_of_report_control {c : ClientCall} {p : ProcessedDaliRequest}
    (h : c.report (.ok, some p) = .control .ok) : p.result.status = .ok := by
  unfold ClientCall.report at h
  split_ifs at h
  by_contra hne
  rw [ClientCall.controlReport, if_neg hne] at h
  cases h

theorem reportsOwn_of_slot_zero {l : Ledger σ} (hv : l.Valid) {c : ClientCall}
    {request : DaliRequest} (hreq : c.request = some request)
    (h : l.station.pipeline.queue.count < 64)
    (hslot : StableQueue.slot DaliRequest.urgency request l.station.waiting = 0) :
    ReportsOwn service l c := by
  obtain ⟨houtcome, hbus⟩ := call_of_slot_zero service hreq h hslot
  refine ⟨(executed_eq_ticket_iff service hv hreq h).2 hslot, request, hreq, houtcome, ?_, ?_⟩
  · intro answer hanswer hok
    exact ok_of_report_query (houtcome.symm.trans hanswer) hok
  · intro hok
    have hstatus := ok_of_report_control (houtcome.symm.trans hok)
    obtain ⟨events, hext, hmem⟩ := service.execute_extends request l.station.bus
    rw [hbus, hext.since_eq]
    exact ⟨hstatus, hmem hstatus⟩

/-- In every reachable pipeline, a call that is not refused reports the transaction of its own
request exactly when every request that waits is strictly less urgent than its own. -/
theorem call_reports_own_iff (state : σ) (ops : List PipelineOp) (c : ClientCall)
    (h : (((machine service).after (initial state) ops).call service c).1.outcome.refused = false) :
    ReportsOwn service ((machine service).after (initial state) ops) c ↔
      ∀ waiting ∈ ((machine service).after (initial state) ops).station.waiting,
        c.priority.code < waiting.urgency := by
  have hv := machine_valid service state ops
  obtain ⟨request, hreq, hroom⟩ := accepted_of_not_refused service _ c h
  rw [← ClientCall.urgency_of_request hreq, ← StableQueue.slot_eq_zero_iff _ hv.sorted]
  constructor
  · exact fun hown => (executed_eq_ticket_iff service hv hreq hroom).1 hown.executed_eq
  · exact reportsOwn_of_slot_zero service hv hreq hroom

/-- A bus on which every transmit succeeds, and the answer is the address byte of the frame. -/
def echoingService : DaliTransactionService UInt16 where
  phy := ⟨fun frame _ => (.ok, frame), fun _ _ frame => (.ok, (frame >>> 8).toUInt8, frame)⟩
  delay := ⟨fun _ s => s⟩
  jitter := ⟨fun _ s => (0, s)⟩

def waitingFor (priority : CommandPriority) : List PipelineOp :=
  [.enqueue { frame := makeShortCommand (.ofIndex 5) .queryStatus, priority := priority }]

/-- If the request that waits is critical, a query of address 3 reports `Ok` and the byte that
address 5 sent, and a level set for address 3 reports `Ok` although only the frame for address 5 was
transmitted. -/
theorem call_reports_foreign :
    let critical := (machine echoingService).after (initial 0) (waitingFor .critical)
    let query : ClientCall := .query {} (.ofIndex 3) .queryStatus .normal
    let setLevel : ClientCall := .setShortLevel {} (.ofIndex 3) 170 .normal
    ((critical.call echoingService query).1.outcome = .query ⟨.ok, .valid 0x0B 0 0, 1, .ok⟩ ∧
        (∀ request, query.request = some request →
          (echoingService.execute request critical.station.bus).1.response = some 0x07) ∧
        ¬ ReportsOwn echoingService critical query) ∧
      (critical.call echoingService setLevel).1.outcome = .control .ok ∧
      (∀ request, setLevel.request = some request → .transmit request.frame.raw .ok ∉
        Bus.since critical.station.bus (critical.call echoingService setLevel).2.station.bus) ∧
      ¬ ReportsOwn echoingService critical setLevel := by
  intro critical query setLevel
  refine ⟨⟨by decide, fun request h => ?_, fun h => ?_⟩, by decide, fun request h => ?_,
    fun h => ?_⟩
  · obtain rfl := Option.some.inj h
    decide
  · exact absurd h.executed_eq (by decide)
  · obtain rfl := Option.some.inj h
    decide
  · exact absurd h.executed_eq (by decide)

/-- If it is less urgent, the query reports the byte that address 3 sent. -/
theorem call_reports_own_urgent :
    let low := (machine echoingService).after (initial 0) (waitingFor .low)
    let query : ClientCall := .query {} (.ofIndex 3) .queryStatus .normal
    low.station.waiting.length = 1 ∧ ReportsOwn echoingService low query ∧
      (low.call echoingService query).1.outcome = .query ⟨.ok, .valid 0x07 0 0, 1, .ok⟩ := by
  intro low query
  refine ⟨by decide, ?_, by decide⟩
  exact (call_reports_own_iff echoingService 0 (waitingFor .low) query (by decide)).2 (by decide)

end Ledger

end DaliEdge
