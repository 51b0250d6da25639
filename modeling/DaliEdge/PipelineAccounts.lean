import DaliEdge.Ownership
import DaliEdge.QualityCounters
import DaliEdge.Attempts

/-!
# The accounts of a pipeline

Enqueuing, processing and the calls of the clients all go through one queue and one tracker.
Each operation is recorded with the requests that the queue accepted and the transactions that
were executed; over any run the two differ by what still waits, and the tracker is what
recording the results of the executed transactions, each once, makes of it.
-/

namespace DaliEdge

/-- An executed request, with the bus that its transaction found. -/
structure Execution (σ : Type*) where
  request : DaliRequest
  result : DaliTransactionResult
  bus : Bus σ

structure PipelineRecord (σ : Type*) where
  accepted : List DaliRequest := []
  executed : List (Execution σ) := []

namespace Station

variable {σ : Type*} (service : DaliTransactionService σ)

/-- The requests that the queue accepts of one enqueue. -/
def accepted (st : Station σ) (request : DaliRequest) : List DaliRequest :=
  if (st.enqueue request).1 = .ok then [request] else []

/-- The transactions that one `processNext` executes. -/
def executed (st : Station σ) : List (Execution σ) :=
  (st.processNext service).1.toList.map fun p => ⟨p.request, p.result, st.bus⟩

/-- The pipeline's operations as steps, each leaving its record. -/
def accounted : Machine (Station σ) PipelineOp (PipelineRecord σ) where
  step st
    | .enqueue request => ((st.enqueue request).2, ⟨st.accepted request, []⟩)
    | .processNext => ((st.processNext service).2, ⟨[], st.executed service⟩)
    | .call c => ((c.perform service st).2,
        match c.request with
        | none => {}
        | some request =>
            if (st.enqueue request).1 = .ok then
              ⟨[request], (st.enqueue request).2.executed service⟩
            else {})

def acceptedBy (st : Station σ) (ops : List PipelineOp) : List DaliRequest :=
  ((accounted service).outputs st ops).flatMap PipelineRecord.accepted

def executedBy (st : Station σ) (ops : List PipelineOp) : List (Execution σ) :=
  ((accounted service).outputs st ops).flatMap PipelineRecord.executed

/-- What was accepted from `st` to `st'` was executed and recorded, or waits. -/
structure Balances (st st' : Station σ) (accepted : List DaliRequest)
    (executed : List (Execution σ)) : Prop where
  conserved : (st.waiting ++ accepted).Perm (executed.map Execution.request ++ st'.waiting)
  recorded : st'.pipeline.quality =
    (executed.map Execution.result).foldl CommunicationQualityTracker.record st.pipeline.quality
  transacted : ∀ e ∈ executed, e.result = (service.execute e.request e.bus).1

variable {service} {st st' st'' : Station σ} {accepted accepted' : List DaliRequest}
  {executed executed' : List (Execution σ)}

theorem Balances.refl (st : Station σ) : Balances service st st [] [] where
  conserved := by rw [List.append_nil, List.map_nil, List.nil_append]
  recorded := rfl
  transacted := fun _ he => absurd he List.not_mem_nil

theorem Balances.trans (h : Balances service st st' accepted executed)
    (h' : Balances service st' st'' accepted' executed') :
    Balances service st st'' (accepted ++ accepted') (executed ++ executed') where
  conserved := by
    have hfirst := h.conserved.append_right accepted'
    have hsecond := h'.conserved.append_left (executed.map Execution.request)
    rw [List.append_assoc] at hfirst
    rw [List.append_assoc] at hfirst
    rw [List.map_append, List.append_assoc]
    exact hfirst.trans hsecond
  recorded := by rw [h'.recorded, h.recorded, List.map_append, List.foldl_append]
  transacted := by
    intro e he
    rcases List.mem_append.1 he with he | he
    · exact h.transacted e he
    · exact h'.transacted e he

variable (service) in
theorem balances_enqueue (st : Station σ) (request : DaliRequest) :
    Balances service st (st.enqueue request).2 (st.accepted request) [] := by
  by_cases h : st.pipeline.queue.count < 64
  · have hok := (st.enqueue_ok_iff request).2 h
    refine ⟨?_, rfl, fun _ he => absurd he List.not_mem_nil⟩
    rw [Station.accepted, if_pos hok, waiting_enqueue request st h]
    exact (List.perm_append_singleton _ _).trans (StableQueue.perm_insert _ _ _).symm
  · have hrefused : st.accepted request = [] := by
      rw [Station.accepted, st.enqueue_of_full request h]
      rfl
    rw [hrefused, st.enqueue_of_full request h]
    exact Balances.refl st

theorem quality_processNext (st : Station σ) : (st.processNext service).2.pipeline.quality =
    ((st.executed service).map Execution.result).foldl CommunicationQualityTracker.record
      st.pipeline.quality := by
  unfold Station.executed processNext
  cases hpop : st.pipeline.queue.pop.1 with
  | none =>
      simp only [hpop]
      rfl
  | some request =>
      simp only [hpop]
      rfl

theorem balances_processNext (st : Station σ) :
    Balances service st (st.processNext service).2 [] (st.executed service) := by
  refine ⟨?_, quality_processNext st, ?_⟩
  · rw [List.append_nil]
    cases hwaiting : st.waiting with
    | nil =>
        obtain ⟨hnone, hrest, -⟩ := st.processNext_of_nil service hwaiting
        rw [Station.executed, hnone, hrest]
        exact List.Perm.refl _
    | cons request rest =>
        obtain ⟨hsome, hrest, -⟩ := st.processNext_of_cons service hwaiting
        rw [Station.executed, hsome, hrest]
        exact List.Perm.refl _
  · intro e he
    cases hwaiting : st.waiting with
    | nil =>
        rw [Station.executed, (st.processNext_of_nil service hwaiting).1] at he
        exact absurd he List.not_mem_nil
    | cons request rest =>
        rw [Station.executed, (st.processNext_of_cons service hwaiting).1] at he
        rw [List.mem_singleton.1 he]

theorem balances_step (st : Station σ) (op : PipelineOp) :
    Balances service st ((accounted service).step st op).1 ((accounted service).step st op).2.accepted
      ((accounted service).step st op).2.executed := by
  cases op with
  | enqueue request => exact balances_enqueue service st request
  | processNext => exact balances_processNext st
  | call c =>
      simp only [accounted]
      cases hrequest : c.request with
      | none =>
          rw [c.perform_of_no_request service st hrequest]
          exact Balances.refl st
      | some request =>
          rw [c.perform_eq_transact service st hrequest]
          by_cases h : st.pipeline.queue.count < 64
          · have hok := (st.enqueue_ok_iff request).2 h
            have henqueue := balances_enqueue service st request
            rw [Station.accepted, if_pos hok] at henqueue
            simp only [if_pos hok, st.transact_of_lt service request h]
            exact henqueue.trans (balances_processNext _)
          · have hfull : (st.enqueue request).1 ≠ .ok := fun hok => h ((st.enqueue_ok_iff request).1 hok)
            simp only [if_neg hfull, st.transact_of_full service request h]
            exact Balances.refl st

variable (service) in
theorem balances_run (st : Station σ) (ops : List PipelineOp) :
    Balances service st ((accounted service).after st ops) (st.acceptedBy service ops)
      (st.executedBy service ops) := by
  induction ops generalizing st with
  | nil => exact Balances.refl st
  | cons op ops ih => exact (balances_step st op).trans (ih _)

theorem length_waiting (st : Station σ) : st.waiting.length = st.pipeline.queue.count :=
  st.pipeline.queue.length_contents

theorem qualityClass_execute (request : DaliRequest) (bus : Bus σ) :
    (service.execute request bus).1.qualityClass =
      if (service.execute request bus).1.status = .ok then .success
      else if request.timeoutMs ≠ 0 ∧ request.maxRetries ≤ kAbsoluteMaxRetries then
        .ofFailure (service.outcomeAt request bus (service.lastAttempt request bus))
      else .otherFailure := by
  rw [DaliTransactionResult.qualityClass]
  split_ifs with hok h
  · rfl
  · rw [(service.execute_eq request bus h rfl).1]
  · rw [service.execute_of_not_admissible request bus h]
    rfl

/-- Over any run the accepted requests are those executed and those queued, each executed one is
recorded once, and the counters count the executed requests by their class. -/
theorem pipeline_accounts (service : DaliTransactionService σ) (state : σ) (ops : List PipelineOp) :
    let st := (accounted service).after (Station.initial state) ops
    let executed := (Station.initial state).executedBy service ops
    let counters := st.pipeline.quality.counters
    ((Station.initial state).acceptedBy service ops).length =
      executed.length + st.pipeline.queue.count ∧
    st.pipeline.quality = CommunicationQualityTracker.recordAll (executed.map Execution.result) ∧
    (∀ e ∈ executed, e.result = (service.execute e.request e.bus).1 ∧
      e.result.qualityClass =
        if e.result.status = .ok then .success
        else if e.request.timeoutMs ≠ 0 ∧ e.request.maxRetries ≤ kAbsoluteMaxRetries then
          .ofFailure (service.outcomeAt e.request e.bus (service.lastAttempt e.request e.bus))
        else .otherFailure) ∧
    counters.total.toNat = min executed.length (2 ^ 32 - 1) ∧
    (∀ c, (counters.ofClass c).toNat =
      min (executed.countP fun e => e.result.qualityClass = c) (2 ^ 32 - 1)) ∧
    (executed.length < 2 ^ 32 → counters.total.toNat =
      counters.successes.toNat + counters.timeouts.toNat + counters.collisions.toNat +
        counters.busy.toNat + counters.busPowerLosses.toNat + counters.transceiverFaults.toNat +
        counters.otherFailures.toNat) := by
  intro st executed counters
  have hrun := balances_run service (Station.initial state) ops
  have hquality : st.pipeline.quality =
      CommunicationQualityTracker.recordAll (executed.map Execution.result) := hrun.recorded
  have hcounters : counters =
      (CommunicationQualityTracker.recordAll (executed.map Execution.result)).counters :=
    congrArg CommunicationQualityTracker.counters hquality
  refine ⟨?_, hquality, fun e he => ?_, ?_, fun c => ?_, fun h => ?_⟩
  · have hlength := hrun.conserved.length_eq
    rw [List.length_append, List.length_append, List.length_map, length_waiting, length_waiting]
      at hlength
    exact (Nat.zero_add _).symm.trans hlength
  · have he' := hrun.transacted e he
    refine ⟨he', ?_⟩
    rw [he']
    exact qualityClass_execute e.request e.bus
  · rw [hcounters, CommunicationQualityTracker.total_recordAll, List.length_map]
    rfl
  · rw [hcounters, CommunicationQualityTracker.ofClass_recordAll,
      CommunicationQualityTracker.countOf, List.countP_map]
    rfl
  · rw [← List.length_map Execution.result] at h
    rw [hcounters]
    exact CommunicationQualityTracker.total_eq_sum _ h

/-- One request succeeds, one is rejected before any attempt, and one still waits. -/
theorem pipeline_accounts_example :
    let ops : List PipelineOp := [.enqueue { timeoutMs := 0 },
      .call (.sendBroadcast {} .queryStatus .critical), .processNext, .enqueue {}]
    let st := (accounted Ledger.echoingService).after (Station.initial 0) ops
    let c := st.pipeline.quality.counters
    (c.total.toNat = c.successes.toNat + c.timeouts.toNat + c.collisions.toNat + c.busy.toNat +
        c.busPowerLosses.toNat + c.transceiverFaults.toNat + c.otherFailures.toNat) ∧
      c = { total := 2, successes := 1, otherFailures := 1 } ∧ st.waiting.length = 1 := by
  intro ops st c
  refine ⟨?_, by decide +kernel, by decide +kernel⟩
  exact (pipeline_accounts Ledger.echoingService 0 ops).2.2.2.2.2 (by decide +kernel)

end Station

end DaliEdge
