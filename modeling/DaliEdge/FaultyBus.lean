import DaliEdge.ClientCalls

/-!
# Queries on an idle pipeline and a bus that fails

On an idle pipeline a query executes its own request. When the PHY refuses to transmit because
of a fault on the controller's side, the request is transmitted once and the fault is the
result. An inadmissible request is never transmitted.
-/

namespace DaliEdge

/-- The PHY results that are faults of the controller and not of a device. -/
def ControllerFault (result : PhyResult) : Prop :=
  result = .busPowerLost ∨ result = .transceiverFault ∨ result = .notInitialised

/-- Every transmit among the events failed with a fault on the controller's side. -/
def AllFaulty (events : List BusEvent) : Prop :=
  ∀ frame result, .transmit frame result ∈ events → ControllerFault result

instance (result : PhyResult) : Decidable (ControllerFault result) :=
  inferInstanceAs (Decidable (_ ∨ _ ∨ _))

theorem allFaulty_cons (event : BusEvent) (events : List BusEvent) :
    AllFaulty (event :: events) ↔
      (∀ frame result, event = .transmit frame result → ControllerFault result) ∧
        AllFaulty events := by
  constructor
  · intro h
    exact ⟨fun frame result heq => h frame result (heq ▸ List.mem_cons_self),
      fun frame result hmem => h frame result (List.mem_cons_of_mem _ hmem)⟩
  · rintro ⟨hevent, hevents⟩ frame result hmem
    rcases List.mem_cons.1 hmem with heq | hmem
    · exact hevent frame result heq.symm
    · exact hevents frame result hmem

instance decidableAllFaulty : (events : List BusEvent) → Decidable (AllFaulty events)
  | [] => isTrue nofun
  | .transmit frame result :: events =>
      have := decidableAllFaulty events
      decidable_of_iff (ControllerFault result ∧ AllFaulty events) (by
        rw [allFaulty_cons]
        simp)
  | .receive _ _ _ :: events | .jitter _ _ :: events | .delay _ :: events =>
      have := decidableAllFaulty events
      decidable_of_iff (AllFaulty events) (by
        rw [allFaulty_cons]
        simp)

theorem ControllerFault.ne_ok {result : PhyResult} (h : ControllerFault result) :
    result ≠ .ok := by
  rintro rfl
  rcases h with h | h | h <;> cases h

theorem ControllerFault.not_retryable {result : PhyResult} (h : ControllerFault result) :
    isRetryable result = false := by
  rcases h with rfl | rfl | rfl <;> rfl

theorem AllFaulty.of_append {xs ys : List BusEvent} (h : AllFaulty (xs ++ ys)) :
    AllFaulty xs ∧ AllFaulty ys :=
  ⟨fun frame result hmem => h frame result (List.mem_append_left _ hmem),
    fun frame result hmem => h frame result (List.mem_append_right _ hmem)⟩

variable {σ : Type*} (service : DaliTransactionService σ)

namespace Station

def Idle (st : Station σ) : Prop := st.waiting = []

theorem Idle.count_lt {st : Station σ} (h : st.Idle) : st.pipeline.queue.count < 64 := by
  rw [← st.pipeline.queue.length_contents]
  change st.waiting.length < 64
  rw [h]
  decide

theorem transact_of_idle (request : DaliRequest) {st : Station σ} (h : st.Idle) :
    ∃ st', st.transact service request =
        (.ok, some ⟨request, (service.execute request st.bus).1⟩, st') ∧
      st'.Idle ∧ st'.bus = (service.execute request st.bus).2 := by
  have hwaiting : (st.enqueue request).2.waiting = request :: [] := by
    rw [waiting_enqueue request st h.count_lt, h]
    rfl
  obtain ⟨hsome, hrest, hbus⟩ := processNext_of_cons service _ hwaiting
  refine ⟨((st.enqueue request).2.processNext service).2, ?_, hrest, hbus⟩
  rw [transact_of_lt service request st h.count_lt]
  exact Prod.ext rfl (Prod.ext hsome rfl)

end Station

namespace PipelineQueryClient

/-- Requests of this client pass the checks of the transaction service. -/
def Admissible (client : PipelineQueryClient) : Prop :=
  client.timeoutMs ≠ 0 ∧ client.maximumRetries ≤ kAbsoluteMaxRetries

variable (client : PipelineQueryClient) (address : ShortAddress) (command : DaliCommand)
  (priority : CommandPriority)

/-- What a query reports when its one transmit ends in a fault. -/
def faultResult (fault : PhyResult) : DaliQueryResult :=
  ⟨if fault = .busPowerLost then .busFailure else .hardwareFailure, .invalid 0, 1, fault⟩

/-- What a query reports when its request is inadmissible. -/
def refusedResult : DaliQueryResult := ⟨.invalid, .invalid 0, 0, .invalidArgument⟩

theorem query_of_idle {st : Station σ} (h : st.Idle) :
    let executed := service.execute (client.request address command priority) st.bus
    let queried := client.query service address command priority st
    queried.1 = ClientCall.queryReport
        (.ok, some ⟨client.request address command priority, executed.1⟩) ∧
      queried.2.1 = { client with nextSequence := client.nextSequence + 1 } ∧
      queried.2.2.Idle ∧ queried.2.2.bus = executed.2 := by
  obtain ⟨st', htransact, hidle, hbus⟩ :=
    Station.transact_of_idle service (client.request address command priority) h
  obtain ⟨hresult, hstation⟩ :=
    ClientCall.query_eq_transact service client address command priority st
  rw [htransact] at hresult hstation
  refine ⟨hresult, ?_, ?_, ?_⟩
  · simp only [query]
    split
    · rfl
    · split <;> rfl
  · rw [hstation]
    exact hidle
  · rw [hstation]
    exact hbus

/-- A query on an idle pipeline whose transmits all fail for the controller: an admissible request
is transmitted once and reports the fault, an inadmissible one is not transmitted. -/
theorem query_of_faulty {st : Station σ} (h : st.Idle) :
    let queried := client.query service address command priority st
    ∃ events, Bus.Extends st.bus queried.2.2.bus events ∧
      (AllFaulty events →
        (client.Admissible → ∃ fault, ControllerFault fault ∧
          events = [.transmit (makeShortCommand address command).raw fault] ∧
            queried.1 = faultResult fault) ∧
        (¬ client.Admissible → events = [] ∧ queried.1 = refusedResult)) := by
  intro queried
  obtain ⟨hresult, -, -, hbus⟩ := query_of_idle service client address command priority h
  by_cases hadmissible : client.Admissible
  · have hrequest : (client.request address command priority).Admissible := hadmissible
    obtain ⟨events, hevents⟩ := service.execute_transmits _ st.bus hrequest
    refine ⟨_, by rw [hbus]; exact hevents, fun hfaulty => ⟨fun _ => ?_, fun hno => ?_⟩⟩
    · have hfault := hfaulty _ _ List.mem_cons_self
      obtain ⟨hexecuted, hsingle⟩ :=
        service.execute_of_terminal _ st.bus hrequest hfault.ne_ok hfault.not_retryable
      refine ⟨_, hfault, ?_, ?_⟩
      · rw [← hevents.since_eq, hsingle.since_eq]
        rfl
      · rw [hresult, hexecuted]
        generalize service.transmitResult _ _ = fault at hfault
        rcases hfault with rfl | rfl | rfl <;> rfl
    · exact absurd hadmissible hno
  · have hrequest : ¬ (client.request address command priority).Admissible := hadmissible
    have hexecuted := service.execute_of_not_admissible _ st.bus hrequest
    refine ⟨[], ?_, fun _ => ⟨fun hyes => absurd hyes hadmissible, fun _ => ⟨rfl, ?_⟩⟩⟩
    · rw [hbus, hexecuted]
      exact Bus.Extends.refl _
    · rw [hresult, hexecuted]
      rfl

end PipelineQueryClient

end DaliEdge
