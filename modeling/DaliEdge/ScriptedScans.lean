import DaliEdge.ClientSimulation
import DaliEdge.FaultyBus
import DaliEdge.QueryReadings
import DaliEdge.ScriptedBus

/-!
# Managers over a script

A manager that queries through an idle pipeline over the simulated PHY finds what the script says:
it cannot be told from a manager whose client reads its answers off the outlook of the PHY.
Jitters, delays and sequence numbers do not matter to it, nor does the place in the ring at which
the responses stand.
-/

namespace DaliEdge

instance (client : PipelineQueryClient) : Decidable client.Admissible :=
  inferInstanceAs (Decidable (_ ∧ _))

namespace Outlook

variable (config : PipelineQueryClient) (outlook : Outlook)

theorem of_alike {request request' : DaliRequest}
    (hexpects : request.expectsResponse = request'.expectsResponse)
    (htimeout : request.timeoutMs = request'.timeoutMs)
    (hretries : request.maxRetries = request'.maxRetries) :
    outlook.report request = outlook.report request' ∧
      outlook.after request (outlook.last request + 1) =
        outlook.after request' (outlook.last request' + 1) := by
  have houtcome : outlook.outcome request = outlook.outcome request' := by
    funext i
    unfold outcome response
    rw [hexpects, htimeout]
  have hlast : outlook.last request = outlook.last request' := by
    unfold last
    rw [houtcome, hretries]
  have hreads : outlook.Reads request ↔ outlook.Reads request' := by rw [Reads, Reads, hexpects]
  constructor
  · unfold report response
    rw [houtcome, hlast, hexpects, htimeout]
  · unfold after
    rw [hlast, htimeout]
    exact if_congr hreads rfl rfl

/-- The request of a query; the address, the command and the priority do not matter to a script. -/
def probe : DaliRequest :=
  config.request (.ofIndex (Fin.last 63)) .queryControlGearPresent .high

def answer : DaliQueryResult :=
  if config.Admissible then
    ClientCall.queryReport (.ok, some ⟨probe config, outlook.report (probe config)⟩)
  else PipelineQueryClient.refusedResult

def next : Outlook :=
  if config.Admissible then outlook.after (probe config) (outlook.last (probe config) + 1)
  else outlook

/-- A query client that reads its answers off an outlook. -/
def client : IDaliQueryClient Outlook where
  query _ _ _ outlook := (outlook.answer config, outlook.next config)

end Outlook

open PipelineQueryClient DeviceManager

section Pipeline

variable {τ : Type*} (delay : IDelayProvider τ) (jitter : IJitterSource τ)

/-- The client has this timeout and this number of retries, its pipeline is idle, and this is the
outlook of the PHY. -/
structure OnScript (config : PipelineQueryClient)
    (s : PipelineQueryClient × Station (SimulatedDaliPhy × τ)) (outlook : Outlook) : Prop where
  timeoutMs : s.1.timeoutMs = config.timeoutMs
  maximumRetries : s.1.maximumRetries = config.maximumRetries
  idle : s.2.Idle
  outlook : s.2.bus.state.1.outlook = outlook

/-- A query on an idle pipeline over the simulated PHY reads the script. -/
theorem query_onScript (config : PipelineQueryClient) :
    (toQueryClient (SimulatedDaliPhy.service delay jitter)).Simulates (OnScript config)
      (Outlook.client config) := by
  rintro address command priority ⟨client, st⟩ outlook ⟨htimeout, hretries, hidle, rfl⟩
  obtain ⟨hresult, hclient, hidle', hbus⟩ := query_of_idle (SimulatedDaliPhy.service delay jitter)
    client address command priority hidle
  have hconfig : config.Admissible ↔ client.Admissible := by
    unfold PipelineQueryClient.Admissible
    rw [htimeout, hretries]
  have hkept : ∀ {o : Outlook}, (client.query (SimulatedDaliPhy.service delay jitter) address
      command priority st).2.2.bus.state.1.outlook = o → OnScript config
        (client.query (SimulatedDaliPhy.service delay jitter) address command priority st).2 o := by
    intro o ho
    refine ⟨?_, ?_, hidle', ho⟩
    · rw [hclient]
      exact htimeout
    · rw [hclient]
      exact hretries
  simp only [toQueryClient, Outlook.client, Outlook.answer, Outlook.next]
  by_cases hadmissible : client.Admissible
  · obtain ⟨hexecuted, hattempted⟩ := SimulatedDaliPhy.execute_on_script
      (client.request address command priority) delay jitter hadmissible st.bus
    have hexpects : (client.request address command priority).expectsResponse =
        (Outlook.probe config).expectsResponse := rfl
    obtain ⟨hreport, hafter⟩ := Outlook.of_alike st.bus.state.1.outlook hexpects htimeout hretries
    rw [if_pos (hconfig.2 hadmissible), if_pos (hconfig.2 hadmissible), ← hreport, ← hafter]
    refine ⟨?_, hkept ?_⟩
    · rw [hresult, hexecuted]
      rfl
    · rw [hbus, hattempted.outlook]
  · have hexecuted := (SimulatedDaliPhy.service delay jitter).execute_of_not_admissible
      (client.request address command priority) st.bus hadmissible
    rw [if_neg (mt hconfig.1 hadmissible), if_neg (mt hconfig.1 hadmissible)]
    refine ⟨?_, hkept ?_⟩
    · rw [hresult, hexecuted]
      rfl
    · rw [hbus, hexecuted]

def outlookOf (s : PipelineQueryClient × Station (SimulatedDaliPhy × τ)) : Outlook :=
  s.2.bus.state.1.outlook

/-- A call on a manager over the pipeline, as a call on a manager over an outlook. -/
def told : ManagerOp (PipelineQueryClient × Station (SimulatedDaliPhy × τ)) → ManagerOp Outlook
  | .scanPresence nowMs => .scanPresence nowMs
  | .detectCoreCapabilities address nowMs => .detectCoreCapabilities address nowMs
  | .upsert address nowMs => .upsert address nowMs
  | .elsewhere duplicateReported client => .elsewhere duplicateReported (outlookOf client)

theorem sameCall_told {config : PipelineQueryClient}
    {op : ManagerOp (PipelineQueryClient × Station (SimulatedDaliPhy × τ))}
    (h : ∀ flags s, op = .elsewhere flags s → OnScript config s (outlookOf s)) :
    SameCall (OnScript config) op (told op) := by
  cases op with
  | scanPresence nowMs => exact .scanPresence nowMs
  | detectCoreCapabilities address nowMs => exact .detectCoreCapabilities address nowMs
  | upsert address nowMs => exact .upsert address nowMs
  | elsewhere flags s => exact .elsewhere flags (h flags s rfl)

/-- As long as its pipeline is left idle and its client's settings are kept, whatever is called on a
manager and whatever others do to the PHY, it reports and records what one over the outlook does. -/
theorem managed_on_script (config : PipelineQueryClient)
    (state : ManagerState (PipelineQueryClient × Station (SimulatedDaliPhy × τ)))
    (hstate : OnScript config state.client (outlookOf state.client))
    (ops : List (ManagerOp (PipelineQueryClient × Station (SimulatedDaliPhy × τ))))
    (hops : ∀ flags s, .elsewhere flags s ∈ ops → OnScript config s (outlookOf s)) :
    let piped := managed (toQueryClient (SimulatedDaliPhy.service delay jitter))
    let scripted := managed (Outlook.client config)
    let start := ⟨state.registry, state.duplicateReported, outlookOf state.client⟩
    piped.outputs state ops = scripted.outputs start (ops.map told) ∧
      (piped.after state ops).registry = (scripted.after start (ops.map told)).registry ∧
      outlookOf (piped.after state ops).client = (scripted.after start (ops.map told)).client := by
  intro piped scripted start
  have hcalls : List.Forall₂ (SameCall (OnScript config)) ops (ops.map told) := by
    rw [List.forall₂_map_right_iff, List.forall₂_same]
    exact fun op hop => sameCall_told fun flags s heq => hops flags s (heq ▸ hop)
  have hstart : Matches (OnScript config) state start := ⟨rfl, rfl, hstate⟩
  obtain ⟨hmatches, houtputs⟩ := managed_simulates (query_onScript delay jitter config) hstart hcalls
  exact ⟨houtputs, hmatches.registry, hmatches.client.outlook⟩

end Pipeline

/-- A PHY that is going to be silent once, and then to answer 7 and 9. -/
def SimulatedDaliPhy.hesitant : SimulatedDaliPhy :=
  run [.init, .enqueueResponse ⟨.timeout, 0, 0⟩, .enqueueResponse ⟨.ok, 7, 15⟩,
    .enqueueResponse ⟨.ok, 9, 0⟩]

/-- A fresh manager over an idle pipeline whose PHY is going to be silent once, and then to answer
twice. -/
def hesitantBench : ManagerState (PipelineQueryClient × Station (SimulatedDaliPhy × Unit)) :=
  ⟨{}, Vector.replicate 64 false, ({}, Station.initial (SimulatedDaliPhy.hesitant, ()))⟩

/-- Two devices answer, and a third one is upserted. -/
theorem managed_on_script_example :
    ((managed (toQueryClient (SimulatedDaliPhy.service ⟨fun _ s => s⟩ ⟨fun _ s => (3, s)⟩))).after
      hesitantBench [.scanPresence 5, .elsewhere (Vector.replicate 64 false) hesitantBench.client,
        .upsert (.ofIndex 9) 6]).registry.count = 3 := by
  obtain ⟨-, hregistry, -⟩ := managed_on_script ⟨fun _ s => s⟩ ⟨fun _ s => (3, s)⟩ {} hesitantBench
    ⟨rfl, rfl, rfl, rfl⟩ [.scanPresence 5,
      .elsewhere (Vector.replicate 64 false) hesitantBench.client, .upsert (.ofIndex 9) 6] (by
        intro flags s hmem
        simp only [List.mem_cons, List.not_mem_nil, reduceCtorEq, or_false, false_or,
          ManagerOp.elsewhere.injEq] at hmem
        obtain ⟨-, rfl⟩ := hmem
        exact ⟨rfl, rfl, rfl, rfl⟩)
  rw [hregistry]
  decide +kernel

/-! ## Scans -/

namespace Outlook

def final (config : PipelineQueryClient) (outlook : Outlook) : PhyResult :=
  outlook.outcome (probe config) (outlook.last (probe config))

/-- How a scan hears the final outcome of a query. -/
def heardAs : PhyResult → ScanOutcome
  | .ok => .answered
  | .collision => .collision
  | .busPowerLost => .busFailure
  | .timeout | .busy | .transceiverFault | .invalidArgument | .notInitialised | .internalError =>
      .silent

variable (config : PipelineQueryClient) (outlook : Outlook)

@[simp] theorem refusal_next : (outlook.next config).refusal = outlook.refusal := by
  unfold next
  split_ifs
  · exact refusal_after (probe config) outlook _
  · rfl

theorem refusal_iterate_next (i : ℕ) : ((next config)^[i] outlook).refusal = outlook.refusal := by
  induction i with
  | zero => rfl
  | succ i ih => rw [Function.iterate_succ_apply', refusal_next, ih]

theorem classify_queryReport (request : DaliRequest) (result : DaliTransactionResult)
    (hstatus : result.status = mapTerminalStatus result.lastPhyResult)
    (hresponse : result.lastPhyResult = .ok ↔ ∃ value, result.response = some value) :
    classify (ClientCall.queryReport (.ok, some ⟨request, result⟩)) =
      heardAs result.lastPhyResult := by
  obtain ⟨status, response, attempts, lastPhyResult, retryDelayTotalMs⟩ := result
  simp only at hstatus hresponse
  subst hstatus
  cases response with
  | some value =>
      obtain rfl := hresponse.2 ⟨value, rfl⟩
      rfl
  | none =>
      cases lastPhyResult with
      | ok =>
          obtain ⟨value, hvalue⟩ := hresponse.1 rfl
          cases hvalue
      | _ => rfl

theorem response_report (h : outlook.refusal ≠ some .ok) :
    outlook.final config = .ok ↔
      ∃ value, (outlook.report (probe config)).response = some value := by
  have hexpects : (probe config).expectsResponse = true := rfl
  constructor
  · intro hfinal
    change outlook.outcome (probe config) (outlook.last (probe config)) = .ok at hfinal
    rw [report, if_pos ⟨hfinal, hexpects⟩]
    unfold outcome at hfinal
    cases hrefusal : outlook.refusal with
    | some result =>
        rw [hrefusal] at h hfinal
        exact absurd (congrArg some hfinal) h
    | none =>
        simp only [hrefusal, hexpects, if_true] at hfinal
        cases hread : outlook.response (probe config) (outlook.last (probe config)) with
        | none =>
            rw [hread] at hfinal
            cases hfinal
        | some response => exact ⟨response.value, rfl⟩
  · rintro ⟨value, hvalue⟩
    rw [report] at hvalue
    by_contra hfinal
    rw [if_neg fun hc => hfinal hc.1] at hvalue
    cases hvalue

theorem classify_answer (hadmissible : config.Admissible) (h : outlook.refusal ≠ some .ok) :
    classify (outlook.answer config) = heardAs (outlook.final config) := by
  rw [answer, if_pos hadmissible]
  exact classify_queryReport _ _ rfl (response_report config outlook h)

theorem iterate_next_of_no_retries (hadmissible : config.Admissible)
    (hretries : config.maximumRetries = 0) (i : ℕ) :
    (next config)^[i] outlook = outlook.after (probe config) i ∧
      ((next config)^[i] outlook).final config = outlook.outcome (probe config) i := by
  have hlast : ∀ o : Outlook, o.last (probe config) = 0 := by
    intro o
    have hzero : (probe config).maxRetries.toNat = 0 := by
      change config.maximumRetries.toNat = 0
      rw [hretries]
      rfl
    rw [last, hzero]
    rfl
  have hiterate : (next config)^[i] outlook = outlook.after (probe config) i := by
    induction i with
    | zero => rw [after_zero, Function.iterate_zero_apply]
    | succ i ih =>
        rw [Function.iterate_succ_apply', ih, after_succ, next, if_pos hadmissible, hlast]
  refine ⟨hiterate, ?_⟩
  rw [final, hlast, hiterate, outcome_after]

theorem poll_client (raws : List (Fin 64)) (hnodup : raws.Nodup) :
    (poll (client config) raws outlook).2 = (next config)^[raws.length] outlook ∧
      ∀ i (hi : i < raws.length), (poll (client config) raws outlook).1 (.ofIndex raws[i]) =
        ((next config)^[i] outlook).answer config := by
  induction raws generalizing outlook with
  | nil => exact ⟨rfl, fun i hi => absurd hi (Nat.not_lt_zero i)⟩
  | cons raw raws ih =>
      rw [List.nodup_cons] at hnodup
      obtain ⟨hrest, hanswers⟩ := ih (outlook.next config) hnodup.2
      refine ⟨hrest, fun i hi => ?_⟩
      cases i with
      | zero => exact Function.update_self ..
      | succ i =>
          have hlt : i < raws.length := Nat.lt_of_succ_lt_succ hi
          have hne : ShortAddress.ofIndex raws[i] ≠ .ofIndex raw := fun heq =>
            hnodup.1 (ShortAddress.ofIndex_injective heq ▸ List.getElem_mem hlt)
          have hother := Function.update_of_ne hne (outlook.answer config)
            (poll (client config) raws (outlook.next config)).1
          rw [Function.iterate_succ_apply, ← hanswers i hlt]
          exact hother

theorem scanAnswers_client (raw : Fin 64) :
    scanAnswers (client config) outlook (.ofIndex raw) =
      ((next config)^[raw] outlook).answer config := by
  have hlt : raw.val < (List.finRange 64).length := by
    rw [List.length_finRange]
    exact raw.isLt
  have hanswer := (poll_client config outlook (List.finRange 64) (List.nodup_finRange 64)).2 raw hlt
  rw [List.getElem_finRange] at hanswer
  exact hanswer

end Outlook

namespace DeviceManager

@[simp] theorem PresenceScan.client_withClient {σ τ : Type*} (scan : PresenceScan σ) (state : τ) :
    (scan.withClient state).client = state := rfl

/-- The slot of an address, in the registry and in the flags of the process. -/
def ManagerState.slot {σ : Type*} (state : ManagerState σ) (address : ShortAddress) : Slot :=
  PresenceState.slot ⟨state.registry, state.duplicateReported⟩ address

/-- A scan through an idle pipeline over the simulated PHY, told from the script: the query of each
address goes on where the one before it stopped, and without retries the query of an address is one
read of the script. -/
theorem scan_on_script {τ : Type*} (delay : IDelayProvider τ) (jitter : IJitterSource τ)
    (config : PipelineQueryClient) (hadmissible : config.Admissible)
    (state : ManagerState (PipelineQueryClient × Station (SimulatedDaliPhy × τ)))
    (hstate : OnScript config state.client (outlookOf state.client)) (nowMs : UInt64) :
    let outlook := outlookOf state.client
    let told := fun raw : Fin 64 => (Outlook.next config)^[raw] outlook
    let observed := fun raw : Fin 64 => (state.slot (.ofIndex raw)).observe (.ofIndex raw) nowMs
      (Outlook.heardAs ((told raw).final config))
    let scanned := (managed (toQueryClient (SimulatedDaliPhy.service delay jitter))).step state
      (.scanPresence nowMs)
    (∀ raw, scanned.1.slot (.ofIndex raw) = (observed raw).1) ∧
      scanned.2.changes = ((List.finRange 64).filterMap fun raw =>
        (observed raw).2.map fun type => ⟨type, .ofIndex raw, nowMs⟩) ∧
      outlookOf scanned.1.client = (Outlook.next config)^[64] outlook ∧
      (config.maximumRetries = 0 → ∀ raw, (told raw).final config =
        outlook.outcome (Outlook.probe config) raw) := by
  intro outlook told observed scanned
  obtain ⟨hanswers, hclients⟩ := poll_simulates (query_onScript delay jitter config)
    (List.finRange 64) hstate
  have hscan := scanPresence_eq_scripted (toQueryClient (SimulatedDaliPhy.service delay jitter))
    nowMs state.duplicateReported state.registry state.client
  have hrefusal : outlook.refusal ≠ some .ok := fun h =>
    (SimulatedDaliPhy.transmit_of_refused 0 h).1 rfl
  have hheard : ∀ raw : Fin 64, classify (scanAnswers (Outlook.client config) outlook (.ofIndex raw)) =
      Outlook.heardAs ((told raw).final config) := by
    intro raw
    rw [Outlook.scanAnswers_client]
    refine Outlook.classify_answer config _ hadmissible ?_
    rw [Outlook.refusal_iterate_next]
    exact hrefusal
  let scan : Scan := ⟨nowMs, scanAnswers (Outlook.client config) outlook⟩
  have hstep : (presence.step ⟨state.registry, state.duplicateReported⟩ scan).1 =
      ⟨scanned.1.registry, scanned.1.duplicateReported⟩ ∧
      (presence.step ⟨state.registry, state.duplicateReported⟩ scan).2 = scanned.2 ∧
      (poll (toQueryClient (SimulatedDaliPhy.service delay jitter)) (List.finRange 64)
        state.client).2 = scanned.1.client := by
    rw [hanswers] at hscan
    simp only [scanned, managed, hscan, PresenceScan.client_withClient]
    exact ⟨rfl, rfl, trivial⟩
  have hobserved : ∀ raw, (slotMachine (.ofIndex raw)).step (state.slot (.ofIndex raw)) scan =
      observed raw := fun raw =>
    congrArg (fun outcome => (state.slot (.ofIndex raw)).observe (.ofIndex raw) nowMs outcome)
      (hheard raw)
  refine ⟨fun raw => ?_, ?_, ?_, fun hretries raw => ?_⟩
  · have hslot := slot_presence_step ⟨state.registry, state.duplicateReported⟩ scan (.ofIndex raw)
    rw [hstep.1] at hslot
    exact hslot.trans (congrArg Prod.fst (hobserved raw))
  · rw [← hstep.2.1, changes_presence_step]
    refine List.filterMap_congr fun raw _ => ?_
    rw [← hobserved raw]
    rfl
  · have hlast := (Outlook.poll_client config outlook (List.finRange 64) (List.nodup_finRange 64)).1
    rw [List.length_finRange] at hlast
    rw [← hstep.2.2]
    exact hclients.outlook.trans hlast
  · exact (Outlook.iterate_next_of_no_retries config outlook hadmissible hretries raw).2

/-- Without retries the silence is for the first address, and the second one is discovered. -/
theorem scan_on_script_example :
    let client : PipelineQueryClient := { maximumRetries := 0 }
    let state := { hesitantBench with client := (client, hesitantBench.client.2) }
    let scanned := (managed (toQueryClient (SimulatedDaliPhy.service ⟨fun _ s => s⟩
      ⟨fun _ s => (3, s)⟩))).step state (.scanPresence 5)
    (scanned.1.slot (.ofIndex 0)).record = none ∧
      (scanned.1.slot (.ofIndex 1)).record = some (.discovered (.ofIndex 1) 5) := by
  obtain ⟨hslot, -, -, -⟩ := scan_on_script ⟨fun _ s => s⟩ ⟨fun _ s => (3, s)⟩
    { maximumRetries := 0 } ⟨by decide, by decide⟩
    { hesitantBench with client := ({ maximumRetries := 0 }, hesitantBench.client.2) }
    ⟨rfl, rfl, rfl, rfl⟩ 5
  refine ⟨(congrArg Slot.record (hslot 0)).trans ?_, (congrArg Slot.record (hslot 1)).trans ?_⟩
  all_goals decide +kernel

end DeviceManager

end DaliEdge
