import DaliEdge.PipelineAccounts
import DaliEdge.ScriptedBus

/-!
# The pipeline on a test bench

On a bench the pipeline drives the simulated PHY, while the test itself prepares responses, sets
faults and resets. Whatever the order, the PHY sees one run of its operations: the transmits and
receives that the bus records, with the results that it records, and the test's own operations in
between. So what is known of every run of the simulated PHY is known of the bench.
-/

namespace DaliEdge

/-- The operation of the simulated PHY that an event of the bus is, and its answer. -/
def BusEvent.simulated : BusEvent → Option (SimulatorOp × SimulatorAnswer)
  | .transmit forwardFrame result => some (.transmit forwardFrame, { result := some result })
  | .receive timeoutMs result backwardFrame =>
      some (.receive 0 timeoutMs, ⟨some result, some backwardFrame⟩)
  | .jitter _ _ => none
  | .delay _ => none

namespace SimulatedDaliPhy

/-- The operations lead from one PHY to the other, with these answers. -/
def Replays (phy phy' : SimulatedDaliPhy) (calls : List (SimulatorOp × SimulatorAnswer)) : Prop :=
  machine.after phy (calls.map Prod.fst) = phy' ∧
    machine.outputs phy (calls.map Prod.fst) = calls.map Prod.snd

variable {phy phy' phy'' : SimulatedDaliPhy} {calls calls' : List (SimulatorOp × SimulatorAnswer)}

theorem Replays.refl (phy : SimulatedDaliPhy) : Replays phy phy [] := ⟨rfl, rfl⟩

theorem Replays.trans (h : Replays phy phy' calls) (h' : Replays phy' phy'' calls') :
    Replays phy phy'' (calls ++ calls') := by
  obtain ⟨hafter, houtputs⟩ := h
  obtain ⟨hafter', houtputs'⟩ := h'
  constructor
  · rw [List.map_append, Machine.after_append, hafter, hafter']
  · rw [List.map_append, Machine.outputs_append, hafter, houtputs, houtputs', List.map_append]

theorem Replays.single (phy : SimulatedDaliPhy) (op : SimulatorOp) :
    Replays phy (machine.step phy op).1 [(op, (machine.step phy op).2)] := ⟨rfl, rfl⟩

/-! ## Transactions -/

section Service

variable {τ : Type*}

/-- What the bus recorded from one moment to the other is what happened to the PHY. -/
def Explained (before after : Bus (SimulatedDaliPhy × τ)) : Prop :=
  ∃ events, Bus.Extends before after events ∧
    Replays before.state.1 after.state.1 (events.filterMap BusEvent.simulated)

theorem Explained.refl (bus : Bus (SimulatedDaliPhy × τ)) : Explained bus bus :=
  ⟨[], Bus.Extends.refl bus, Replays.refl _⟩

theorem Explained.trans {a b c : Bus (SimulatedDaliPhy × τ)} (h : Explained a b)
    (h' : Explained b c) : Explained a c := by
  obtain ⟨events, hextends, hreplays⟩ := h
  obtain ⟨events', hextends', hreplays'⟩ := h'
  refine ⟨events ++ events', hextends.trans hextends', ?_⟩
  rw [List.filterMap_append]
  exact hreplays.trans hreplays'

variable (delay : IDelayProvider τ) (jitter : IJitterSource τ)

theorem explained_transmit (frame : UInt16) (bus : Bus (SimulatedDaliPhy × τ)) :
    Explained bus ((service delay jitter).transmit frame bus).2 :=
  ⟨_, Bus.extends_record _ _ _, Replays.single bus.state.1 (.transmit frame)⟩

theorem explained_receive (timeoutMs : UInt32) (bus : Bus (SimulatedDaliPhy × τ)) :
    Explained bus ((service delay jitter).receive 0 timeoutMs bus).2.2 :=
  ⟨_, Bus.extends_record _ _ _, Replays.single bus.state.1 (.receive 0 timeoutMs)⟩

theorem explained_exchange (request : DaliRequest) (bus : Bus (SimulatedDaliPhy × τ)) :
    Explained bus ((service delay jitter).exchange request bus).2.2 := by
  have htransmit := explained_transmit delay jitter request.frame.raw bus
  unfold DaliTransactionService.exchange
  simp only
  split_ifs
  · exact htransmit.trans (explained_receive delay jitter request.timeoutMs _)
  · exact htransmit

theorem explained_backOff (attempt : ℕ) (bus : Bus (SimulatedDaliPhy × τ)) :
    Explained bus ((service delay jitter).backOff attempt bus).2 :=
  ⟨_, (Bus.extends_record _ _ _).trans (Bus.extends_record _ _ _), Replays.refl _⟩

theorem explained_attemptLoop (request : DaliRequest) (remaining attempt : ℕ)
    (result : DaliTransactionResult) (bus : Bus (SimulatedDaliPhy × τ)) :
    Explained bus ((service delay jitter).attemptLoop request remaining attempt result bus).2 := by
  induction remaining generalizing attempt result bus with
  | zero => exact Explained.refl bus
  | succ remaining ih =>
      have hexchange := explained_exchange delay jitter request bus
      rcases (service delay jitter).attemptLoop_step request remaining attempt result bus with
        ⟨result', heq, -⟩ | ⟨-, result', heq⟩
      · rw [heq]
        exact hexchange
      · rw [heq]
        exact (hexchange.trans (explained_backOff delay jitter attempt _)).trans
          (ih (attempt + 1) result' _)

theorem explained_execute (request : DaliRequest) (bus : Bus (SimulatedDaliPhy × τ)) :
    Explained bus ((service delay jitter).execute request bus).2 := by
  by_cases h : request.Admissible
  · rw [(service delay jitter).execute_of_admissible request bus h]
    exact explained_attemptLoop delay jitter request _ _ _ bus
  · rw [(service delay jitter).execute_of_not_admissible request bus h]
    exact Explained.refl bus

/-! ## The pipeline -/

theorem explained_processNext (st : Station (SimulatedDaliPhy × τ)) :
    Explained st.bus (st.processNext (service delay jitter)).2.bus := by
  cases hwaiting : st.waiting with
  | nil =>
      obtain ⟨-, -, hbus⟩ := st.processNext_of_nil (service delay jitter) hwaiting
      rw [hbus]
      exact Explained.refl st.bus
  | cons request rest =>
      obtain ⟨-, -, hbus⟩ := st.processNext_of_cons (service delay jitter) hwaiting
      rw [hbus]
      exact explained_execute delay jitter request st.bus

theorem explained_transact (request : DaliRequest) (st : Station (SimulatedDaliPhy × τ)) :
    Explained st.bus (st.transact (service delay jitter) request).2.2.bus := by
  by_cases h : st.pipeline.queue.count < 64
  · rw [Station.transact_of_lt _ request st h]
    exact explained_processNext delay jitter (st.enqueue request).2
  · rw [Station.transact_of_full _ request st h]
    exact Explained.refl st.bus

theorem explained_perform (call : ClientCall) (st : Station (SimulatedDaliPhy × τ)) :
    Explained st.bus (call.perform (service delay jitter) st).2.bus := by
  cases hrequest : call.request with
  | none =>
      rw [ClientCall.perform_of_no_request _ st hrequest]
      exact Explained.refl st.bus
  | some request =>
      rw [ClientCall.perform_eq_transact _ st hrequest]
      exact explained_transact delay jitter request st

theorem explained_pipeline (op : PipelineOp) (st : Station (SimulatedDaliPhy × τ)) :
    Explained st.bus ((Station.accounted (service delay jitter)).step st op).1.bus := by
  cases op with
  | enqueue request => exact Explained.refl st.bus
  | processNext => exact explained_processNext delay jitter st
  | call call => exact explained_perform delay jitter call st

end Service

/-! ## Transmitted frames -/

def acceptedFrame : SimulatorOp × SimulatorAnswer → Option UInt16
  | (.transmit frame, answer) => if answer.result = some .ok then some frame else none
  | _ => none

theorem transmits_step (phy : SimulatedDaliPhy) (op : SimulatorOp) :
    (machine.step phy op).1.transmittedFrameCount = phy.transmittedFrameCount +
        UInt32.ofNat (acceptedFrame (op, (machine.step phy op).2)).toList.length ∧
      (machine.step phy op).1.lastForwardFrame =
        (acceptedFrame (op, (machine.step phy op).2)).getD phy.lastForwardFrame := by
  have hzero : phy.transmittedFrameCount = phy.transmittedFrameCount + UInt32.ofNat 0 :=
    (UInt32.add_zero _).symm
  cases op with
  | transmit frame =>
      have hstep : machine.step phy (.transmit frame) =
        ((phy.transmit frame).2, { result := some (phy.transmit frame).1 }) := rfl
      rw [hstep]
      cases hrefusal : phy.refusal with
      | some result =>
          obtain ⟨hfailed, htransmit⟩ := transmit_of_refused frame hrefusal
          have hnone : acceptedFrame (.transmit frame, { result := some result }) = none :=
            if_neg fun h => hfailed (Option.some.inj h)
          rw [htransmit, hnone]
          exact ⟨hzero, rfl⟩
      | none =>
          have hsome : acceptedFrame (.transmit frame, { result := some .ok }) = some frame := rfl
          rw [transmit_of_accepted frame hrefusal, hsome]
          exact ⟨rfl, rfl⟩
  | receive frame timeoutMs =>
      change (phy.receive frame timeoutMs).2.2.transmittedFrameCount = _ ∧
        (phy.receive frame timeoutMs).2.2.lastForwardFrame = _
      have hsame : (phy.receive frame timeoutMs).2.2.transmittedFrameCount =
          phy.transmittedFrameCount ∧
          (phy.receive frame timeoutMs).2.2.lastForwardFrame = phy.lastForwardFrame := by
        unfold receive
        split_ifs <;> exact ⟨rfl, rfl⟩
      exact ⟨hsame.1.trans hzero, hsame.2⟩
  | enqueueResponse response =>
      change (phy.enqueueResponse response).2.transmittedFrameCount = _ ∧
        (phy.enqueueResponse response).2.lastForwardFrame = _
      have hsame : (phy.enqueueResponse response).2.transmittedFrameCount =
          phy.transmittedFrameCount ∧
          (phy.enqueueResponse response).2.lastForwardFrame = phy.lastForwardFrame := by
        unfold enqueueResponse
        split_ifs <;> exact ⟨rfl, rfl⟩
      exact ⟨hsame.1.trans hzero, hsame.2⟩
  | _ => exact ⟨hzero, rfl⟩

/-- The counter of the PHY counts the accepted transmits, and its last frame is that of the last
one. -/
theorem transmits_of_replays (h : Replays phy phy' calls) :
    phy'.transmittedFrameCount =
        phy.transmittedFrameCount + UInt32.ofNat (calls.filterMap acceptedFrame).length ∧
      phy'.lastForwardFrame =
        (calls.filterMap acceptedFrame).getLast?.getD phy.lastForwardFrame := by
  induction calls using List.reverseRecOn generalizing phy' with
  | nil =>
      obtain ⟨rfl, -⟩ := h
      exact ⟨(UInt32.add_zero _).symm, rfl⟩
  | append_singleton calls call ih =>
      obtain ⟨op, answer⟩ := call
      obtain ⟨hafter, houtputs⟩ := h
      rw [List.map_append, List.map_singleton, Machine.after_snoc] at hafter
      rw [List.map_append, List.map_append, List.map_singleton, List.map_singleton,
        Machine.outputs_snoc] at houtputs
      obtain ⟨hinit, hlast⟩ := List.append_inj' houtputs rfl
      obtain ⟨hcount, hframe⟩ := ih ⟨rfl, hinit⟩
      obtain ⟨hcountStep, hframeStep⟩ := transmits_step (machine.after phy (calls.map Prod.fst)) op
      rw [List.singleton_inj.1 hlast, hafter] at hcountStep hframeStep
      rw [List.filterMap_append, hcountStep, hframeStep, hcount, hframe]
      cases haccepted : acceptedFrame (op, answer) with
      | none =>
          rw [List.filterMap_cons_none haccepted, List.filterMap_nil, List.append_nil]
          exact ⟨UInt32.add_zero _, rfl⟩
      | some frame =>
          rw [List.filterMap_cons_some haccepted, List.filterMap_nil, List.length_append,
            UInt32.ofNat_add, UInt32.add_assoc, List.getLast?_concat]
          exact ⟨rfl, rfl⟩

/-! ## Runs of the bench -/

end SimulatedDaliPhy

inductive BenchOp
  | pipeline (op : PipelineOp)
  | simulator (op : SimulatorOp)

section Bench

open SimulatedDaliPhy

variable {τ : Type*} (delay : IDelayProvider τ) (jitter : IJitterSource τ)

/-- The bench: the pipeline's operations leave what the bus records of the PHY, and the test's own
operations go to the PHY directly. -/
def bench : Machine (Station (SimulatedDaliPhy × τ)) BenchOp
    (List (SimulatorOp × SimulatorAnswer)) where
  step st
    | .pipeline op =>
        let st' := ((Station.accounted (service delay jitter)).step st op).1
        (st', (Bus.since st.bus st'.bus).filterMap BusEvent.simulated)
    | .simulator op =>
        let r := machine.step st.bus.state.1 op
        ({ st with bus.state := (r.1, st.bus.state.2) }, [(op, r.2)])

theorem replays_bench_step (st : Station (SimulatedDaliPhy × τ)) (op : BenchOp) :
    Replays st.bus.state.1 ((bench delay jitter).step st op).1.bus.state.1
      ((bench delay jitter).step st op).2 := by
  cases op with
  | pipeline op =>
      obtain ⟨events, hextends, hreplays⟩ := explained_pipeline delay jitter op st
      rw [← hextends.since_eq] at hreplays
      exact hreplays
  | simulator op => exact Replays.single st.bus.state.1 op

theorem replays_bench (st : Station (SimulatedDaliPhy × τ)) (ops : List BenchOp) :
    Replays st.bus.state.1 ((bench delay jitter).after st ops).bus.state.1
      ((bench delay jitter).outputs st ops).flatten := by
  induction ops generalizing st with
  | nil => exact Replays.refl st.bus.state.1
  | cons op ops ih =>
      rw [Machine.outputs_cons, List.flatten_cons]
      exact (replays_bench_step delay jitter st op).trans (ih _)

/-- However the pipeline, its clients and the test are interleaved, the PHY runs the operations that
were recorded, with the answers that were recorded: so the responses taken are those prepared, in
their order, up to those still held, and the counter and the last frame are those of the accepted
transmits. -/
theorem bench_replays (state : τ) (ops : List BenchOp) :
    let start := Station.initial (({} : SimulatedDaliPhy), state)
    let calls := ((bench delay jitter).outputs start ops).flatten
    let phy := ((bench delay jitter).after start ops).bus.state.1
    phy = run (calls.map Prod.fst) ∧
      machine.outputs {} (calls.map Prod.fst) = calls.map Prod.snd ∧
      machine.collect accepted {} (calls.map Prod.fst) =
        machine.collect consumed {} (calls.map Prod.fst) ++ phy.held ∧
      phy.transmittedFrameCount = UInt32.ofNat (calls.filterMap acceptedFrame).length ∧
      phy.lastForwardFrame = (calls.filterMap acceptedFrame).getLast?.getD 0 := by
  intro start calls phy
  have hreplays : Replays {} phy calls := replays_bench delay jitter start ops
  obtain ⟨hcount, hframe⟩ := transmits_of_replays hreplays
  obtain ⟨hafter, houtputs⟩ := hreplays
  have hconserved := machine.collect_conserved conserved_step {} (calls.map Prod.fst)
  rw [hafter] at hconserved
  refine ⟨hafter.symm, houtputs, hconserved, ?_, hframe⟩
  rw [hcount]
  exact UInt32.zero_add _

end Bench

end DaliEdge
