import DaliEdge.FaultyBus
import DaliEdge.PresenceRuns

/-!
# Presence scans over a bus that fails

A manager whose query client is a pipeline client, scanned while every transmit fails with a
fault on the controller's side. A scan takes lost bus power for what it is, but a transceiver
fault or a missing initialisation for a device that does not answer, and so it does with a
client whose requests are refused. Which of the two it is decides whether a record changes.
-/

namespace DaliEdge

namespace DeviceManager

open PipelineQueryClient

def presenceFrame (address : ShortAddress) : UInt16 :=
  (makeShortCommand address .queryControlGearPresent).raw

theorem presenceFrame_injective : Function.Injective presenceFrame := fun _ _ h =>
  makeShortCommand_injective _ (ForwardFrame.ext h)

/-- Every transmit of the presence frame of the address failed for lack of bus power, and there
was one. -/
def OnlyPowerLost (client : PipelineQueryClient) (events : List BusEvent) (address : ShortAddress) :
    Prop :=
  client.Admissible ∧ ∀ result, .transmit (presenceFrame address) result ∈ events →
    result = .busPowerLost

section Heard

variable {client : PipelineQueryClient} {xs ys : List BusEvent} {address : ShortAddress}

theorem onlyPowerLost_append_right (h : ∀ result, .transmit (presenceFrame address) result ∉ xs) :
    OnlyPowerLost client (xs ++ ys) address ↔ OnlyPowerLost client ys address := by
  refine and_congr_right fun _ => forall_congr' fun result => ?_
  rw [List.mem_append, or_iff_right (h result)]

theorem onlyPowerLost_append_left (h : ∀ result, .transmit (presenceFrame address) result ∉ ys) :
    OnlyPowerLost client (xs ++ ys) address ↔ OnlyPowerLost client xs address := by
  refine and_congr_right fun _ => forall_congr' fun result => ?_
  rw [List.mem_append, or_iff_left (h result)]

end Heard

/-- How a scan hears an address when all transmits fail. -/
def HearsFault (powerLost : Prop) (outcome : ScanOutcome) : Prop :=
  (outcome = .busFailure ∨ outcome = .silent) ∧ (outcome = .busFailure ↔ powerLost)

theorem hearsFault_faultResult {fault : PhyResult} (h : ControllerFault fault) :
    HearsFault (fault = .busPowerLost) (classify (faultResult fault)) := by
  rcases h with rfl | rfl | rfl <;> exact ⟨by decide, by decide⟩

theorem hearsFault_refusedResult {powerLost : Prop} (h : ¬ powerLost) :
    HearsFault powerLost (classify refusedResult) :=
  ⟨.inr rfl, ⟨nofun, fun hp => absurd hp h⟩⟩

theorem HearsFault.congr {p q : Prop} {outcome : ScanOutcome} (h : HearsFault p outcome)
    (hpq : q ↔ p) : HearsFault q outcome :=
  ⟨h.1, h.2.trans hpq.symm⟩

variable {σ : Type*} (service : DaliTransactionService σ)

/-- The transmits of one presence query, and how the address is heard by it. -/
theorem query_heard (client : PipelineQueryClient) (address : ShortAddress) {st : Station σ}
    (hidle : st.Idle) :
    let queried := client.query service address .queryControlGearPresent .high st
    (queried.2.1.Admissible ↔ client.Admissible) ∧ queried.2.2.Idle ∧
      ∃ events, Bus.Extends st.bus queried.2.2.bus events ∧ (AllFaulty events →
        (∀ frame result, .transmit frame result ∈ events → frame = presenceFrame address) ∧
        HearsFault (OnlyPowerLost client events address) (classify queried.1)) := by
  intro queried
  obtain ⟨-, hclient, hidle', -⟩ :=
    query_of_idle service client address .queryControlGearPresent .high hidle
  obtain ⟨events, hevents, hfault⟩ :=
    query_of_faulty service client address .queryControlGearPresent .high hidle
  refine ⟨by rw [hclient]; exact Iff.rfl, hidle', events, hevents, fun hfaulty => ?_⟩
  by_cases hadmissible : client.Admissible
  · obtain ⟨fault, hcontroller, rfl, hresult⟩ := (hfault hfaulty).1 hadmissible
    refine ⟨fun frame result hmem => ?_, ?_⟩
    · cases List.mem_singleton.1 hmem
      rfl
    · rw [hresult]
      refine (hearsFault_faultResult hcontroller).congr ⟨fun h => ?_, fun h => ⟨hadmissible, ?_⟩⟩
      · exact h.2 fault (List.mem_singleton.2 rfl)
      · intro result hmem
        cases List.mem_singleton.1 hmem
        exact h
  · obtain ⟨rfl, hresult⟩ := (hfault hfaulty).2 hadmissible
    refine ⟨fun _ _ hmem => absurd hmem List.not_mem_nil, ?_⟩
    rw [hresult]
    exact hearsFault_refusedResult fun h => hadmissible h.1

/-- The transmits of a poll are presence queries of the addresses polled, and tell how each of
them is heard. -/
theorem poll_heard (raws : List (Fin 64)) (hnodup : raws.Nodup) (client : PipelineQueryClient)
    (st : Station σ) (hidle : st.Idle) :
    let polled := poll (toQueryClient service) raws (client, st)
    (polled.2.1.Admissible ↔ client.Admissible) ∧ polled.2.2.Idle ∧
      ∃ events, Bus.Extends st.bus polled.2.2.bus events ∧ (AllFaulty events →
        (∀ frame result, .transmit frame result ∈ events →
          ∃ raw ∈ raws, frame = presenceFrame (.ofIndex raw)) ∧
        ∀ raw ∈ raws, HearsFault (OnlyPowerLost client events (.ofIndex raw))
          (classify (polled.1 (.ofIndex raw)))) := by
  induction raws generalizing client st with
  | nil => exact ⟨Iff.rfl, hidle, [], Bus.Extends.refl _, fun _ => ⟨by simp, by simp⟩⟩
  | cons raw raws ih =>
      rw [List.nodup_cons] at hnodup
      intro polled
      obtain ⟨hsame, hidle₁, events₁, hevents₁, hfault₁⟩ :=
        query_heard service client (.ofIndex raw) hidle
      obtain ⟨hsame₂, hidle₂, events₂, hevents₂, hfault₂⟩ := ih hnodup.2 _ _ hidle₁
      refine ⟨hsame₂.trans hsame, hidle₂, events₁ ++ events₂, hevents₁.trans hevents₂,
        fun hfaulty => ?_⟩
      obtain ⟨hframes₁, hheard₁⟩ := hfault₁ hfaulty.of_append.1
      obtain ⟨hframes₂, hheard₂⟩ := hfault₂ hfaulty.of_append.2
      have hother : ∀ other ∈ raws, ShortAddress.ofIndex other ≠ .ofIndex raw :=
        fun other hmem heq => hnodup.1 (ShortAddress.ofIndex_injective heq ▸ hmem)
      refine ⟨fun frame result hmem => ?_, fun other hmem => ?_⟩
      · rcases List.mem_append.1 hmem with hmem | hmem
        · exact ⟨raw, List.mem_cons_self, hframes₁ frame result hmem⟩
        · obtain ⟨other, hother, hframe⟩ := hframes₂ frame result hmem
          exact ⟨other, List.mem_cons_of_mem _ hother, hframe⟩
      · rcases List.mem_cons.1 hmem with rfl | hmem
        · have hanswer : polled.1 (.ofIndex other) = (client.query service (.ofIndex other)
              .queryControlGearPresent .high st).1 := Function.update_self ..
          rw [hanswer]
          refine hheard₁.congr (onlyPowerLost_append_left fun result hmem => ?_)
          obtain ⟨raw', hraw', hframe⟩ := hframes₂ _ _ hmem
          exact hother raw' hraw' (presenceFrame_injective hframe).symm
        · have hanswer : polled.1 (.ofIndex other) = (poll (toQueryClient service) raws
              (client.query service (.ofIndex raw) .queryControlGearPresent .high st).2).1
                (.ofIndex other) := Function.update_of_ne (hother other hmem) ..
          rw [hanswer]
          refine (hheard₂ other hmem).congr ((onlyPowerLost_append_right fun result hmem' => ?_).trans
            (and_congr_left' hsame.symm))
          exact hother other hmem (presenceFrame_injective (hframes₁ _ _ hmem'))

end DeviceManager

end DaliEdge
