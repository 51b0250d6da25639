import DaliEdge.Lifecycle
import DaliEdge.Outages

/-!
# Lifecycle changes and missed answers

A device that only ever answers its presence query or does not: its record counts the answers
missed last, and a lifecycle change is reported exactly when the next phase of the missed
answers ends.
-/

namespace DaliEdge

namespace DeviceManager

def answerOf (missed : Bool) : ScanOutcome := if missed then .silent else .answered

/-- The record of a device that is not missing counts the answers missed last. -/
def CountsMisses (w : List Bool) (record : Option DaliDeviceRecord) : Prop :=
  ∀ r, record = some r → r.lifecycle ≠ .missing → r.missedPresenceChecks < 3 ∧
    ∀ j, List.replicate j true <:+ w ↔ j ≤ r.missedPresenceChecks

variable {word : List DiscoveryChangeType} {w : List Bool} {slot : Slot}

theorem missedOnce_of_lt {record : DaliDeviceRecord} (h : record.missedPresenceChecks < 3) :
    record.missedOnce.missedPresenceChecks = record.missedPresenceChecks + 1 := by
  rw [DaliDeviceRecord.missedPresenceChecks_missedOnce, if_pos h]

theorem CountsMisses.observe (h : CountsMisses w slot.record) (address : ShortAddress)
    (nowMs : UInt64) (missed : Bool) :
    CountsMisses (w ++ [missed]) (slot.observe address nowMs (answerOf missed)).1.record := by
  obtain ⟨record, reported⟩ := slot
  intro r hr hm
  cases missed with
  | false =>
      have hzero : r.missedPresenceChecks = 0 := by cases record <;> cases hr <;> rfl
      rw [hzero]
      refine ⟨by omega, fun j => ?_⟩
      cases j with
      | zero => exact iff_of_true List.nil_suffix le_rfl
      | succ j =>
          rw [History.replicate_suffix_snoc]
          exact iff_of_false (fun h => Bool.false_ne_true h.1) (by omega)
  | true =>
      change ((⟨record, reported⟩ : Slot).observe address nowMs .silent).1.record = some r at hr
      cases record with
      | none => cases hr
      | some record =>
          by_cases hmissing : record.lifecycle = .missing
          · rw [Slot.observe_silent_missing address nowMs reported hmissing] at hr
            cases hr
            exact absurd hmissing hm
          · obtain ⟨hlt, hcount⟩ := h record rfl hmissing
            by_cases hlost : record.missedOnce.missedPresenceChecks ≥ 3
            · rw [Slot.observe_silent_lost address nowMs reported hmissing hlost] at hr
              cases hr
              exact absurd rfl hm
            · rw [Slot.observe_silent_missed address nowMs reported hmissing hlost] at hr
              cases hr
              rw [missedOnce_of_lt hlt] at hlost ⊢
              refine ⟨by omega, fun j => ?_⟩
              cases j with
              | zero => exact iff_of_true List.nil_suffix (by omega)
              | succ j =>
                  rw [History.replicate_suffix_snoc, hcount, Nat.succ_le_succ_iff]
                  exact and_iff_right rfl

/-- A lifecycle change is reported exactly when the next phase of the missed answers ends. -/
theorem Tracks.changes_observe (htracks : Tracks word slot.record)
    (hcounts : CountsMisses w slot.record) (address : ShortAddress) (nowMs : UInt64)
    (missed : Bool) :
    (Outages.Closes 2 word.length w missed → ∃ change,
      (slot.observe address nowMs (answerOf missed)).2.toList.filter isLifecycleChange = [change]) ∧
    (¬ Outages.Closes 2 word.length w missed →
      (slot.observe address nowMs (answerOf missed)).2.toList.filter isLifecycleChange = []) := by
  obtain ⟨record, reported⟩ := slot
  unfold Outages.Closes
  cases record with
  | none =>
      change word = [] at htracks
      subst htracks
      cases missed
      · exact ⟨fun _ => ⟨_, rfl⟩, fun h => absurd rfl h⟩
      · exact ⟨fun h => (by cases h), fun _ => rfl⟩
  | some record =>
      obtain ⟨n, rfl, hmissing, -⟩ := htracks
      rw [length_lifecycleWord]
      by_cases hm : record.lifecycle = .missing
      · have hodd := hmissing.1 hm
        rw [if_pos (by omega)]
        cases missed
        · refine ⟨fun _ => ⟨.deviceRecovered, ?_⟩, fun h => absurd rfl h⟩
          simp [answerOf, Slot.observe, hm, isLifecycleChange]
        · refine ⟨fun h => (by cases h), fun _ => ?_⟩
          simp [answerOf, Slot.observe, hm]
      · have heven : ¬ n % 2 = 1 := fun h => hm (hmissing.2 h)
        obtain ⟨hlt, hcount⟩ := hcounts record rfl hm
        rw [if_neg (by omega), hcount]
        cases missed
        · refine ⟨fun h => (by cases h.1), fun _ => ?_⟩
          simp [answerOf, Slot.observe, hm]
        · change (true = true ∧ _ → ∃ change, ((⟨some record, reported⟩ : Slot).observe address
            nowMs .silent).2.toList.filter isLifecycleChange = [change]) ∧ (_ →
              ((⟨some record, reported⟩ : Slot).observe address nowMs .silent).2.toList.filter
                isLifecycleChange = [])
          by_cases hlost : record.missedOnce.missedPresenceChecks ≥ 3
          · rw [Slot.observe_silent_lost address nowMs reported hm hlost]
            rw [missedOnce_of_lt hlt] at hlost
            exact ⟨fun _ => ⟨_, rfl⟩, fun h => absurd ⟨rfl, by omega⟩ h⟩
          · rw [Slot.observe_silent_missed address nowMs reported hm hlost]
            rw [missedOnce_of_lt hlt] at hlost
            exact ⟨fun h => absurd h.2 (by omega), fun _ => rfl⟩

end DeviceManager

end DaliEdge
