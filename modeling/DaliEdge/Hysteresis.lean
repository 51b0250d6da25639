import DaliEdge.History
import DaliEdge.PresenceRuns

/-!
# Three missed scans before a device is missing

Scans whose query was a bus failure are left out; what remains of the outcomes at an address is
what was heard there. A device should be reported missing only when the last three outcomes
heard are silent, and then without delay. The counter of missed checks follows the silent
scans as long as no device that has missed a check meets a collision, which does not reset it.
-/

namespace DaliEdge

namespace DeviceManager

/-- How the queries of an address ended, without the bus failures. -/
def heard (address : ShortAddress) (scans : List Scan) : List ScanOutcome :=
  (scans.map fun scan => scan.outcome address).filter fun outcome => outcome ≠ .busFailure

/-- The rule of three, at every scan of a run of a fresh manager. -/
structure ThreeScanRule (scans : List Scan) : Prop where
  missing_only : ∀ address pre scan, pre ++ [scan] <+: scans →
    .deviceMissing ∈ (presence.step (presence.after {} pre) scan).2.changesAt address →
    List.replicate 3 .silent <:+ heard address (pre ++ [scan])
  missing_by_third : ∀ address pre more record, pre ++ more <+: scans →
    (presence.after {} pre).registry.find address = some record →
    record.lifecycle ≠ .missing → heard address more = List.replicate 3 .silent →
    .deviceMissing ∈ reportsAt (presence.after {} pre) more address

/-- No registered device that has missed a check meets this scan with a collision. -/
def NoCollisionAfterMiss (state : PresenceState) (scan : Scan) : Prop :=
  ∀ address record, state.registry.find address = some record →
    record.missedPresenceChecks ≠ 0 → (scan.answers address).outcome ≠ .collision

theorem heard_snoc (address : ShortAddress) (scans : List Scan) (scan : Scan) :
    heard address (scans ++ [scan]) = heard address scans ++
      if scan.outcome address = .busFailure then [] else [scan.outcome address] := by
  rw [heard, List.map_append, List.filter_append]
  by_cases h : scan.outcome address = .busFailure <;> simp [heard, h]

theorem heard_cons (address : ShortAddress) (scan : Scan) (scans : List Scan) :
    heard address (scan :: scans) = (if scan.outcome address = .busFailure then []
      else [scan.outcome address]) ++ heard address scans := by
  rw [heard, List.map_cons, List.filter_cons]
  by_cases h : scan.outcome address = .busFailure <;> simp [heard, h]

/-! ## The counter never runs ahead of the silent scans -/

/-- The last outcomes heard are silent, at least as many as the record has missed checks. -/
def CountsSilence (history : List ScanOutcome) (record : Option DaliDeviceRecord) : Prop :=
  ∀ r, record = some r → List.replicate r.missedPresenceChecks .silent <:+ history

theorem missedOnce_le (record : DaliDeviceRecord) :
    record.missedOnce.missedPresenceChecks ≤ record.missedPresenceChecks + 1 := by
  rw [DaliDeviceRecord.missedPresenceChecks_missedOnce]
  split <;> omega

theorem CountsSilence.observe {history : List ScanOutcome} {slot : Slot}
    (h : CountsSilence history slot.record) (address : ShortAddress) (nowMs : UInt64)
    (outcome : ScanOutcome)
    (hc : ∀ record, slot.record = some record → record.missedPresenceChecks ≠ 0 →
      outcome ≠ .collision) :
    CountsSilence (history ++ if outcome = .busFailure then [] else [outcome])
      (slot.observe address nowMs outcome).1.record := by
  obtain ⟨record, reported⟩ := slot
  intro r hr
  cases record with
  | none =>
      cases outcome with
      | answered =>
          cases hr
          exact List.nil_suffix
      | collision => cases hr
      | busFailure => cases hr
      | silent => cases hr
  | some record =>
      have hrecord := h record rfl
      cases outcome with
      | answered =>
          cases hr
          exact List.nil_suffix
      | collision =>
          have hzero : record.missedPresenceChecks = 0 := by
            by_contra hne
            exact hc record rfl hne rfl
          cases hr
          change List.replicate record.missedPresenceChecks _ <:+ _
          rw [hzero]
          exact List.nil_suffix
      | busFailure =>
          cases hr
          simpa using hrecord
      | silent =>
          have hlonger := (History.replicate_suffix_snoc (x := ScanOutcome.silent) _).2 ⟨rfl, hrecord⟩
          change List.replicate _ _ <:+ history ++ [.silent]
          by_cases hmissing : record.lifecycle = .missing
          · rw [Slot.observe_silent_missing address nowMs reported hmissing] at hr
            cases hr
            exact History.replicate_suffix_of_le (Nat.le_succ _) hlonger
          · have hmissed : r.missedPresenceChecks = record.missedOnce.missedPresenceChecks := by
              simp only [Slot.observe, if_neg hmissing] at hr
              split at hr <;> cases hr <;> rfl
            rw [hmissed]
            exact History.replicate_suffix_of_le (missedOnce_le record) hlonger

theorem countsSilence_of_meets {scans : List Scan} (h : presence.Meets NoCollisionAfterMiss {} scans)
    (address : ShortAddress) :
    CountsSilence (heard address scans) ((presence.after {} scans).slot address).record := by
  refine Machine.meets_induction presence (P := fun scans => CountsSilence (heard address scans)
    ((presence.after {} scans).slot address).record) ?_ ?_ h
  · rw [Machine.after_nil, slot_initial]
    exact fun r hr => nomatch hr
  · intro scans scan _ hscan ih
    rw [heard_snoc, slot_after_snoc]
    refine ih.observe address scan.nowMs (scan.outcome address) fun record hrecord hm hc => ?_
    exact hscan address record hrecord hm ((classify_eq_collision_iff _).1 hc)

theorem eq_silent_of_missing {slot : Slot} {address : ShortAddress} {nowMs : UInt64}
    {outcome : ScanOutcome}
    (h : (slot.observe address nowMs outcome).2 = some .deviceMissing) :
    outcome = .silent ∧ ∃ record, slot.record = some record ∧
      3 ≤ record.missedOnce.missedPresenceChecks := by
  obtain ⟨record, reported⟩ := slot
  cases record with
  | none => cases outcome <;> cases reported <;> cases h
  | some record =>
      cases outcome with
      | answered =>
          simp only [Slot.observe] at h
          split at h <;> cases h
      | collision => cases reported <;> cases h
      | busFailure => cases h
      | silent =>
          refine ⟨rfl, record, rfl, ?_⟩
          simp only [Slot.observe] at h
          split at h
          · cases h
          · split at h
            · assumption
            · cases h

theorem missing_only_of_meets {scans : List Scan} (h : presence.Meets NoCollisionAfterMiss {} scans)
    (address : ShortAddress) (pre : List Scan) (scan : Scan) (hpre : pre ++ [scan] <+: scans)
    (hreport : .deviceMissing ∈ (presence.step (presence.after {} pre) scan).2.changesAt address) :
    List.replicate 3 .silent <:+ heard address (pre ++ [scan]) := by
  rw [changesAt_presence_step, Option.mem_toList] at hreport
  obtain ⟨hsilent, record, hrecord, hmissed⟩ := eq_silent_of_missing hreport
  have hmeets : presence.Meets NoCollisionAfterMiss {} pre :=
    Machine.Meets.of_prefix presence h ((List.prefix_append pre [scan]).trans hpre)
  have hsuffix := (History.replicate_suffix_snoc (x := ScanOutcome.silent) _).2
    ⟨rfl, countsSilence_of_meets hmeets address record hrecord⟩
  have hle := hmissed.trans (missedOnce_le record)
  rw [heard_snoc, hsilent]
  exact History.replicate_suffix_of_le hle hsuffix

/-! ## Three silent scans are enough -/

theorem missing_of_silence (address : ShortAddress) (scans : List Scan) (record : DaliDeviceRecord)
    (reported : Bool) (hm : record.lifecycle ≠ .missing) (k : ℕ) (hpos : 0 < k)
    (hk : 3 ≤ record.missedPresenceChecks + k)
    (hheard : heard address scans = List.replicate k .silent) :
    some .deviceMissing ∈ (slotMachine address).outputs ⟨some record, reported⟩ scans := by
  induction scans generalizing record reported k with
  | nil =>
      have hlen : 0 = k := by simpa [heard] using congrArg List.length hheard
      omega
  | cons scan scans ih =>
      rw [heard_cons] at hheard
      rw [Machine.outputs_cons]
      have hstep : (slotMachine address).step ⟨some record, reported⟩ scan =
        (⟨some record, reported⟩ : Slot).observe address scan.nowMs (scan.outcome address) := rfl
      rw [hstep]
      obtain ⟨k, rfl⟩ : ∃ j, k = j + 1 := ⟨k - 1, by omega⟩
      cases houtcome : scan.outcome address with
      | answered =>
          rw [houtcome, List.replicate_succ] at hheard
          cases hheard
      | collision =>
          rw [houtcome, List.replicate_succ] at hheard
          cases hheard
      | busFailure =>
          rw [houtcome] at hheard
          exact List.mem_cons_of_mem _ (ih record reported hm (k + 1) hpos hk hheard)
      | silent =>
          rw [houtcome, List.replicate_succ] at hheard
          have htail := (List.cons.inj hheard).2
          by_cases hlost : record.missedOnce.missedPresenceChecks ≥ 3
          · rw [Slot.observe_silent_lost address scan.nowMs reported hm hlost]
            exact List.mem_cons_self
          · have hmissed := DaliDeviceRecord.missedPresenceChecks_missedOnce record
            rw [Slot.observe_silent_missed address scan.nowMs reported hm hlost]
            split at hmissed
            · refine List.mem_cons_of_mem _ (ih record.missedOnce reported ?_ k ?_ ?_ htail)
              · rwa [DaliDeviceRecord.lifecycle_missedOnce]
              · omega
              · omega
            · omega

theorem missing_by_third (address : ShortAddress) (state : PresenceState) (scans : List Scan)
    (record : DaliDeviceRecord) (hrecord : state.registry.find address = some record)
    (hm : record.lifecycle ≠ .missing) (k : ℕ) (hpos : 0 < k)
    (hk : 3 ≤ record.missedPresenceChecks + k)
    (hheard : heard address scans = List.replicate k .silent) :
    .deviceMissing ∈ reportsAt state scans address := by
  rw [reportsAt_eq, List.reduceOption_mem_iff, PresenceState.slot_of_find hrecord]
  exact missing_of_silence address scans record _ hm k hpos hk hheard

/-! ## What happens after a collision on a device that has missed a check -/

/-- A collision on a device that has missed a check, then two silent scans: the device is
reported missing although it answered among the last three scans. -/
theorem not_threeScanRule_of_collision {scans : List Scan} {scan : Scan}
    (h : ¬ NoCollisionAfterMiss (presence.after {} scans) scan) :
    ¬ ThreeScanRule (scans ++ [scan] ++ [silentScan] ++ [silentScan]) := by
  rw [NoCollisionAfterMiss] at h
  push Not at h
  obtain ⟨address, record, hrecord, hmissed, hc⟩ := h
  have hcollision : scan.outcome address = .collision := (classify_eq_collision_iff _).2 hc
  have hslot := PresenceState.slot_of_find hrecord
  have hafter : (presence.after {} (scans ++ [scan])).registry.find address =
      some record.duplicated := by
    have hnext := slot_after_snoc {} scans scan address
    rw [hslot, hcollision] at hnext
    exact congrArg Slot.record hnext
  intro hrule
  have hreport := missing_by_third address (presence.after {} (scans ++ [scan]))
    [silentScan, silentScan] record.duplicated hafter (fun hm => nomatch hm) 2 (by omega)
    (by change 3 ≤ record.missedPresenceChecks + 2; omega) rfl
  have hhistory : heard address (scans ++ [scan]) = heard address scans ++ [.collision] := by
    rw [heard_snoc, hcollision]
    rfl
  rw [reportsAt, Machine.outputs_cons, Machine.outputs_cons, Machine.outputs_nil, List.mem_flatMap]
    at hreport
  obtain ⟨batch, hbatch, hmem⟩ := hreport
  rw [List.mem_cons, List.mem_singleton] at hbatch
  rcases hbatch with hbatch | hbatch
  · rw [hbatch] at hmem
    obtain ⟨front, hfront⟩ := hrule.missing_only address (scans ++ [scan]) silentScan
      (List.prefix_append _ _) hmem
    rw [heard_snoc, hhistory] at hfront
    have hends : (front ++ [.silent]) ++ [.silent, .silent] =
        heard address scans ++ [.collision, ScanOutcome.silent] := by
      simpa using hfront
    cases (List.append_inj' hends rfl).2
  · rw [hbatch, ← Machine.after_snoc] at hmem
    obtain ⟨front, hfront⟩ := hrule.missing_only address (scans ++ [scan] ++ [silentScan])
      silentScan List.prefix_rfl hmem
    rw [heard_snoc, heard_snoc, hhistory] at hfront
    have hends : front ++ [.silent, .silent, .silent] =
        heard address scans ++ [.collision, .silent, ScanOutcome.silent] := by
      simpa using hfront
    cases (List.append_inj' hends rfl).2

/-- The rule of three holds in every run without a collision on a device that has missed a check;
a run with one goes wrong within two scans. -/
theorem threeScanRule_runs (scans : List Scan) :
    (presence.Meets NoCollisionAfterMiss {} scans → ThreeScanRule scans) ∧
      (¬ presence.Meets NoCollisionAfterMiss {} scans →
        ∃ pre, pre <+: scans ∧ ¬ ThreeScanRule (pre ++ [silentScan] ++ [silentScan])) := by
  constructor
  · intro h
    refine ⟨missing_only_of_meets h, fun address pre more record _ hrecord hm hheard => ?_⟩
    exact missing_by_third address _ more record hrecord hm 3 (by omega) (by omega) hheard
  · intro h
    obtain ⟨pre, scan, hpre, hscan⟩ := Machine.exists_prefix_of_not_meets presence h
    exact ⟨pre ++ [scan], hpre, not_threeScanRule_of_collision hscan⟩

/-- Found, silent, a collision and two silent scans. -/
theorem not_threeScanRule_after_collision :
    ¬ ThreeScanRule [answeredScan, silentScan, collisionScan, silentScan, silentScan] := by
  intro h
  have hsuffix := h.missing_only ⟨0, by decide⟩
    [answeredScan, silentScan, collisionScan, silentScan] silentScan List.prefix_rfl (by
      rw [changesAt_presence_step, slot_presence_after, slot_initial]
      decide)
  revert hsuffix
  decide

theorem threeScanRule_outage : ThreeScanRule [answeredScan, silentScan, silentScan, silentScan] :=
  (threeScanRule_runs [answeredScan, silentScan, silentScan, silentScan]).1
    ⟨fun _ _ _ _ => nofun, fun _ _ _ _ => nofun, fun _ _ _ _ => nofun, fun _ _ _ _ => nofun, trivial⟩

end DeviceManager

end DaliEdge
