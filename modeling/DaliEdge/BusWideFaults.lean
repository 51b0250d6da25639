import DaliEdge.FaultyScans

/-!
# Bus-wide faults and the records of the lights

A run of scans during which every transmit fails for the controller should change no record and
report no light as missing. It does so for a light exactly when the light was missing before, or
when each of its queries was transmitted and failed for lack of bus power.
-/

namespace DaliEdge

namespace DeviceManager

open PipelineQueryClient

/-! ## One address -/

/-- A record that was not missing has been worn by silent scans. -/
def Worn (before : DaliDeviceRecord) : Option DaliDeviceRecord → Prop
  | none => False
  | some record =>
      record.lifecycle = .missing ∨ before.missedPresenceChecks < record.missedPresenceChecks

variable (address : ShortAddress)

theorem after_of_quiet (slot : Slot) (scans : List Scan)
    (houtcome : ∀ scan ∈ scans, scan.outcome address = .busFailure ∨
      scan.outcome address = .silent ∧ ∀ record, slot.record = some record →
        record.lifecycle = .missing) :
    (slotMachine address).after slot scans = slot ∧
      ∀ report ∈ (slotMachine address).outputs slot scans, report = none := by
  induction scans with
  | nil => exact ⟨rfl, nofun⟩
  | cons scan scans ih =>
      have hstep : (slotMachine address).step slot scan = (slot, none) := by
        change slot.observe address scan.nowMs (scan.outcome address) = _
        obtain ⟨record, reported⟩ := slot
        rcases houtcome scan List.mem_cons_self with h | ⟨h, hm⟩
        · rw [h]
          rfl
        · rw [h]
          cases record with
          | none => rfl
          | some record => exact Slot.observe_silent_missing address scan.nowMs reported (hm record rfl)
      obtain ⟨hafter, houtputs⟩ := ih fun other hmem => houtcome other (List.mem_cons_of_mem _ hmem)
      rw [Machine.after_cons, Machine.outputs_cons, hstep]
      refine ⟨hafter, fun report hmem => ?_⟩
      rcases List.mem_cons.1 hmem with rfl | hmem
      · rfl
      · exact houtputs report hmem

theorem missedOnce_of_not_lost {record : DaliDeviceRecord}
    (h : ¬ record.missedOnce.missedPresenceChecks ≥ 3) :
    record.missedOnce.missedPresenceChecks = record.missedPresenceChecks + 1 := by
  have hmissed := DaliDeviceRecord.missedPresenceChecks_missedOnce record
  split at hmissed <;> omega

theorem Worn.observe {before record : DaliDeviceRecord} (h : Worn before (some record))
    (reported : Bool) (nowMs : UInt64) {outcome : ScanOutcome}
    (houtcome : outcome = .busFailure ∨ outcome = .silent) :
    Worn before ((⟨some record, reported⟩ : Slot).observe address nowMs outcome).1.record := by
  rcases houtcome with rfl | rfl
  · exact h
  · by_cases hm : record.lifecycle = .missing
    · rw [Slot.observe_silent_missing address nowMs reported hm]
      exact h
    · by_cases hlost : record.missedOnce.missedPresenceChecks ≥ 3
      · rw [Slot.observe_silent_lost address nowMs reported hm hlost]
        exact .inl rfl
      · rw [Slot.observe_silent_missed address nowMs reported hm hlost]
        have hmissed := missedOnce_of_not_lost hlost
        exact .inr (by rcases h with h | h <;> [exact absurd h hm; omega])

theorem Worn.of_silent {record : DaliDeviceRecord} (hm : record.lifecycle ≠ .missing)
    (reported : Bool) (nowMs : UInt64) :
    Worn record ((⟨some record, reported⟩ : Slot).observe address nowMs .silent).1.record := by
  by_cases hlost : record.missedOnce.missedPresenceChecks ≥ 3
  · rw [Slot.observe_silent_lost address nowMs reported hm hlost]
    exact .inl rfl
  · rw [Slot.observe_silent_missed address nowMs reported hm hlost]
    exact .inr (by have hmissed := missedOnce_of_not_lost hlost; omega)

theorem worn_after {before : DaliDeviceRecord} (slot : Slot) (scans : List Scan)
    (houtcome : ∀ scan ∈ scans, scan.outcome address = .busFailure ∨ scan.outcome address = .silent)
    (h : Worn before slot.record) :
    Worn before ((slotMachine address).after slot scans).record := by
  induction scans generalizing slot with
  | nil => exact h
  | cons scan scans ih =>
      refine ih _ (fun other hmem => houtcome other (List.mem_cons_of_mem _ hmem)) ?_
      obtain ⟨record, reported⟩ := slot
      cases record with
      | none => exact absurd h id
      | some record =>
          exact Worn.observe address h reported scan.nowMs (houtcome scan List.mem_cons_self)

theorem worn_of_silent_scan {record : DaliDeviceRecord} (hm : record.lifecycle ≠ .missing)
    (reported : Bool) (scans : List Scan)
    (houtcome : ∀ scan ∈ scans, scan.outcome address = .busFailure ∨ scan.outcome address = .silent)
    (hsilent : ∃ scan ∈ scans, scan.outcome address = .silent) :
    Worn record ((slotMachine address).after ⟨some record, reported⟩ scans).record := by
  induction scans with
  | nil => obtain ⟨scan, hmem, -⟩ := hsilent; cases hmem
  | cons scan scans ih =>
      have htail := fun other hmem => houtcome other (List.mem_cons_of_mem scan hmem)
      rw [Machine.after_cons]
      change Worn record ((slotMachine address).after (Slot.observe address scan.nowMs
        (scan.outcome address) ⟨some record, reported⟩).1 scans).record
      rcases houtcome scan List.mem_cons_self with h | h
      · rw [h]
        refine ih htail ?_
        obtain ⟨other, hmem, hother⟩ := hsilent
        rcases List.mem_cons.1 hmem with rfl | hmem
        · rw [h] at hother
          cases hother
        · exact ⟨other, hmem, hother⟩
      · rw [h]
        exact worn_after address _ scans htail (Worn.of_silent address hm reported scan.nowMs)

/-! ## All addresses -/

def health (record : DaliDeviceRecord) : DeviceLifecycle × Bool × ℕ :=
  (record.lifecycle, record.present, record.missedPresenceChecks)

/-- No light is reported missing, and every record is present, absent and counted as before. -/
def Harmless (state : PresenceState) (scans : List Scan) : Prop :=
  ∀ address, .deviceMissing ∉ reportsAt state scans address ∧
    ((presence.after state scans).registry.find address).map health =
      (state.registry.find address).map health

/-- Scans that hear only bus failures and silence are harmless exactly when every light that is
not missing was only heard to fail with the bus. -/
theorem harmless_iff (state : PresenceState) (scans : List Scan)
    (houtcome : ∀ address, ∀ scan ∈ scans,
      scan.outcome address = .busFailure ∨ scan.outcome address = .silent) :
    Harmless state scans ↔ ∀ address record, state.registry.find address = some record →
      record.lifecycle ≠ .missing → ∀ scan ∈ scans, scan.outcome address = .busFailure := by
  constructor
  · intro h address record hrecord hm
    by_contra hno
    push Not at hno
    obtain ⟨scan, hmem, hne⟩ := hno
    have hsilent := (houtcome address scan hmem).resolve_left hne
    have hworn := worn_of_silent_scan address hm (state.slot address).reported scans
      (houtcome address) ⟨scan, hmem, hsilent⟩
    have hsame := (h address).2
    have hafter := congrArg Slot.record (slot_presence_after state scans address)
    rw [← PresenceState.slot_of_find hrecord, ← hafter] at hworn
    change Worn record ((presence.after state scans).registry.find address) at hworn
    rw [hrecord] at hsame
    cases hfind : (presence.after state scans).registry.find address with
    | none => rw [hfind] at hworn; exact hworn
    | some record' =>
        rw [hfind, Option.map_some, Option.map_some, Option.some_inj, health, health] at hsame
        rw [hfind] at hworn
        simp only [Prod.mk.injEq] at hsame
        rcases hworn with hworn | hworn
        · exact hm (hsame.1.symm.trans hworn)
        · omega
  · intro h address
    have hquiet := after_of_quiet address (state.slot address) scans fun scan hmem => ?_
    · obtain ⟨hafter, houtputs⟩ := hquiet
      constructor
      · rw [reportsAt_eq, List.reduceOption_mem_iff]
        intro hmem
        cases houtputs _ hmem
      · rw [← slot_presence_after] at hafter
        exact congrArg (fun slot => slot.record.map health) hafter
    · rcases houtcome address scan hmem with hbus | hsilent
      · exact .inl hbus
      · refine .inr ⟨hsilent, fun record hrecord => ?_⟩
        by_contra hm
        rw [h address record hrecord hm scan hmem] at hsilent
        cases hsilent

/-! ## A manager over a pipeline -/

/-- A manager, its query client and the pipeline with the bus that the client uses. -/
structure Installation (σ : Type*) where
  presence : PresenceState
  client : PipelineQueryClient
  station : Station σ

variable {σ : Type*} (service : DaliTransactionService σ)

def installation : Machine (Installation σ) UInt64 DiscoveryBatch where
  step s nowMs :=
    let r := scanPresence (toQueryClient service) nowMs s.presence.duplicateReported
      s.presence.registry (s.client, s.station)
    (⟨⟨r.registry, r.duplicateReported⟩, r.client.1, r.client.2⟩, r.batch)

theorem installation_step (s : Installation σ) (nowMs : UInt64)
    {polled : (ShortAddress → DaliQueryResult) × PipelineQueryClient × Station σ}
    (h : poll (toQueryClient service) (List.finRange 64) (s.client, s.station) = polled) :
    (installation service).step s nowMs =
      (⟨(DeviceManager.presence.step s.presence ⟨nowMs, polled.1⟩).1, polled.2.1, polled.2.2⟩,
        (DeviceManager.presence.step s.presence ⟨nowMs, polled.1⟩).2) := by
  have hscan := scanPresence_eq_scripted (toQueryClient service) nowMs
    s.presence.duplicateReported s.presence.registry (s.client, s.station)
  rw [h] at hscan
  unfold installation
  dsimp only
  rw [hscan, presence_step]
  rfl

/-- On an idle pipeline the run is a run of scans; if all transmits fail, they tell what the
scans hear at each address. -/
theorem installation_run (s : Installation σ) (hidle : s.station.Idle) (times : List UInt64) :
    ∃ scans events,
      ((installation service).after s times).presence =
        DeviceManager.presence.after s.presence scans ∧
      (installation service).outputs s times =
        DeviceManager.presence.outputs s.presence scans ∧
      Bus.Extends s.station.bus ((installation service).after s times).station.bus events ∧
      (AllFaulty events → ∀ address,
        (∀ scan ∈ scans, scan.outcome address = .busFailure ∨ scan.outcome address = .silent) ∧
        ((∀ scan ∈ scans, scan.outcome address = .busFailure) ↔
          (times ≠ [] → s.client.Admissible) ∧ ∀ result,
            .transmit (presenceFrame address) result ∈ events → result = .busPowerLost)) := by
  induction times generalizing s with
  | nil =>
      refine ⟨[], [], rfl, rfl, Bus.Extends.refl _, fun _ address => ⟨nofun, ?_⟩⟩
      exact ⟨fun _ => ⟨fun h => absurd rfl h, nofun⟩, fun _ => nofun⟩
  | cons nowMs times ih =>
      obtain ⟨hsame, hidle₁, events₁, hevents₁, hfault₁⟩ := poll_heard service (List.finRange 64)
        (List.nodup_finRange 64) s.client s.station hidle
      generalize hpolled : poll (toQueryClient service) (List.finRange 64)
        (s.client, s.station) = polled at hsame hidle₁ hevents₁ hfault₁
      have hstep := installation_step service s nowMs hpolled
      obtain ⟨scans, events₂, hafter, houtputs, hevents₂, hfault₂⟩ :=
        ih ((installation service).step s nowMs).1 (by rw [hstep]; exact hidle₁)
      rw [hstep] at hafter houtputs hevents₂ hfault₂
      refine ⟨⟨nowMs, polled.1⟩ :: scans, events₁ ++ events₂, ?_, ?_, ?_, fun hfaulty address => ?_⟩
      · rw [Machine.after_cons, hstep]
        exact hafter
      · rw [Machine.outputs_cons, hstep]
        exact congrArg _ houtputs
      · rw [Machine.after_cons, hstep]
        exact hevents₁.trans hevents₂
      · obtain ⟨hall, hiff⟩ := hfault₂ hfaulty.of_append.2 address
        have hheard := (hfault₁ hfaulty.of_append.1).2 address.index (List.mem_finRange _)
        rw [ShortAddress.ofIndex_index] at hheard
        have hfirst : Scan.outcome ⟨nowMs, polled.1⟩ address = .busFailure ↔
            OnlyPowerLost s.client events₁ address := hheard.2
        refine ⟨List.forall_mem_cons.2 ⟨hheard.1, hall⟩, ?_⟩
        rw [List.forall_mem_cons, hiff, hfirst]
        constructor
        · rintro ⟨⟨hadmissible, honly⟩, -, hlater⟩
          refine ⟨fun _ => hadmissible, fun result hmem => ?_⟩
          exact (List.mem_append.1 hmem).elim (honly result) (hlater result)
        · rintro ⟨hadmissible, honly⟩
          refine ⟨⟨hadmissible (List.cons_ne_nil _ _), fun result hmem => ?_⟩, fun _ => ?_,
            fun result hmem => ?_⟩
          · exact honly result (List.mem_append_left _ hmem)
          · exact hsame.2 (hadmissible (List.cons_ne_nil _ _))
          · exact honly result (List.mem_append_right _ hmem)

/-- No scan of the run reports a light as missing, and the run changes no record's lifecycle,
present flag or missed counter. -/
def RaisesNoAlarms (s : Installation σ) (times : List UInt64) : Prop :=
  (∀ batch ∈ (installation service).outputs s times, ∀ change ∈ batch.changes,
    change.type ≠ .deviceMissing) ∧
  ∀ address,
    (((installation service).after s times).presence.registry.find address).map health =
      (s.presence.registry.find address).map health

theorem raisesNoAlarms_iff_harmless {s : Installation σ} {times : List UInt64} {scans : List Scan}
    (hafter : ((installation service).after s times).presence =
      DeviceManager.presence.after s.presence scans)
    (houtputs : (installation service).outputs s times =
      DeviceManager.presence.outputs s.presence scans) :
    RaisesNoAlarms service s times ↔ Harmless s.presence scans := by
  have hreports : ∀ address, .deviceMissing ∈ reportsAt s.presence scans address ↔
      ∃ batch ∈ (installation service).outputs s times, ∃ change ∈ batch.changes,
        change.address = address ∧ change.type = .deviceMissing := by
    intro address
    simp [reportsAt, DiscoveryBatch.changesAt, houtputs, and_assoc]
  simp only [RaisesNoAlarms, Harmless, hreports, hafter]
  constructor
  · rintro ⟨hchanges, hrecords⟩ address
    refine ⟨?_, hrecords address⟩
    rintro ⟨batch, hbatch, change, hchange, -, htype⟩
    exact hchanges batch hbatch change hchange htype
  · intro h
    refine ⟨fun batch hbatch change hchange htype => ?_, fun address => (h address).2⟩
    exact (h change.address).1 ⟨batch, hbatch, change, hchange, rfl, htype⟩

/-- While all transmits fail for the controller, the scans raise no alarms exactly when each light
that was not missing is queried, if at all, by admissible requests that fail for lack of bus
power. -/
theorem raisesNoAlarms_iff (s : Installation σ) (hidle : s.station.Idle) (times : List UInt64)
    (hfaulty : AllFaulty
      (Bus.since s.station.bus ((installation service).after s times).station.bus)) :
    RaisesNoAlarms service s times ↔ ∀ address record,
      s.presence.registry.find address = some record → record.lifecycle ≠ .missing →
        (times ≠ [] → s.client.Admissible) ∧ ∀ result,
          .transmit (presenceFrame address) result ∈
              Bus.since s.station.bus ((installation service).after s times).station.bus →
            result = .busPowerLost := by
  obtain ⟨scans, events, hafter, houtputs, hevents, hfault⟩ :=
    installation_run service s hidle times
  rw [hevents.since_eq] at hfaulty ⊢
  have hheard := hfault hfaulty
  rw [raisesNoAlarms_iff_harmless service hafter houtputs,
    harmless_iff s.presence scans fun address => (hheard address).1]
  simp only [(hheard _).2]

/-! ## A transceiver that is broken -/

/-- A PHY that never transmits, for the given reason. -/
def brokenService (fault : PhyResult) : DaliTransactionService Unit where
  phy := ⟨fun _ state => (fault, state), fun byte _ state => (fault, byte, state)⟩
  delay := ⟨fun _ state => state⟩
  jitter := ⟨fun _ state => (0, state)⟩

/-- One light, at address 0, that has missed two checks, and an idle pipeline. -/
def oneLight : Installation Unit where
  presence :=
    { registry := DaliDeviceRegistry.store {} ⟨0, by decide⟩
        { DaliDeviceRecord.discovered ⟨0, by decide⟩ 0 with missedPresenceChecks := 2 } }
  client := {}
  station := .initial ()

/-- A scan over a broken transceiver reports the light as missing. -/
theorem not_raisesNoAlarms_of_transceiverFault :
    oneLight.station.Idle ∧
      AllFaulty (Bus.since oneLight.station.bus
        ((installation (brokenService .transceiverFault)).after oneLight [0]).station.bus) ∧
      ¬ RaisesNoAlarms (brokenService .transceiverFault) oneLight [0] :=
  ⟨rfl, by decide +kernel, fun h => absurd h.1 (by decide +kernel)⟩

theorem raisesNoAlarms_of_busPowerLost :
    RaisesNoAlarms (brokenService .busPowerLost) oneLight [0] := by
  have hlost : ∀ event ∈ Bus.since oneLight.station.bus ((installation
      (brokenService .busPowerLost)).after oneLight [0]).station.bus,
      ∃ raw : Fin 64, event = .transmit (presenceFrame (.ofIndex raw)) .busPowerLost := by
    decide +kernel
  have hresult : ∀ frame result, .transmit frame result ∈ Bus.since oneLight.station.bus
      ((installation (brokenService .busPowerLost)).after oneLight [0]).station.bus →
      result = .busPowerLost := by
    intro frame result hmem
    obtain ⟨raw, heq⟩ := hlost _ hmem
    exact (BusEvent.transmit.inj heq).2
  refine (raisesNoAlarms_iff _ oneLight rfl [0] fun frame result hmem =>
    .inl (hresult frame result hmem)).2 ?_
  intro address record _ _
  exact ⟨fun _ => ⟨by decide, by decide⟩, hresult (presenceFrame address)⟩

end DeviceManager

end DaliEdge
