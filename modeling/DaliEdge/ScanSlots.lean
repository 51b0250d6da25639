import DaliEdge.DeviceManager
import DaliEdge.Machine
import DaliEdge.SlotSweep

/-!
# A presence scan as sixty-four independent steps

What a scan does at an address depends on the record and the flag of that address and on how
its own query ended, nothing else. A scan through any client is a scan through one that reads
its answers from a table, and a run of scans is at each address a run of the slot machine.
-/

namespace DaliEdge

namespace DeviceManager

open PresenceScan

/-- How a query ended, in the order in which the scan asks. -/
inductive ScanOutcome
  | answered | collision | busFailure | silent
  deriving DecidableEq

def classify (result : DaliQueryResult) : ScanOutcome :=
  if isValidResponse result then .answered
  else if result.outcome = .collision then .collision
  else if isBusFailure result then .busFailure
  else .silent

/-- What a scan reads and writes at one address. -/
structure Slot where
  record : Option DaliDeviceRecord
  reported : Bool
  deriving DecidableEq

end DeviceManager

namespace DaliDeviceRecord

def discovered (address : ShortAddress) (nowMs : UInt64) : DaliDeviceRecord where
  address := address
  lifecycle := .present
  present := true
  firstSeenUptimeMs := nowMs
  lastSeenUptimeMs := nowMs

variable (record : DaliDeviceRecord)

def seen (nowMs : UInt64) : DaliDeviceRecord :=
  { record with
    lifecycle := .present
    present := true
    missedPresenceChecks := 0
    lastSeenUptimeMs := nowMs }

def duplicated : DaliDeviceRecord := { record with lifecycle := .duplicateAddress }

def missedOnce : DaliDeviceRecord :=
  if record.missedPresenceChecks < 3 then
    { record with missedPresenceChecks := record.missedPresenceChecks + 1 }
  else record

def lost : DaliDeviceRecord := { record with lifecycle := .missing, present := false }

theorem missedOnce_eq : record.missedOnce =
    { record with missedPresenceChecks := record.missedOnce.missedPresenceChecks } := by
  rw [missedOnce]
  split <;> rfl

@[simp] theorem lifecycle_missedOnce : record.missedOnce.lifecycle = record.lifecycle := by
  rw [missedOnce_eq]

@[simp] theorem present_missedOnce : record.missedOnce.present = record.present := by
  rw [missedOnce_eq]

theorem missedPresenceChecks_missedOnce : record.missedOnce.missedPresenceChecks =
    if record.missedPresenceChecks < 3 then record.missedPresenceChecks + 1
    else record.missedPresenceChecks := by
  rw [missedOnce]
  split <;> rfl

end DaliDeviceRecord

namespace DaliDeviceRegistry

variable (registry : DaliDeviceRegistry)

theorem find_store (raw other : Fin 64) (record : DaliDeviceRecord) :
    (registry.store (.ofIndex raw) record).find (.ofIndex other) =
      if raw = other then some record else registry.find (.ofIndex other) := by
  have hget := SlotSweep.get_set registry.records (ShortAddress.ofIndex raw).index
    (ShortAddress.ofIndex other).index (some record)
  simp only [ShortAddress.index_injective.eq_iff, ShortAddress.ofIndex_injective.eq_iff] at hget
  exact hget

@[simp] theorem count_store (address : ShortAddress) (record : DaliDeviceRecord) :
    (registry.store address record).count = registry.count := rfl

theorem ext_find {registry registry' : DaliDeviceRegistry}
    (h : ∀ raw, registry.find (.ofIndex raw) = registry'.find (.ofIndex raw))
    (hcount : registry.count = registry'.count) : registry = registry' := by
  refine DaliDeviceRegistry.ext (SlotSweep.ext_get fun raw => ?_) hcount
  have hraw := h raw
  rw [find, find, ShortAddress.index_ofIndex] at hraw
  exact hraw

end DaliDeviceRegistry

namespace DeviceManager

open PresenceScan

namespace Slot

def observe (address : ShortAddress) (nowMs : UInt64) (outcome : ScanOutcome) (slot : Slot) :
    Slot × Option DiscoveryChangeType :=
  match outcome, slot.record with
  | .answered, none =>
      (⟨some (.discovered address nowMs), false⟩, some .deviceDiscovered)
  | .answered, some record =>
      (⟨some (record.seen nowMs), false⟩,
        if record.lifecycle = .missing then some .deviceRecovered else none)
  | .collision, record =>
      (⟨record.map (·.duplicated), true⟩,
        if slot.reported then none else some .duplicateAddressSuspected)
  | .busFailure, _ => (slot, none)
  | .silent, none => (slot, none)
  | .silent, some record =>
      if record.lifecycle = .missing then (slot, none)
      else if record.missedOnce.missedPresenceChecks ≥ 3 then
        (⟨some record.missedOnce.lost, slot.reported⟩, some .deviceMissing)
      else (⟨some record.missedOnce, slot.reported⟩, none)

variable (address : ShortAddress) (nowMs : UInt64) (reported : Bool) {record : DaliDeviceRecord}

theorem observe_silent_missing (hm : record.lifecycle = .missing) :
    (⟨some record, reported⟩ : Slot).observe address nowMs .silent =
      (⟨some record, reported⟩, none) := by
  simp only [observe, if_pos hm]

theorem observe_silent_lost (hm : record.lifecycle ≠ .missing)
    (hlost : record.missedOnce.missedPresenceChecks ≥ 3) :
    (⟨some record, reported⟩ : Slot).observe address nowMs .silent =
      (⟨some record.missedOnce.lost, reported⟩, some .deviceMissing) := by
  simp only [observe, if_neg hm, if_pos hlost]

theorem observe_silent_missed (hm : record.lifecycle ≠ .missing)
    (hlost : ¬ record.missedOnce.missedPresenceChecks ≥ 3) :
    (⟨some record, reported⟩ : Slot).observe address nowMs .silent =
      (⟨some record.missedOnce, reported⟩, none) := by
  simp only [observe, if_neg hm, if_neg hlost]

end Slot

namespace PresenceScan

variable {σ : Type*}

def slot (scan : PresenceScan σ) (raw : Fin 64) : Slot :=
  ⟨scan.registry.find (.ofIndex raw), scan.duplicateReported.get raw⟩

/-- The loop body leaves `observed` in the slot of `raw` and adds its report to the batch. -/
structure Writes (scan next : PresenceScan σ) (nowMs : UInt64) (raw : Fin 64)
    (observed : Slot × Option DiscoveryChangeType) : Prop where
  slot_eq : ∀ other, next.slot other = if raw = other then observed.1 else scan.slot other
  count_eq : next.registry.count = scan.registry.count +
    if (scan.slot raw).record.isNone ∧ observed.1.record.isSome then 1 else 0
  client_eq : next.client = scan.client
  batch_eq : next.batch = match observed.2 with
    | none => scan.batch
    | some type => (scan.batch.add ⟨type, .ofIndex raw, nowMs⟩).2

variable (nowMs : UInt64) (raw : Fin 64) {result : DaliQueryResult} (scan : PresenceScan σ)

theorem find_unchanged (other : Fin 64) : scan.registry.find (.ofIndex other) =
    if raw = other then scan.registry.find (.ofIndex raw) else scan.registry.find (.ofIndex other) := by
  split_ifs with h
  · rw [h]
  · rfl

theorem flag_unchanged (other : Fin 64) : scan.duplicateReported.get other =
    if raw = other then scan.duplicateReported.get raw else scan.duplicateReported.get other := by
  split_ifs with h
  · rw [h]
  · rfl

theorem Writes.refl : Writes scan scan nowMs raw (scan.slot raw, none) where
  slot_eq other := by
    split_ifs with h
    · rw [h]
    · rfl
  count_eq := by simp
  client_eq := rfl
  batch_eq := rfl

variable {raw scan} in
theorem slot_of {next : PresenceScan σ} {record : Option DaliDeviceRecord} {reported : Bool}
    (hfind : ∀ other, next.registry.find (.ofIndex other) =
      if raw = other then record else scan.registry.find (.ofIndex other))
    (hflag : ∀ other, next.duplicateReported.get other =
      if raw = other then reported else scan.duplicateReported.get other) (other : Fin 64) :
    next.slot other = if raw = other then ⟨record, reported⟩ else scan.slot other := by
  rw [slot, hfind, hflag]
  split_ifs <;> rfl

theorem receive_answered (h : isValidResponse result = true) :
    Writes scan (receive nowMs raw result scan) nowMs raw
      ((scan.slot raw).observe (.ofIndex raw) nowMs .answered) := by
  have hflag := SlotSweep.get_set scan.duplicateReported raw
  cases hr : scan.registry.find (.ofIndex raw) with
  | none =>
      simp only [receive, h, hr, slot, Slot.observe, DaliDeviceRegistry.upsert, if_true]
      refine ⟨slot_of (fun other => ?_) fun other => hflag other false, by simp [slot, hr], rfl, rfl⟩
      have hinner := scan.registry.find_store raw other
        { address := .ofIndex raw, firstSeenUptimeMs := nowMs, lastSeenUptimeMs := nowMs }
      refine (DaliDeviceRegistry.find_store _ raw other _).trans ?_
      split_ifs with heq
      · rfl
      · rw [if_neg heq] at hinner
        exact hinner
  | some record =>
      by_cases hmissing : record.lifecycle = .missing
      · simp only [receive, h, hr, slot, Slot.observe, hmissing, decide_true, if_true]
        exact ⟨slot_of (fun other => scan.registry.find_store raw other _)
          fun other => hflag other false, by simp [slot, hr], rfl, rfl⟩
      · simp only [receive, h, hr, slot, Slot.observe, hmissing, decide_false, if_true, if_false]
        exact ⟨slot_of (fun other => scan.registry.find_store raw other _)
          fun other => hflag other false, by simp [slot, hr], rfl, rfl⟩

theorem receive_collision (h : isValidResponse result = false) (hc : result.outcome = .collision) :
    Writes scan (receive nowMs raw result scan) nowMs raw
      ((scan.slot raw).observe (.ofIndex raw) nowMs .collision) := by
  have hfind := scan.find_unchanged raw
  have hkept := scan.flag_unchanged raw
  have hset := SlotSweep.get_set scan.duplicateReported raw
  cases hr : scan.registry.find (.ofIndex raw) with
  | none =>
      rw [hr] at hfind
      cases hd : scan.duplicateReported.get raw with
      | false =>
          simp only [receive, h, hc, hr, hd, slot, Slot.observe, Option.map_none]
          exact ⟨slot_of hfind fun other => hset other true, by simp [slot, hr], rfl, rfl⟩
      | true =>
          have hsame : receive nowMs raw result scan = scan := by simp [receive, h, hc, hr, hd]
          have hobserved : (scan.slot raw).observe (.ofIndex raw) nowMs .collision =
              (scan.slot raw, none) := by simp [Slot.observe, slot, hr, hd]
          rw [hsame, hobserved]
          exact Writes.refl nowMs raw scan
  | some record =>
      have hstore := fun other => scan.registry.find_store raw other record.duplicated
      cases hd : scan.duplicateReported.get raw with
      | false =>
          simp only [receive, h, hc, hr, hd, slot, Slot.observe, Option.map_some]
          exact ⟨slot_of hstore fun other => hset other true, by simp [slot, hr], rfl, rfl⟩
      | true =>
          rw [hd] at hkept
          simp only [receive, h, hc, hr, hd, slot, Slot.observe, Option.map_some]
          exact ⟨slot_of hstore hkept, by simp [slot, hr], rfl, rfl⟩

theorem receive_busFailure (h : isValidResponse result = false) (hc : result.outcome ≠ .collision)
    (hb : isBusFailure result = true) :
    Writes scan (receive nowMs raw result scan) nowMs raw
      ((scan.slot raw).observe (.ofIndex raw) nowMs .busFailure) := by
  have hsame : receive nowMs raw result scan = scan := by
    cases hr : scan.registry.find (.ofIndex raw) <;> simp [receive, h, hc, hb, hr]
  rw [hsame]
  exact Writes.refl nowMs raw scan

theorem receive_silent (h : isValidResponse result = false) (hc : result.outcome ≠ .collision)
    (hb : isBusFailure result = false) :
    Writes scan (receive nowMs raw result scan) nowMs raw
      ((scan.slot raw).observe (.ofIndex raw) nowMs .silent) := by
  have hkept := scan.flag_unchanged raw
  cases hr : scan.registry.find (.ofIndex raw) with
  | none =>
      have hsame : receive nowMs raw result scan = scan := by simp [receive, h, hc, hr]
      have hobserved : (scan.slot raw).observe (.ofIndex raw) nowMs .silent =
          (scan.slot raw, none) := by simp [Slot.observe, slot, hr]
      rw [hsame, hobserved]
      exact Writes.refl nowMs raw scan
  | some record =>
      by_cases hmissing : record.lifecycle = .missing
      · have hsame : receive nowMs raw result scan = scan := by
          simp [receive, h, hc, hr, hmissing]
        have hobserved : (scan.slot raw).observe (.ofIndex raw) nowMs .silent =
            (scan.slot raw, none) := by simp [Slot.observe, slot, hr, hmissing]
        rw [hsame, hobserved]
        exact Writes.refl nowMs raw scan
      · have hmissed : record.missedOnce =
            if record.missedPresenceChecks < 3 then
              { record with missedPresenceChecks := record.missedPresenceChecks + 1 }
            else record := rfl
        by_cases hlost : record.missedOnce.missedPresenceChecks ≥ 3
        · simp only [receive, h, hc, hb, hr, hmissing, ← hmissed, hlost, slot, Slot.observe]
          exact ⟨slot_of (fun other => scan.registry.find_store raw other record.missedOnce.lost)
            hkept, by simp [slot, hr], rfl, rfl⟩
        · simp only [receive, h, hc, hb, hr, hmissing, ← hmissed, hlost, slot, Slot.observe]
          exact ⟨slot_of (fun other => scan.registry.find_store raw other record.missedOnce)
            hkept, by simp [slot, hr], rfl, rfl⟩

theorem receive_writes (result : DaliQueryResult) :
    Writes scan (receive nowMs raw result scan) nowMs raw
      ((scan.slot raw).observe (.ofIndex raw) nowMs (classify result)) := by
  rw [classify]
  cases h : isValidResponse result with
  | true => exact receive_answered nowMs raw scan h
  | false =>
      by_cases hc : result.outcome = .collision
      · rw [if_neg Bool.false_ne_true, if_pos hc]
        exact receive_collision nowMs raw scan h hc
      · rw [if_neg Bool.false_ne_true, if_neg hc]
        cases hb : isBusFailure result with
        | true => exact receive_busFailure nowMs raw scan h hc hb
        | false => exact receive_silent nowMs raw scan h hc hb

/-- What the loop body makes of the slot and of the batch at one address. -/
def visitSlot (nowMs : UInt64) (answers : ShortAddress → DaliQueryResult) (raw : Fin 64)
    (slot : Slot) : Slot × Option DiscoveryChange :=
  let observed := slot.observe (.ofIndex raw) nowMs (classify (answers (.ofIndex raw)))
  (observed.1, observed.2.map fun type => ⟨type, .ofIndex raw, nowMs⟩)

theorem receive_visits (nowMs : UInt64) (answers : ShortAddress → DaliQueryResult) :
    SlotSweep.Visits
      (fun (scan : PresenceScan σ) raw => receive nowMs raw (answers (.ofIndex raw)) scan)
      slot (fun scan => scan.batch.changes) 64 (visitSlot nowMs answers) where
  slot_self scan raw := by
    rw [(receive_writes nowMs raw scan (answers (.ofIndex raw))).slot_eq, if_pos rfl, visitSlot]
  slot_other scan raw other hne := by
    rw [(receive_writes nowMs raw scan (answers (.ofIndex raw))).slot_eq, if_neg (Ne.symm hne)]
  log_visit scan raw hroom := by
    rw [(receive_writes nowMs raw scan (answers (.ofIndex raw))).batch_eq, visitSlot]
    cases ((scan.slot raw).observe (.ofIndex raw) nowMs (classify (answers (.ofIndex raw)))).2 with
    | none => simp
    | some type => simpa using DiscoveryBatch.changes_add _ hroom

end PresenceScan

end DeviceManager

end DaliEdge
