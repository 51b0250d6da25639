import DaliEdge.ScanSlots
import Mathlib.Data.List.ReduceOption

/-!
# Runs of presence scans

One manager alone in its process, scanned again and again with arbitrary answers. At every
address the run is a run of the slot machine of that address. A scan through any query client
is one of these, with the answers that the client gave.
-/

namespace DaliEdge

namespace DeviceManager

/-- A query client that reads its answers from a table. -/
def scripted (answers : ShortAddress → DaliQueryResult) : IDaliQueryClient Unit where
  query address _ _ _ := (answers address, ())

/-! ## Any client -/

section AnyClient

variable {σ τ : Type*} (client : IDaliQueryClient σ)

/-- The answers that a client gives when it is queried in the order of the scan. -/
def poll : List (Fin 64) → σ → (ShortAddress → DaliQueryResult) × σ
  | [], state => (fun _ => {}, state)
  | raw :: raws, state =>
      let queried := client.query (.ofIndex raw) .queryControlGearPresent .high state
      let rest := poll raws queried.2
      (Function.update rest.1 (.ofIndex raw) queried.1, rest.2)

namespace PresenceScan

def withClient (scan : PresenceScan σ) (state : τ) : PresenceScan τ where
  batch := scan.batch
  duplicateReported := scan.duplicateReported
  registry := scan.registry
  client := state

theorem receive_withClient (nowMs : UInt64) (raw : Fin 64) (result : DaliQueryResult)
    (scan : PresenceScan σ) (state : τ) :
    receive nowMs raw result (scan.withClient state) =
      (receive nowMs raw result scan).withClient state := by
  rcases Option.eq_none_or_eq_some (scan.registry.find (.ofIndex raw)) with hr | ⟨record, hr⟩
  · simp only [receive, withClient, hr]
    split
    · rfl
    · split
      · split <;> rfl
      · rfl
  · simp only [receive, withClient, hr]
    split
    · split <;> rfl
    · split
      · split <;> rfl
      · split
        · rfl
        · by_cases hmissed : record.missedPresenceChecks < 3
          · simp only [if_pos hmissed]
            split <;> rfl
          · simp only [if_neg hmissed]
            split <;> rfl

end PresenceScan

theorem scanAddress_eq (nowMs : UInt64) (scan : PresenceScan σ) (raw : Fin 64) :
    PresenceScan.scanAddress client nowMs scan raw =
      (PresenceScan.receive nowMs raw
        (client.query (.ofIndex raw) .queryControlGearPresent .high scan.client).1 scan).withClient
          (client.query (.ofIndex raw) .queryControlGearPresent .high scan.client).2 :=
  PresenceScan.receive_withClient nowMs raw _ scan _

theorem foldl_scanAddress (nowMs : UInt64) (raws : List (Fin 64)) (hnodup : raws.Nodup)
    (scan : PresenceScan σ) (answers : ShortAddress → DaliQueryResult)
    (hanswers : ∀ raw ∈ raws, answers (.ofIndex raw) =
      (poll client raws scan.client).1 (.ofIndex raw)) :
    raws.foldl (PresenceScan.scanAddress client nowMs) scan =
      (raws.foldl (PresenceScan.scanAddress (scripted answers) nowMs)
        (scan.withClient ())).withClient (poll client raws scan.client).2 := by
  induction raws generalizing scan with
  | nil => rfl
  | cons raw raws ih =>
      rw [List.nodup_cons] at hnodup
      have hhead : answers (.ofIndex raw) =
          (client.query (.ofIndex raw) .queryControlGearPresent .high scan.client).1 := by
        rw [hanswers raw List.mem_cons_self]
        exact Function.update_self ..
      have htail : ∀ other ∈ raws, answers (.ofIndex other) = (poll client raws
          (client.query (.ofIndex raw) .queryControlGearPresent .high scan.client).2).1
            (.ofIndex other) := by
        intro other hother
        have hne : ShortAddress.ofIndex other ≠ .ofIndex raw := fun heq =>
          hnodup.1 (ShortAddress.ofIndex_injective heq ▸ hother)
        rw [hanswers other (List.mem_cons_of_mem _ hother)]
        exact Function.update_of_ne hne ..
      rw [List.foldl_cons, List.foldl_cons, scanAddress_eq, scanAddress_eq, ← hhead,
        ih hnodup.2 _ htail, PresenceScan.receive_withClient]
      rfl

theorem scanPresence_eq_scripted (nowMs : UInt64) (duplicateReported : Vector Bool 64)
    (registry : DaliDeviceRegistry) (state : σ) :
    scanPresence client nowMs duplicateReported registry state =
      (scanPresence (scripted (poll client (List.finRange 64) state).1) nowMs duplicateReported
        registry ()).withClient (poll client (List.finRange 64) state).2 :=
  foldl_scanAddress client nowMs _ (List.nodup_finRange 64) ⟨.empty, duplicateReported, registry, state⟩ _
    fun _ _ => rfl

end AnyClient

/-! ## The slot machines -/

/-- The time of a scan and how each query of it ends. -/
structure Scan where
  nowMs : UInt64
  answers : ShortAddress → DaliQueryResult

def Scan.outcome (scan : Scan) (address : ShortAddress) : ScanOutcome :=
  classify (scan.answers address)

/-- The registry of a manager and the flags of its process. -/
structure PresenceState where
  registry : DaliDeviceRegistry := {}
  duplicateReported : Vector Bool 64 := Vector.replicate 64 false

def PresenceState.slot (state : PresenceState) (address : ShortAddress) : Slot :=
  ⟨state.registry.find address, state.duplicateReported.get address.index⟩

theorem PresenceState.slot_of_find {state : PresenceState} {address : ShortAddress}
    {record : DaliDeviceRecord} (h : state.registry.find address = some record) :
    state.slot address = ⟨some record, (state.slot address).reported⟩ := by
  rw [← h]
  rfl

def presence : Machine PresenceState Scan DiscoveryBatch where
  step state scan :=
    let r := scanPresence (scripted scan.answers) scan.nowMs state.duplicateReported state.registry ()
    (⟨r.registry, r.duplicateReported⟩, r.batch)

theorem presence_step (state : PresenceState) (scan : Scan) :
    presence.step state scan =
      (⟨(scanPresence (scripted scan.answers) scan.nowMs state.duplicateReported
          state.registry ()).registry,
        (scanPresence (scripted scan.answers) scan.nowMs state.duplicateReported
          state.registry ()).duplicateReported⟩,
        (scanPresence (scripted scan.answers) scan.nowMs state.duplicateReported
          state.registry ()).batch) := rfl

def slotMachine (address : ShortAddress) : Machine Slot Scan (Option DiscoveryChangeType) where
  step slot scan := slot.observe address scan.nowMs (scan.outcome address)

end DeviceManager

/-- The types of the changes that a batch reports for an address, in order. -/
def DiscoveryBatch.changesAt (batch : DiscoveryBatch) (address : ShortAddress) :
    List DiscoveryChangeType :=
  (batch.changes.filter fun change => change.address = address).map (·.type)

namespace DeviceManager

/-- A scan whose answers are known is a sweep of the slots. -/
theorem scanPresence_scripted (answers : ShortAddress → DaliQueryResult) (nowMs : UInt64)
    (duplicateReported : Vector Bool 64) (registry : DaliDeviceRegistry) :
    let start : PresenceScan Unit := ⟨.empty, duplicateReported, registry, ()⟩
    let scan := scanPresence (scripted answers) nowMs duplicateReported registry ()
    (∀ raw, scan.slot raw = (PresenceScan.visitSlot nowMs answers raw (start.slot raw)).1) ∧
      scan.batch.changes = (List.finRange 64).filterMap fun raw =>
        (PresenceScan.visitSlot nowMs answers raw (start.slot raw)).2 := by
  intro start scan
  have hvisits := PresenceScan.receive_visits (σ := Unit) nowMs answers
  refine ⟨fun raw => ?_, ?_⟩
  · exact SlotSweep.slot_foldl hvisits _ (List.nodup_finRange 64) start raw (List.mem_finRange raw)
  · exact SlotSweep.log_foldl hvisits _ (List.nodup_finRange 64) start
      (by simp [start, DiscoveryBatch.empty])

theorem slot_presence_step (state : PresenceState) (scan : Scan) (address : ShortAddress) :
    (presence.step state scan).1.slot address =
      ((slotMachine address).step (state.slot address) scan).1 := by
  have hslot := (scanPresence_scripted scan.answers scan.nowMs state.duplicateReported
    state.registry).1 address.index
  simp only [PresenceScan.visitSlot, PresenceScan.slot, ShortAddress.ofIndex_index] at hslot
  exact hslot

theorem changes_presence_step (state : PresenceState) (scan : Scan) :
    (presence.step state scan).2.changes = (List.finRange 64).filterMap fun raw =>
      ((slotMachine (.ofIndex raw)).step (state.slot (.ofIndex raw)) scan).2.map
        fun type => ⟨type, .ofIndex raw, scan.nowMs⟩ := by
  have hchanges := (scanPresence_scripted scan.answers scan.nowMs state.duplicateReported
    state.registry).2
  refine hchanges.trans (List.filterMap_congr fun raw _ => ?_)
  simp only [PresenceScan.visitSlot, PresenceScan.slot, slotMachine, PresenceState.slot,
    ShortAddress.index_ofIndex]
  rfl

theorem changesAt_presence_step (state : PresenceState) (scan : Scan) (address : ShortAddress) :
    (presence.step state scan).2.changesAt address =
      ((slotMachine address).step (state.slot address) scan).2.toList := by
  have hfilter := SlotSweep.filter_filterMap (fun raw : Fin 64 =>
      ((slotMachine (.ofIndex raw)).step (state.slot (.ofIndex raw)) scan).2.map
        fun type => (⟨type, .ofIndex raw, scan.nowMs⟩ : DiscoveryChange))
    (fun change => change.address.index) ?_ _ (List.nodup_finRange 64) address.index
    (List.mem_finRange _)
  · have hkey : ∀ change : DiscoveryChange,
        (change.address.index = address.index) = (change.address = address) := fun change =>
      propext ShortAddress.index_injective.eq_iff
    simp only [hkey, ShortAddress.ofIndex_index] at hfilter
    rw [DiscoveryBatch.changesAt, changes_presence_step, hfilter, Option.toList_map, List.map_map]
    exact List.map_id _
  · intro raw change hchange
    obtain ⟨type, -, rfl⟩ := Option.map_eq_some_iff.1 hchange
    exact ShortAddress.index_ofIndex raw

theorem slot_presence_after (state : PresenceState) (scans : List Scan) (address : ShortAddress) :
    (presence.after state scans).slot address =
      (slotMachine address).after (state.slot address) scans :=
  Machine.after_project (π := fun s : PresenceState => s.slot address)
    (fun s scan => slot_presence_step s scan address) state scans

/-- The types of all changes that a run of scans reports for an address. -/
def reportsAt (state : PresenceState) (scans : List Scan) (address : ShortAddress) :
    List DiscoveryChangeType :=
  (presence.outputs state scans).flatMap fun batch => batch.changesAt address

theorem reportsAt_eq (state : PresenceState) (scans : List Scan) (address : ShortAddress) :
    reportsAt state scans address =
      ((slotMachine address).outputs (state.slot address) scans).reduceOption := by
  have hmap := Machine.outputs_project (π := fun s : PresenceState => s.slot address)
    (f := fun batch => batch.changesAt address) (g := Option.toList)
    (fun s scan => slot_presence_step s scan address)
    (fun s scan => changesAt_presence_step s scan address) state scans
  rw [reportsAt, List.flatMap_def, hmap, ← List.flatMap_def, List.reduceOption,
    List.filterMap_eq_flatMap_toList]
  rfl

theorem reportsAt_snoc (state : PresenceState) (scans : List Scan) (scan : Scan)
    (address : ShortAddress) :
    reportsAt state (scans ++ [scan]) address = reportsAt state scans address ++
      (((presence.after state scans).slot address).observe address scan.nowMs
        (scan.outcome address)).2.toList := by
  rw [reportsAt_eq, reportsAt_eq, Machine.outputs_snoc, List.reduceOption_append,
    List.reduceOption_singleton, slot_presence_after]
  rfl

theorem slot_after_snoc (state : PresenceState) (scans : List Scan) (scan : Scan)
    (address : ShortAddress) :
    (presence.after state (scans ++ [scan])).slot address =
      (((presence.after state scans).slot address).observe address scan.nowMs
        (scan.outcome address)).1 := by
  rw [Machine.after_snoc, slot_presence_step]
  rfl

@[simp] theorem slot_initial (address : ShortAddress) :
    ({} : PresenceState).slot address = ⟨none, false⟩ := by
  have hrecord : ({} : PresenceState).registry.find address = none :=
    Vector.getElem_replicate address.index.isLt
  have hflag : ({} : PresenceState).duplicateReported.get address.index = false :=
    Vector.getElem_replicate address.index.isLt
  rw [PresenceState.slot, hrecord, hflag]

theorem classify_eq_collision_iff (result : DaliQueryResult) :
    classify result = .collision ↔ result.outcome = .collision := by
  constructor
  · intro h
    by_contra hc
    rw [classify, if_neg hc] at h
    split at h
    · cases h
    · split at h <;> cases h
  · intro hc
    have hvalid : isValidResponse result = false := by simp [isValidResponse, hc]
    rw [classify, hvalid, if_neg Bool.false_ne_true, if_pos hc]

/-! ## Scans with one answer everywhere -/

def answeredScan : Scan := ⟨0, fun _ => ⟨.ok, .valid 0xFF 0 0, 1, .ok⟩⟩

def collisionScan : Scan := ⟨0, fun _ => ⟨.collision, .temporarilyUnavailable 0, 4, .collision⟩⟩

def silentScan : Scan := ⟨0, fun _ => ⟨.noResponse, .temporarilyUnavailable 0, 4, .timeout⟩⟩

@[simp] theorem outcome_answeredScan (address : ShortAddress) :
    answeredScan.outcome address = .answered := rfl

@[simp] theorem outcome_collisionScan (address : ShortAddress) :
    collisionScan.outcome address = .collision := rfl

@[simp] theorem outcome_silentScan (address : ShortAddress) :
    silentScan.outcome address = .silent := rfl

end DeviceManager

end DaliEdge
