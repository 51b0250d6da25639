import DaliEdge.Pipeline

/-!
# The device manager

A registry holds at most one record for each short address. A presence scan queries every
address once, in ascending order, and reports what changed. The flags that keep a duplicate
address from being reported twice live in a static array of the function, so they are passed
to each scan and returned from it; what a manager itself keeps is its registry.
-/

namespace DaliEdge

inductive DeviceLifecycle
  | unknown | present | missing | duplicateAddress
  deriving DecidableEq

inductive CapabilityState
  | unknown | supported | unsupported
  deriving DecidableEq

inductive CapabilityFeature
  | basicStatus | deviceType | version | physicalMinimum | energy | power | current
  | temperature | operatingHours | failureCounters | diagnostics | identification
  deriving DecidableEq

structure CapabilityEntry where
  state : CapabilityState := .unknown
  consecutiveNoResponses : ℕ := 0
  deriving DecidableEq

def CapabilityFeature.index : CapabilityFeature → Fin 12
  | .basicStatus => 0
  | .deviceType => 1
  | .version => 2
  | .physicalMinimum => 3
  | .energy => 4
  | .power => 5
  | .current => 6
  | .temperature => 7
  | .operatingHours => 8
  | .failureCounters => 9
  | .diagnostics => 10
  | .identification => 11

structure DaliCapabilityMap where
  entries : Vector CapabilityEntry 12 := Vector.replicate 12 {}
  deriving DecidableEq

structure DaliDeviceRecord where
  address : ShortAddress
  lifecycle : DeviceLifecycle := .unknown
  present : Bool := false
  missedPresenceChecks : ℕ := 0
  firstSeenUptimeMs : UInt64
  lastSeenUptimeMs : UInt64
  capabilities : DaliCapabilityMap := {}
  realtime : LightRealtimeData := { shortAddress := address.value }
  deviceType : Reading UInt8 := .initial 0
  version : Reading UInt8 := .initial 0
  physicalMinimum : Reading UInt8 := .initial 0
  deriving DecidableEq

inductive DiscoveryChangeType
  | deviceDiscovered | deviceMissing | deviceRecovered | duplicateAddressSuspected
  deriving DecidableEq

structure DiscoveryChange where
  type : DiscoveryChangeType
  address : ShortAddress
  uptimeMs : UInt64
  deriving DecidableEq

@[ext] structure DiscoveryBatch where
  changes : List DiscoveryChange
  length_le : changes.length ≤ 64

namespace DiscoveryBatch

def empty : DiscoveryBatch := ⟨[], by decide⟩

def add (batch : DiscoveryBatch) (change : DiscoveryChange) : Bool × DiscoveryBatch :=
  if h : batch.changes.length = 64 then (false, batch)
  else (true, ⟨batch.changes ++ [change], by
    have hle := batch.length_le
    rw [List.length_append, List.length_singleton]
    omega⟩)

theorem changes_add {batch : DiscoveryBatch} (change : DiscoveryChange)
    (h : batch.changes.length < 64) :
    (batch.add change).2.changes = batch.changes ++ [change] := by
  rw [add, dif_neg (by omega)]

end DiscoveryBatch

@[ext] structure DaliDeviceRegistry where
  records : Vector (Option DaliDeviceRecord) 64 := Vector.replicate 64 none
  count : ℕ := 0

namespace DaliDeviceRegistry

def find (registry : DaliDeviceRegistry) (address : ShortAddress) : Option DaliDeviceRecord :=
  registry.records.get address.index

/-- Store a record through the pointer that `find` returned. -/
def store (registry : DaliDeviceRegistry) (address : ShortAddress) (record : DaliDeviceRecord) :
    DaliDeviceRegistry :=
  { registry with records := registry.records.set address.index (some record) }

def upsert (registry : DaliDeviceRegistry) (address : ShortAddress) (nowMs : UInt64) :
    DaliDeviceRecord × DaliDeviceRegistry :=
  match registry.find address with
  | none =>
      let record : DaliDeviceRecord :=
        { address := address, firstSeenUptimeMs := nowMs, lastSeenUptimeMs := nowMs }
      (record, { registry.store address record with count := registry.count + 1 })
  | some slot =>
      let record := { slot with lastSeenUptimeMs := nowMs }
      (record, registry.store address record)

end DaliDeviceRegistry

namespace DeviceManager

def isValidResponse (result : DaliQueryResult) : Bool :=
  result.outcome = .ok && result.response.hasValue

def isBusFailure (result : DaliQueryResult) : Bool :=
  result.outcome = .busFailure || result.phyResult = .busPowerLost

/-- The loop of a presence scan between two addresses. -/
structure PresenceScan (σ : Type*) where
  batch : DiscoveryBatch
  duplicateReported : Vector Bool 64
  registry : DaliDeviceRegistry
  client : σ

namespace PresenceScan

variable {σ : Type*}

/-- The part of the loop body that follows the query. -/
def receive (nowMs : UInt64) (raw : Fin 64) (result : DaliQueryResult) (scan : PresenceScan σ) :
    PresenceScan σ :=
  let address := ShortAddress.ofIndex raw
  let record := scan.registry.find address
  if isValidResponse result then
    let scan := { scan with duplicateReported := scan.duplicateReported.set raw false }
    match record with
    | none =>
        let upserted := scan.registry.upsert address nowMs
        let record := { upserted.1 with
          lifecycle := .present
          present := true
          missedPresenceChecks := 0 }
        { scan with
          registry := upserted.2.store address record
          batch := (scan.batch.add ⟨.deviceDiscovered, address, nowMs⟩).2 }
    | some record =>
        let recovered := record.lifecycle = .missing
        let record := { record with
          lifecycle := .present
          present := true
          missedPresenceChecks := 0
          lastSeenUptimeMs := nowMs }
        let scan := { scan with registry := scan.registry.store address record }
        if recovered then
          { scan with batch := (scan.batch.add ⟨.deviceRecovered, address, nowMs⟩).2 }
        else scan
  else if result.outcome = .collision then
    let scan := match record with
      | none => scan
      | some record =>
          { scan with
            registry := scan.registry.store address { record with lifecycle := .duplicateAddress } }
    if !scan.duplicateReported.get raw then
      { scan with
        duplicateReported := scan.duplicateReported.set raw true
        batch := (scan.batch.add ⟨.duplicateAddressSuspected, address, nowMs⟩).2 }
    else scan
  else
    match record with
    | none => scan
    | some record =>
        if isBusFailure result || record.lifecycle = .missing then scan
        else
          let record := if record.missedPresenceChecks < 3 then
            { record with missedPresenceChecks := record.missedPresenceChecks + 1 } else record
          if record.missedPresenceChecks ≥ 3 then
            { scan with
              registry := scan.registry.store address
                { record with lifecycle := .missing, present := false }
              batch := (scan.batch.add ⟨.deviceMissing, address, nowMs⟩).2 }
          else { scan with registry := scan.registry.store address record }

def scanAddress (client : IDaliQueryClient σ) (nowMs : UInt64) (scan : PresenceScan σ)
    (raw : Fin 64) : PresenceScan σ :=
  let queried := client.query (.ofIndex raw) .queryControlGearPresent .high scan.client
  receive nowMs raw queried.1 { scan with client := queried.2 }

end PresenceScan

def scanPresence {σ : Type*} (client : IDaliQueryClient σ) (nowMs : UInt64)
    (duplicateReported : Vector Bool 64) (registry : DaliDeviceRegistry) (state : σ) :
    PresenceScan σ :=
  (List.finRange 64).foldl (PresenceScan.scanAddress client nowMs)
    ⟨.empty, duplicateReported, registry, state⟩

end DeviceManager

end DaliEdge
