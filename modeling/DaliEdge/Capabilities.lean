import DaliEdge.PresenceRuns

/-!
# Detection of core capabilities

The manager asks a registered device four queries, each of which decides one entry of the
capability map. A feature found unsupported is not asked again; a bus failure or a collision
decides nothing. Nothing of the record but the map and the readings of the answers changes.
-/

namespace DaliEdge

/-- What an unanswered query makes of an entry: the second in a row decides it. -/
def CapabilityEntry.unanswered (entry : CapabilityEntry) : CapabilityEntry :=
  let entry := if entry.consecutiveNoResponses < 2 then
    { entry with consecutiveNoResponses := entry.consecutiveNoResponses + 1 } else entry
  if entry.consecutiveNoResponses ≥ 2 then { entry with state := .unsupported } else entry

def DaliCapabilityMap.at (map : DaliCapabilityMap) (feature : CapabilityFeature) :
    CapabilityEntry := map.entries.get feature.index

namespace DaliCapabilityMap

variable (map : DaliCapabilityMap)

/-- Write an entry through the reference that `at` returned. -/
def set (feature : CapabilityFeature) (entry : CapabilityEntry) : DaliCapabilityMap where
  entries := map.entries.set feature.index entry

theorem at_set (feature other : CapabilityFeature) (entry : CapabilityEntry) :
    (map.set feature entry).at other =
      if feature.index = other.index then entry else map.at other :=
  SlotSweep.get_set map.entries feature.index other.index entry

theorem at_initial (feature : CapabilityFeature) : ({} : DaliCapabilityMap).at feature = {} := by
  cases feature <;> rfl

end DaliCapabilityMap

namespace DeviceManager

variable {σ : Type*}

/-- The part of a probe that follows the query. A destination is the field that it points to,
as the function that writes it. -/
def receiveProbe (nowMs : UInt64) (feature : CapabilityFeature)
    (destination : Option (Reading UInt8 → DaliDeviceRecord → DaliDeviceRecord))
    (result : DaliQueryResult) (record : DaliDeviceRecord) : DaliDeviceRecord :=
  if isValidResponse result then
    let record := { record with capabilities := record.capabilities.set feature ⟨.supported, 0⟩ }
    match destination with
    | none => record
    | some write => write (.valid result.response.value nowMs 0) record
  else if isBusFailure result || result.outcome = .collision then record
  else
    let entry := record.capabilities.at feature
    { record with capabilities := record.capabilities.set feature entry.unanswered }

def probe (client : IDaliQueryClient σ) (address : ShortAddress) (nowMs : UInt64)
    (feature : CapabilityFeature) (command : DaliCommand)
    (destination : Option (Reading UInt8 → DaliDeviceRecord → DaliDeviceRecord))
    (probed : DaliDeviceRecord × σ) : DaliDeviceRecord × σ :=
  if (probed.1.capabilities.at feature).state = .unsupported then probed
  else
    let queried := client.query address command .high probed.2
    (receiveProbe nowMs feature destination queried.1 probed.1, queried.2)

/-- The four probes of a device, in the order of the source. -/
def probeCore (client : IDaliQueryClient σ) (address : ShortAddress) (nowMs : UInt64)
    (probed : DaliDeviceRecord × σ) : DaliDeviceRecord × σ :=
  let probed := probe client address nowMs .basicStatus .queryStatus none probed
  let probed := probe client address nowMs .deviceType .queryDeviceType
    (some fun reading record => { record with deviceType := reading }) probed
  let probed := probe client address nowMs .version .queryVersionNumber
    (some fun reading record => { record with version := reading }) probed
  probe client address nowMs .physicalMinimum .queryPhysicalMinimum
    (some fun reading record => { record with physicalMinimum := reading }) probed

def detectCoreCapabilities (client : IDaliQueryClient σ) (address : ShortAddress) (nowMs : UInt64)
    (registry : DaliDeviceRegistry) (state : σ) : DiscoveryBatch × DaliDeviceRegistry × σ :=
  match registry.find address with
  | none => (.empty, registry, state)
  | some record =>
      let probed := probeCore client address nowMs (record, state)
      (.empty, registry.store address probed.1, probed.2)

end DeviceManager

/-- An entry is unsupported once its feature went unanswered twice in a row. -/
structure CapabilityEntry.Sound (entry : CapabilityEntry) : Prop where
  unsupported_iff : entry.state = .unsupported ↔ entry.consecutiveNoResponses = 2
  consecutive_le : entry.consecutiveNoResponses ≤ 2

def DaliCapabilityMap.Sound (map : DaliCapabilityMap) : Prop := ∀ feature, (map.at feature).Sound

theorem CapabilityEntry.sound_supported : (⟨.supported, 0⟩ : CapabilityEntry).Sound :=
  ⟨by decide, by decide⟩

theorem CapabilityEntry.Sound.unanswered {entry : CapabilityEntry} (h : entry.Sound)
    (hstate : entry.state ≠ .unsupported) : entry.unanswered.Sound := by
  have hne : entry.consecutiveNoResponses ≠ 2 := mt h.unsupported_iff.2 hstate
  have hlt : entry.consecutiveNoResponses < 2 := lt_of_le_of_ne h.consecutive_le hne
  rw [CapabilityEntry.unanswered, if_pos hlt]
  by_cases htwice : entry.consecutiveNoResponses + 1 ≥ 2
  · have htwo : entry.consecutiveNoResponses + 1 = 2 := by omega
    rw [if_pos htwice]
    exact ⟨iff_of_true rfl htwo, htwo.le⟩
  · have hone : entry.consecutiveNoResponses + 1 < 2 := not_le.1 htwice
    rw [if_neg htwice]
    exact ⟨iff_of_false hstate hone.ne, hone.le⟩

namespace DaliCapabilityMap.Sound

variable {map : DaliCapabilityMap}

theorem initial : ({} : DaliCapabilityMap).Sound := by
  intro feature
  rw [at_initial]
  exact ⟨by decide, by decide⟩

theorem set (h : map.Sound) (feature : CapabilityFeature) {entry : CapabilityEntry}
    (hentry : entry.Sound) : (map.set feature entry).Sound := by
  intro other
  rw [at_set]
  split_ifs
  · exact hentry
  · exact h other

end DaliCapabilityMap.Sound

/-- The record differs from an earlier one in its capabilities and in what the probes read. -/
structure DaliDeviceRecord.SameDevice (record later : DaliDeviceRecord) : Prop where
  address_eq : later.address = record.address
  lifecycle_eq : later.lifecycle = record.lifecycle
  present_eq : later.present = record.present
  missedPresenceChecks_eq : later.missedPresenceChecks = record.missedPresenceChecks
  firstSeen_eq : later.firstSeenUptimeMs = record.firstSeenUptimeMs
  lastSeen_eq : later.lastSeenUptimeMs = record.lastSeenUptimeMs
  sound : record.capabilities.Sound → later.capabilities.Sound

namespace DaliDeviceRecord.SameDevice

variable {record later latest : DaliDeviceRecord}

theorem refl (record : DaliDeviceRecord) : record.SameDevice record :=
  ⟨rfl, rfl, rfl, rfl, rfl, rfl, id⟩

theorem trans (h : record.SameDevice later) (h' : later.SameDevice latest) :
    record.SameDevice latest where
  address_eq := h'.address_eq.trans h.address_eq
  lifecycle_eq := h'.lifecycle_eq.trans h.lifecycle_eq
  present_eq := h'.present_eq.trans h.present_eq
  missedPresenceChecks_eq := h'.missedPresenceChecks_eq.trans h.missedPresenceChecks_eq
  firstSeen_eq := h'.firstSeen_eq.trans h.firstSeen_eq
  lastSeen_eq := h'.lastSeen_eq.trans h.lastSeen_eq
  sound := h'.sound ∘ h.sound

theorem of_set (record : DaliDeviceRecord) (feature : CapabilityFeature) (entry : CapabilityEntry)
    (h : record.capabilities.Sound → entry.Sound) :
    record.SameDevice { record with capabilities := record.capabilities.set feature entry } :=
  ⟨rfl, rfl, rfl, rfl, rfl, rfl, fun hs => hs.set feature (h hs)⟩

end DaliDeviceRecord.SameDevice

namespace DeviceManager

open DaliDeviceRecord

variable {σ : Type*} (client : IDaliQueryClient σ) (address : ShortAddress) (nowMs : UInt64)
  (feature : CapabilityFeature)
  {destination : Option (Reading UInt8 → DaliDeviceRecord → DaliDeviceRecord)}

theorem receiveProbe_sameDevice
    (hwrite : ∀ write ∈ destination, ∀ reading record, SameDevice record (write reading record))
    (result : DaliQueryResult) {record : DaliDeviceRecord}
    (hstate : (record.capabilities.at feature).state ≠ .unsupported) :
    record.SameDevice (receiveProbe nowMs feature destination result record) := by
  rw [receiveProbe]
  by_cases hvalid : isValidResponse result = true
  · have hset := SameDevice.of_set record feature ⟨.supported, 0⟩ fun _ =>
      CapabilityEntry.sound_supported
    rw [if_pos hvalid]
    cases hd : destination with
    | none => exact hset
    | some write => exact hset.trans (hwrite write hd _ _)
  · rw [if_neg hvalid]
    by_cases hbus : (isBusFailure result || result.outcome = .collision) = true
    · rw [if_pos hbus]
      exact SameDevice.refl record
    · rw [if_neg hbus]
      exact SameDevice.of_set record feature _ fun hs => (hs feature).unanswered hstate

theorem probe_sameDevice (command : DaliCommand)
    (hwrite : ∀ write ∈ destination, ∀ reading record, SameDevice record (write reading record))
    (probed : DaliDeviceRecord × σ) :
    probed.1.SameDevice (probe client address nowMs feature command destination probed).1 := by
  rw [probe]
  split_ifs with hstate
  · exact SameDevice.refl probed.1
  · exact receiveProbe_sameDevice nowMs feature hwrite _ hstate

theorem probeCore_sameDevice (probed : DaliDeviceRecord × σ) :
    probed.1.SameDevice (probeCore client address nowMs probed).1 := by
  rw [probeCore]
  refine SameDevice.trans ?_ (probe_sameDevice client address nowMs .physicalMinimum _ ?_ _)
  · refine SameDevice.trans ?_ (probe_sameDevice client address nowMs .version _ ?_ _)
    · refine SameDevice.trans ?_ (probe_sameDevice client address nowMs .deviceType _ ?_ _)
      · refine probe_sameDevice client address nowMs .basicStatus _ ?_ probed
        rintro write ⟨⟩
      · rintro write ⟨⟩ reading record
        exact ⟨rfl, rfl, rfl, rfl, rfl, rfl, id⟩
    · rintro write ⟨⟩ reading record
      exact ⟨rfl, rfl, rfl, rfl, rfl, rfl, id⟩
  · rintro write ⟨⟩ reading record
    exact ⟨rfl, rfl, rfl, rfl, rfl, rfl, id⟩

end DeviceManager

end DaliEdge
