import DaliEdge.RegistryInvariant

/-!
# The queries that a manager sends

A client is wrapped so that it also keeps a log of its queries. The wrapped client answers as
the client itself does, so what the manager does is not changed; a scan logs one presence query
for each address in ascending order, and a detection one query for each core feature that is
not unsupported.
-/

namespace DaliEdge

structure Query where
  address : ShortAddress
  command : DaliCommand
  priority : CommandPriority
  result : DaliQueryResult
  deriving DecidableEq

namespace DeviceManager

variable {σ : Type*} (client : IDaliQueryClient σ)

def logged : IDaliQueryClient (σ × List Query) where
  query address command priority s :=
    let r := client.query address command priority s.1
    (r.1, (r.2, s.2 ++ [⟨address, command, priority, r.1⟩]))

/-! ## Scans -/

/-- The presence queries of a scan over the addresses, with these answers. -/
def presenceQueries (answers : ShortAddress → DaliQueryResult) (raws : List (Fin 64)) :
    List Query :=
  raws.map fun raw =>
    ⟨.ofIndex raw, .queryControlGearPresent, .high, answers (.ofIndex raw)⟩

theorem poll_logged (raws : List (Fin 64)) (hnodup : raws.Nodup) (state : σ) (log : List Query) :
    poll (logged client) raws (state, log) = ((poll client raws state).1,
      ((poll client raws state).2, log ++ presenceQueries (poll client raws state).1 raws)) := by
  induction raws generalizing state log with
  | nil => rw [presenceQueries, List.map_nil, List.append_nil]; rfl
  | cons raw raws ih =>
      rw [List.nodup_cons] at hnodup
      have hquery : (logged client).query (.ofIndex raw) .queryControlGearPresent .high (state, log) =
          ((client.query (.ofIndex raw) .queryControlGearPresent .high state).1,
            (client.query (.ofIndex raw) .queryControlGearPresent .high state).2,
            log ++ [⟨.ofIndex raw, .queryControlGearPresent, .high,
              (client.query (.ofIndex raw) .queryControlGearPresent .high state).1⟩]) := rfl
      have hhead : (poll client (raw :: raws) state).1 (.ofIndex raw) =
          (client.query (.ofIndex raw) .queryControlGearPresent .high state).1 :=
        Function.update_self ..
      have hrest : presenceQueries (poll client (raw :: raws) state).1 raws = presenceQueries
          (poll client raws (client.query (.ofIndex raw) .queryControlGearPresent .high state).2).1
          raws := by
        refine List.map_congr_left fun other hother => ?_
        have hne : ShortAddress.ofIndex other ≠ .ofIndex raw := fun heq =>
          hnodup.1 (ShortAddress.ofIndex_injective heq ▸ hother)
        have htail := Function.update_of_ne hne
          (client.query (.ofIndex raw) .queryControlGearPresent .high state).1
          (poll client raws (client.query (.ofIndex raw) .queryControlGearPresent .high state).2).1
        exact congrArg _ htail
      have hlog : presenceQueries (poll client (raw :: raws) state).1 (raw :: raws) =
          ⟨.ofIndex raw, .queryControlGearPresent, .high,
              (client.query (.ofIndex raw) .queryControlGearPresent .high state).1⟩ ::
            presenceQueries (poll client raws
              (client.query (.ofIndex raw) .queryControlGearPresent .high state).2).1 raws := by
        rw [← hrest, ← hhead]
        rfl
      rw [hlog, poll, hquery]
      simp only
      rw [ih hnodup.2, List.append_assoc]
      rfl

def scanAnswers (state : σ) : ShortAddress → DaliQueryResult :=
  (poll client (List.finRange 64) state).1

theorem scanPresence_logged (nowMs : UInt64) (duplicateReported : Vector Bool 64)
    (registry : DaliDeviceRegistry) (state : σ) (log : List Query) :
    scanPresence (logged client) nowMs duplicateReported registry (state, log) =
      (scanPresence client nowMs duplicateReported registry state).withClient
        ((poll client (List.finRange 64) state).2,
          log ++ presenceQueries (scanAnswers client state) (List.finRange 64)) := by
  rw [scanPresence_eq_scripted, scanPresence_eq_scripted client,
    poll_logged client _ (List.nodup_finRange 64)]
  rfl

/-! ## Detections -/

/-- One of the probes of a detection. -/
structure CoreProbe where
  feature : CapabilityFeature
  command : DaliCommand
  destination : Option (Reading UInt8 → DaliDeviceRecord → DaliDeviceRecord)

def coreProbes : List CoreProbe :=
  [⟨.basicStatus, .queryStatus, none⟩,
    ⟨.deviceType, .queryDeviceType, some fun reading record => { record with deviceType := reading }⟩,
    ⟨.version, .queryVersionNumber, some fun reading record => { record with version := reading }⟩,
    ⟨.physicalMinimum, .queryPhysicalMinimum,
      some fun reading record => { record with physicalMinimum := reading }⟩]

/-- The query of a probe, unless its feature is unsupported. -/
def probeQuery (address : ShortAddress) (feature : CapabilityFeature) (command : DaliCommand)
    (probed : DaliDeviceRecord × σ) : List Query :=
  if (probed.1.capabilities.at feature).state = .unsupported then []
  else [⟨address, command, .high, (client.query address command .high probed.2).1⟩]

theorem probe_logged (address : ShortAddress) (nowMs : UInt64) (p : CoreProbe)
    (probed : DaliDeviceRecord × σ) (log : List Query) :
    probe (logged client) address nowMs p.feature p.command p.destination (probed.1, probed.2, log) =
      ((probe client address nowMs p.feature p.command p.destination probed).1,
        (probe client address nowMs p.feature p.command p.destination probed).2,
        log ++ probeQuery client address p.feature p.command probed) := by
  unfold probe probeQuery
  by_cases h : (probed.1.capabilities.at p.feature).state = .unsupported
  · simp only [if_pos h, List.append_nil]
  · simp only [if_neg h]
    rfl

/-- The queries of the probes, one after the other. -/
def probeQueries (address : ShortAddress) (nowMs : UInt64) :
    List CoreProbe → DaliDeviceRecord × σ → List Query
  | [], _ => []
  | p :: ps, probed =>
      probeQuery client address p.feature p.command probed ++ probeQueries address nowMs ps
        (probe client address nowMs p.feature p.command p.destination probed)

def probeAll (address : ShortAddress) (nowMs : UInt64) (ps : List CoreProbe)
    (probed : DaliDeviceRecord × σ) : DaliDeviceRecord × σ :=
  ps.foldl (fun probed p => probe client address nowMs p.feature p.command p.destination probed)
    probed

theorem probeCore_eq_probeAll (address : ShortAddress) (nowMs : UInt64)
    (probed : DaliDeviceRecord × σ) :
    probeCore client address nowMs probed = probeAll client address nowMs coreProbes probed := by
  simp only [probeCore, probeAll, coreProbes, List.foldl_cons, List.foldl_nil]

theorem probeAll_logged (address : ShortAddress) (nowMs : UInt64) (ps : List CoreProbe)
    (probed : DaliDeviceRecord × σ) (log : List Query) :
    probeAll (logged client) address nowMs ps (probed.1, probed.2, log) =
      ((probeAll client address nowMs ps probed).1, (probeAll client address nowMs ps probed).2,
        log ++ probeQueries client address nowMs ps probed) := by
  induction ps generalizing probed log with
  | nil => rw [probeQueries, List.append_nil]; rfl
  | cons p ps ih =>
      rw [probeAll, List.foldl_cons, probe_logged, probeQueries, ← List.append_assoc]
      exact ih _ _

theorem probeCore_logged (address : ShortAddress) (nowMs : UInt64) (record : DaliDeviceRecord)
    (state : σ) (log : List Query) :
    probeCore (logged client) address nowMs (record, state, log) =
      ((probeCore client address nowMs (record, state)).1,
        (probeCore client address nowMs (record, state)).2,
        log ++ probeQueries client address nowMs coreProbes (record, state)) := by
  rw [probeCore_eq_probeAll, probeCore_eq_probeAll]
  exact probeAll_logged client address nowMs coreProbes (record, state) log

def detectionQueries (address : ShortAddress) (nowMs : UInt64) (registry : DaliDeviceRegistry)
    (state : σ) : List Query :=
  match registry.find address with
  | none => []
  | some record => probeQueries client address nowMs coreProbes (record, state)

theorem detectCoreCapabilities_logged (address : ShortAddress) (nowMs : UInt64)
    (registry : DaliDeviceRegistry) (state : σ) (log : List Query) :
    let detected := detectCoreCapabilities client address nowMs registry state
    detectCoreCapabilities (logged client) address nowMs registry (state, log) =
      (detected.1, detected.2.1, detected.2.2,
        log ++ detectionQueries client address nowMs registry state) := by
  unfold detectCoreCapabilities detectionQueries
  cases registry.find address with
  | none => simp only [List.append_nil]
  | some record =>
      simp only [probeCore_logged]

/-! ## Operations -/

def ManagerState.unlogged (state : ManagerState σ) : ManagerState (σ × List Query) :=
  ⟨state.registry, state.duplicateReported, (state.client, [])⟩

def ManagerState.dropLog (state : ManagerState (σ × List Query)) : ManagerState σ :=
  ⟨state.registry, state.duplicateReported, state.client.1⟩

def ManagerOp.unlogged : ManagerOp σ → ManagerOp (σ × List Query)
  | .scanPresence nowMs => .scanPresence nowMs
  | .detectCoreCapabilities address nowMs => .detectCoreCapabilities address nowMs
  | .upsert address nowMs => .upsert address nowMs
  | .elsewhere duplicateReported client => .elsewhere duplicateReported (client, [])

/-- The queries that an operation sends: the log that it leaves. -/
def issued (state : ManagerState σ) (op : ManagerOp σ) : List Query :=
  ((managed (logged client)).step state.unlogged op.unlogged).1.client.2

theorem managed_logged (state : ManagerState σ) (op : ManagerOp σ) :
    ((managed (logged client)).step state.unlogged op.unlogged).1.dropLog =
        ((managed client).step state op).1 ∧
      ((managed (logged client)).step state.unlogged op.unlogged).2 =
        ((managed client).step state op).2 := by
  cases op with
  | scanPresence nowMs =>
      have hlogged := scanPresence_logged client nowMs state.duplicateReported state.registry
        state.client []
      have hclient := scanPresence_eq_scripted client nowMs state.duplicateReported state.registry
        state.client
      simp only [managed, ManagerState.unlogged, ManagerOp.unlogged, hlogged, hclient]
      exact ⟨rfl, rfl⟩
  | detectCoreCapabilities address nowMs =>
      have hlogged := detectCoreCapabilities_logged client address nowMs state.registry
        state.client []
      simp only [managed, ManagerState.unlogged, ManagerOp.unlogged, hlogged]
      exact ⟨rfl, trivial⟩
  | upsert address nowMs => exact ⟨rfl, rfl⟩
  | elsewhere duplicateReported client => exact ⟨rfl, rfl⟩

theorem issued_scanPresence (state : ManagerState σ) (nowMs : UInt64) :
    issued client state (.scanPresence nowMs) =
      presenceQueries (scanAnswers client state.client) (List.finRange 64) := by
  have hlogged := scanPresence_logged client nowMs state.duplicateReported state.registry
    state.client []
  simp only [issued, managed, ManagerState.unlogged, ManagerOp.unlogged, hlogged]
  exact List.nil_append _

theorem issued_detectCoreCapabilities (state : ManagerState σ) (address : ShortAddress)
    (nowMs : UInt64) : issued client state (.detectCoreCapabilities address nowMs) =
      detectionQueries client address nowMs state.registry state.client := by
  have hlogged := detectCoreCapabilities_logged client address nowMs state.registry state.client []
  simp only [issued, managed, ManagerState.unlogged, ManagerOp.unlogged, hlogged]
  exact List.nil_append _

theorem issued_upsert (state : ManagerState σ) (address : ShortAddress) (nowMs : UInt64) :
    issued client state (.upsert address nowMs) = [] := rfl

end DeviceManager

end DaliEdge
