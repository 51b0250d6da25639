import DaliEdge.CapabilityRuns

/-!
# What is read of a device

Three of the probes fill a reading of the record with the value of the answer and the time of the
detection. Nothing else writes these readings, and nothing takes them back: a reading is the latest
valid answer to its query, even after the device went missing or its feature was disabled.
-/

namespace DaliEdge

namespace DeviceManager

/-- A reading that a probe fills. -/
inductive CoreReading
  | deviceType | version | physicalMinimum
  deriving DecidableEq

namespace CoreReading

def of : CoreReading → DaliDeviceRecord → Reading UInt8
  | deviceType, record => record.deviceType
  | version, record => record.version
  | physicalMinimum, record => record.physicalMinimum

def probe : CoreReading → CoreProbe
  | deviceType => ⟨.deviceType, .queryDeviceType,
      some fun reading record => { record with deviceType := reading }⟩
  | version => ⟨.version, .queryVersionNumber,
      some fun reading record => { record with version := reading }⟩
  | physicalMinimum => ⟨.physicalMinimum, .queryPhysicalMinimum,
      some fun reading record => { record with physicalMinimum := reading }⟩

end CoreReading

variable {σ : Type*} (client : IDaliQueryClient σ) (r : CoreReading)

def taken (nowMs : UInt64) (result : DaliQueryResult) : Option (Reading UInt8) :=
  if isValidResponse result then some (.valid result.response.value nowMs 0) else none

theorem probe_mem_coreProbes : r.probe ∈ coreProbes := by
  cases r <;> simp [coreProbes, CoreReading.probe]

/-! ## Probes -/

theorem of_receiveProbe (nowMs : UInt64) {p : CoreProbe} (hp : p ∈ coreProbes)
    (result : DaliQueryResult) (record : DaliDeviceRecord) :
    r.of (receiveProbe nowMs p.feature p.destination result record) =
      if p.command = r.probe.command then (taken nowMs result).getD (r.of record)
      else r.of record := by
  simp only [coreProbes, List.mem_cons, List.not_mem_nil, or_false] at hp
  unfold receiveProbe taken
  by_cases hvalid : isValidResponse result = true
  · simp only [if_pos hvalid]
    rcases hp with rfl | rfl | rfl | rfl <;> cases r <;> rfl
  · simp only [if_neg hvalid]
    rw [Option.getD_none, ite_self]
    split_ifs <;> cases r <;> rfl

theorem of_probe (address : ShortAddress) (nowMs : UInt64) {p : CoreProbe} (hp : p ∈ coreProbes)
    (probed : DaliDeviceRecord × σ) :
    r.of (probe client address nowMs p.feature p.command p.destination probed).1 =
      (History.latest (taken nowMs) (answersFrom address r.probe.command
        (probeQuery client address p.feature p.command probed))).getD (r.of probed.1) := by
  rw [answersFrom_probeQuery]
  unfold probe probeQuery
  by_cases h : (probed.1.capabilities.at p.feature).state = .unsupported
  · rw [if_pos h, if_pos h, List.map_nil, ite_self]
    rfl
  · rw [if_neg h, if_neg h, of_receiveProbe r nowMs hp]
    by_cases hcommand : p.command = r.probe.command
    · rw [if_pos hcommand, if_pos hcommand, List.map_singleton, History.latest_singleton]
    · rw [if_neg hcommand, if_neg hcommand]
      rfl

theorem of_probeAll (address : ShortAddress) (nowMs : UInt64) (ps : List CoreProbe)
    (hps : ps ⊆ coreProbes) (probed : DaliDeviceRecord × σ) :
    r.of (probeAll client address nowMs ps probed).1 =
      (History.latest (taken nowMs) (answersFrom address r.probe.command
        (probeQueries client address nowMs ps probed))).getD (r.of probed.1) := by
  induction ps generalizing probed with
  | nil => rfl
  | cons p ps ih =>
      rw [List.cons_subset] at hps
      have hrest := ih hps.2 (probe client address nowMs p.feature p.command p.destination probed)
      rw [of_probe client r address nowMs hps.1, ← Option.getD_or] at hrest
      rw [probeQueries, answersFrom_append, History.latest_append]
      exact hrest

/-! ## Operations -/

/-- The reading of the device at an address, which may have no record yet. -/
def CoreReading.read (record : Option DaliDeviceRecord) : Reading UInt8 :=
  record.elim (.initial 0) r.of

def CoreReading.at (state : ManagerState σ) (address : ShortAddress) : Reading UInt8 :=
  r.read (state.registry.find address)

theorem read_observe (slot : Slot) (address : ShortAddress) (nowMs : UInt64)
    (outcome : ScanOutcome) :
    r.read (slot.observe address nowMs outcome).1.record = r.read slot.record := by
  obtain ⟨record, reported⟩ := slot
  cases record with
  | none =>
      cases outcome with
      | answered => cases r <;> rfl
      | collision | busFailure | silent => rfl
  | some record =>
      cases outcome with
      | answered | collision | busFailure => cases r <;> rfl
      | silent =>
          simp only [Slot.observe]
          rw [record.missedOnce_eq]
          split_ifs <;> cases r <;> rfl

theorem at_scanPresence (state : ManagerState σ) (nowMs : UInt64) (address : ShortAddress) :
    r.at ((managed client).step state (.scanPresence nowMs)).1 address = r.at state address := by
  have hslot := (scanPresence_scripted (scanAnswers client state.client) nowMs
    state.duplicateReported state.registry).1 address.index
  have hrecord := congrArg Slot.record hslot
  simp only [PresenceScan.visitSlot, PresenceScan.slot, ShortAddress.ofIndex_index] at hrecord
  simp only [managed, CoreReading.at]
  rw [scanPresence_eq_scripted]
  change r.read ((scanPresence (scripted (scanAnswers client state.client)) nowMs
    state.duplicateReported state.registry ()).registry.find address) = _
  rw [hrecord]
  exact read_observe r _ _ _ _

theorem at_upsert (state : ManagerState σ) (other : ShortAddress) (nowMs : UInt64)
    (address : ShortAddress) :
    r.at ((managed client).step state (.upsert other nowMs)).1 address = r.at state address := by
  obtain ⟨raw, rfl⟩ := ShortAddress.ofIndex_surjective other
  obtain ⟨raw', rfl⟩ := ShortAddress.ofIndex_surjective address
  simp only [managed, CoreReading.at, DaliDeviceRegistry.upsert]
  cases hfound : state.registry.find (.ofIndex raw) with
  | none =>
      change r.read ((state.registry.store (.ofIndex raw) _).find _) = _
      rw [DaliDeviceRegistry.find_store]
      split_ifs with h
      · subst h
        rw [hfound]
        cases r <;> rfl
      · rfl
  | some record =>
      change r.read ((state.registry.store (.ofIndex raw) _).find _) = _
      rw [DaliDeviceRegistry.find_store]
      split_ifs with h
      · subst h
        rw [hfound]
        cases r <;> rfl
      · rfl

/-- The reading that an operation gets for a device: the latest valid answer to its query. -/
def CoreReading.heard (address : ShortAddress) (state : ManagerState σ) :
    ManagerOp σ → Option (Reading UInt8)
  | .detectCoreCapabilities other nowMs => History.latest (taken nowMs)
      (answersFrom address r.probe.command
        (issued client state (.detectCoreCapabilities other nowMs)))
  | _ => none

/-- An operation writes the readings that it gets. -/
theorem at_step (state : ManagerState σ) (op : ManagerOp σ) (address : ShortAddress) :
    r.at ((managed client).step state op).1 address =
      (r.heard client address state op).getD (r.at state address) := by
  cases op with
  | scanPresence nowMs => exact at_scanPresence client r state nowMs address
  | upsert other nowMs => exact at_upsert client r state other nowMs address
  | elsewhere duplicateReported other => rfl
  | detectCoreCapabilities other nowMs =>
      rw [CoreReading.heard]
      by_cases h : other = address
      · subst h
        rw [issued_detectCoreCapabilities, detectionQueries]
        cases hfound : state.registry.find other with
        | none =>
            simp only [managed, CoreReading.at, detectCoreCapabilities, hfound]
            rfl
        | some record =>
            have hprobes := of_probeAll client r other nowMs coreProbes (List.Subset.refl _)
              (record, state.client)
            obtain ⟨raw, rfl⟩ := ShortAddress.ofIndex_surjective other
            simp only [managed, CoreReading.at, detectCoreCapabilities, hfound]
            rw [DaliDeviceRegistry.find_store, if_pos rfl, probeCore_eq_probeAll]
            exact hprobes
      · rw [answersFrom_issued_eq_nil client state _ address (probe_mem_coreProbes r)
          fun nowMs heq => h (by cases heq; rfl)]
        obtain ⟨raw, rfl⟩ := ShortAddress.ofIndex_surjective other
        obtain ⟨raw', rfl⟩ := ShortAddress.ofIndex_surjective address
        simp only [managed, CoreReading.at, detectCoreCapabilities]
        cases hfound : state.registry.find (.ofIndex raw) with
        | none => rfl
        | some record =>
            simp only
            rw [DaliDeviceRegistry.find_store, if_neg fun heq => h (congrArg ShortAddress.ofIndex heq)]
            rfl

/-! ## Runs -/

/-- The operations of a manager, each leaving the reading that it got. -/
def CoreReading.hearing (address : ShortAddress) :
    Machine (ManagerState σ) (ManagerOp σ) (Option (Reading UInt8)) where
  step state op := (((managed client).step state op).1, r.heard client address state op)

def CoreReading.heardIn (address : ShortAddress) (start : ManagerState σ)
    (ops : List (ManagerOp σ)) : List (Reading UInt8) :=
  ((r.hearing client address).outputs start ops).reduceOption

theorem heardIn_snoc (address : ShortAddress) (start : ManagerState σ) (ops : List (ManagerOp σ))
    (op : ManagerOp σ) : r.heardIn client address start (ops ++ [op]) =
      r.heardIn client address start ops ++
        (r.heard client address ((managed client).after start ops) op).toList := by
  rw [CoreReading.heardIn, Machine.outputs_snoc, List.reduceOption_append,
    List.reduceOption_singleton]
  rfl

theorem at_after (address : ShortAddress) (start : ManagerState σ) (ops : List (ManagerOp σ)) :
    r.at ((managed client).after start ops) address =
      (r.heardIn client address start ops).getLastD (r.at start address) := by
  induction ops using List.reverseRecOn with
  | nil => rfl
  | append_singleton ops op ih =>
      rw [Machine.after_snoc, at_step, ih, heardIn_snoc]
      cases r.heard client address ((managed client).after start ops) op with
      | none => rw [Option.toList_none, List.append_nil, Option.getD_none]
      | some reading => rw [Option.toList_some, List.getLastD_concat, Option.getD_some]

/-- The readings that a run gets are the valid answers to the probes of its detections, each with
the time of the detection. -/
theorem mem_heardIn {address : ShortAddress} {start : ManagerState σ} {ops : List (ManagerOp σ)}
    {reading : Reading UInt8} (h : reading ∈ r.heardIn client address start ops) :
    ∃ before nowMs, before ++ [.detectCoreCapabilities address nowMs] <+: ops ∧
      ∃ x ∈ answersFrom address r.probe.command (issued client ((managed client).after start before)
        (.detectCoreCapabilities address nowMs)),
        isValidResponse x = true ∧ reading = .valid x.response.value nowMs 0 := by
  induction ops using List.reverseRecOn with
  | nil => cases h
  | append_singleton ops op ih =>
      rw [heardIn_snoc, List.mem_append, Option.mem_toList] at h
      rcases h with h | h
      · obtain ⟨before, nowMs, hprefix, hx⟩ := ih h
        exact ⟨before, nowMs, hprefix.trans (List.prefix_append ops [op]), hx⟩
      · cases op with
        | detectCoreCapabilities other nowMs =>
            obtain ⟨x, hx, htaken⟩ := History.exists_of_latest _ h
            obtain rfl : other = address := by
              by_contra hne
              rw [answersFrom_issued_eq_nil client _ _ address (probe_mem_coreProbes r)
                fun nowMs heq => hne (by cases heq; rfl)] at hx
              exact absurd hx List.not_mem_nil
            rw [taken] at htaken
            split_ifs at htaken with hvalid
            exact ⟨ops, nowMs, List.prefix_rfl, x, hx, hvalid, (Option.some.inj htaken).symm⟩
        | scanPresence nowMs => cases h
        | upsert other nowMs => cases h
        | elsewhere duplicateReported other => cases h

/-! ## Readings and capabilities -/

/-- A supported feature has been read, and a feature that has been read is decided. -/
structure ReadingFits (entry : CapabilityEntry) (reading : Reading UInt8) : Prop where
  of_supported : entry.state = .supported → reading.hasValue = true
  of_unknown : entry.state = .unknown → reading = .initial 0

theorem state_unanswered (entry : CapabilityEntry) :
    entry.unanswered.state = .unsupported ∨ entry.unanswered.state = entry.state := by
  unfold CapabilityEntry.unanswered
  dsimp only
  by_cases hcount : entry.consecutiveNoResponses < 2
  · rw [if_pos hcount]
    split_ifs
    · exact .inl rfl
    · exact .inr rfl
  · rw [if_neg hcount]
    split_ifs
    · exact .inl rfl
    · exact .inr rfl

theorem ReadingFits.received {entry : CapabilityEntry} {reading : Reading UInt8}
    (h : ReadingFits entry reading) (nowMs : UInt64) (x : DaliQueryResult) :
    ReadingFits (entry.received x) ((taken nowMs x).getD reading) := by
  rw [taken]
  obtain ⟨hvalid, heq⟩ | ⟨hinvalid, -, heq⟩ | ⟨hinvalid, -, heq⟩ := entry.received_cases x
  · rw [heq, if_pos hvalid]
    exact ⟨fun _ => rfl, fun hunknown => by cases hunknown⟩
  · rw [heq, hinvalid]
    exact h
  · rw [heq, hinvalid]
    rcases state_unanswered entry with hstate | hstate
    · refine ⟨fun hs => ?_, fun hs => ?_⟩ <;> rw [hstate] at hs <;> cases hs
    · exact ⟨fun hs => h.of_supported (hstate ▸ hs), fun hs => h.of_unknown (hstate ▸ hs)⟩

theorem heard_eq_none {state : ManagerState σ} {op : ManagerOp σ} {address : ShortAddress}
    (h : ∀ nowMs, op ≠ .detectCoreCapabilities address nowMs) :
    r.heard client address state op = none := by
  have hnone := answersFrom_issued_eq_nil client state op address (probe_mem_coreProbes r) h
  cases op with
  | detectCoreCapabilities other nowMs =>
      rw [CoreReading.heard, hnone]
      rfl
  | scanPresence nowMs => rfl
  | upsert other nowMs => rfl
  | elsewhere duplicateReported other => rfl

theorem readingFits_step {state : ManagerState σ} {address : ShortAddress}
    (h : ReadingFits (state.entry address r.probe.feature) (r.at state address)) (op : ManagerOp σ) :
    ReadingFits (((managed client).step state op).1.entry address r.probe.feature)
      (r.at ((managed client).step state op).1 address) := by
  rw [entry_step client state op address (probe_mem_coreProbes r), at_step]
  by_cases hdetection : ∃ nowMs, op = .detectCoreCapabilities address nowMs
  · obtain ⟨nowMs, rfl⟩ := hdetection
    rw [CoreReading.heard]
    cases hanswers : answersFrom address r.probe.command
        (issued client state (.detectCoreCapabilities address nowMs)) with
    | nil => exact h
    | cons x rest =>
        have hx : x ∈ answersFrom address r.probe.command
            (issued client state (.detectCoreCapabilities address nowMs)) := by
          rw [hanswers]
          exact List.mem_cons_self
        have hsingle := (answersFrom_eq_singleton client (probe_mem_coreProbes r) hx).1
        rw [hanswers] at hsingle
        rw [hsingle, List.foldl_cons, List.foldl_nil, History.latest_singleton]
        exact h.received nowMs x
  · have hother : ∀ nowMs, op ≠ .detectCoreCapabilities address nowMs := fun nowMs heq =>
      hdetection ⟨nowMs, heq⟩
    rw [answersFrom_issued_eq_nil client state op address (probe_mem_coreProbes r) hother,
      heard_eq_none client r hother]
    exact h

/-- After any run of a fresh manager a reading is the last valid answer to its query, with the time
of that detection, and stays unread as long as there was none. A supported feature has been read,
and one that is undecided has not. -/
theorem readings_of_answers {σ : Type*} (client : IDaliQueryClient σ) (flags : Vector Bool 64)
    (initial : σ) (ops : List (ManagerOp σ)) (address : ShortAddress) (r : CoreReading) :
    let start : ManagerState σ := ⟨{}, flags, initial⟩
    let state := (managed client).after start ops
    r.at state address = (r.heardIn client address start ops).getLastD (.initial 0) ∧
      (∀ reading ∈ r.heardIn client address start ops, ∃ before nowMs,
        before ++ [.detectCoreCapabilities address nowMs] <+: ops ∧
        ∃ x ∈ answersFrom address r.probe.command (issued client
          ((managed client).after start before) (.detectCoreCapabilities address nowMs)),
          isValidResponse x = true ∧ reading = .valid x.response.value nowMs 0) ∧
      ((state.entry address r.probe.feature).state = .supported →
        (r.at state address).hasValue = true) ∧
      ((state.entry address r.probe.feature).state = .unknown →
        r.at state address = .initial 0) := by
  intro start state
  have hfresh : r.at start address = .initial 0 := by
    obtain ⟨raw, rfl⟩ := ShortAddress.ofIndex_surjective address
    rw [CoreReading.at, DaliDeviceRegistry.find_initial]
    rfl
  have hfits : ReadingFits (state.entry address r.probe.feature) (r.at state address) := by
    refine (managed client).after_induction (P := fun state =>
      ReadingFits (state.entry address r.probe.feature) (r.at state address))
      (fun state op h => readingFits_step client r h op) ?_ ops
    rw [hfresh, entry_fresh]
    exact ⟨fun hs => (by cases hs), fun _ => rfl⟩
  refine ⟨?_, fun reading h => mem_heardIn client r h, hfits.of_supported, hfits.of_unknown⟩
  rw [← hfresh]
  exact at_after client r address start ops

end DeviceManager

end DaliEdge
