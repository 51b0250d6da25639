import DaliEdge.QueryLog

/-!
# What the probes make of a capability

An entry of the capability map is changed by the answers to the queries of its own feature and
by nothing else: scans, upserts and the probes of other features and of other addresses leave it
alone. So after any run it is what those answers, in order, make of the initial entry, and it
is known at every step which queries are sent.
-/

namespace DaliEdge

/-- What the answer to a probe makes of an entry. -/
def CapabilityEntry.received (entry : CapabilityEntry) (result : DaliQueryResult) :
    CapabilityEntry :=
  if DeviceManager.isValidResponse result then ⟨.supported, 0⟩
  else if DeviceManager.isBusFailure result || result.outcome = .collision then entry
  else entry.unanswered

namespace CapabilityFeature

theorem index_injective : Function.Injective index := by
  intro f g h
  revert h
  cases f <;> cases g <;> decide

end CapabilityFeature

theorem DaliCapabilityMap.at_set_eq (map : DaliCapabilityMap) (feature other : CapabilityFeature)
    (entry : CapabilityEntry) :
    (map.set feature entry).at other = if feature = other then entry else map.at other := by
  rw [at_set]
  exact if_congr CapabilityFeature.index_injective.eq_iff rfl rfl

def DaliDeviceRecord.entryOf (record : Option DaliDeviceRecord) (feature : CapabilityFeature) :
    CapabilityEntry :=
  record.elim {} fun record => record.capabilities.at feature

namespace DeviceManager

variable {σ : Type*} (client : IDaliQueryClient σ)

/-- The answers to the queries of one command to one address. -/
def answersFrom (address : ShortAddress) (command : DaliCommand) (queries : List Query) :
    List DaliQueryResult :=
  (queries.filter fun q => q.address = address ∧ q.command = command).map Query.result

theorem answersFrom_append (address : ShortAddress) (command : DaliCommand) (xs ys : List Query) :
    answersFrom address command (xs ++ ys) =
      answersFrom address command xs ++ answersFrom address command ys := by
  rw [answersFrom, List.filter_append, List.map_append]
  rfl

theorem answersFrom_eq_nil {address : ShortAddress} {command : DaliCommand} {queries : List Query}
    (h : ∀ q ∈ queries, ¬ (q.address = address ∧ q.command = command)) :
    answersFrom address command queries = [] := by
  rw [answersFrom, List.filter_eq_nil_iff.2 fun q hq => by simpa using h q hq]
  rfl

/-! ## The probes of a detection -/

theorem capabilities_destination {p : CoreProbe} (hp : p ∈ coreProbes) :
    ∀ write ∈ p.destination, ∀ reading record, (write reading record).capabilities =
      record.capabilities := by
  simp only [coreProbes, List.mem_cons, List.not_mem_nil, or_false] at hp
  rcases hp with rfl | rfl | rfl | rfl
  · rintro write ⟨⟩
  · rintro write ⟨⟩ reading record
    rfl
  · rintro write ⟨⟩ reading record
    rfl
  · rintro write ⟨⟩ reading record
    rfl

theorem at_receiveProbe (nowMs : UInt64) {p : CoreProbe} (hp : p ∈ coreProbes)
    (result : DaliQueryResult) (record : DaliDeviceRecord) (feature : CapabilityFeature) :
    (receiveProbe nowMs p.feature p.destination result record).capabilities.at feature =
      if p.feature = feature then (record.capabilities.at feature).received result
      else record.capabilities.at feature := by
  have hwrite := capabilities_destination hp
  unfold receiveProbe CapabilityEntry.received
  by_cases hvalid : isValidResponse result = true
  · rw [if_pos hvalid, if_pos hvalid, ← DaliCapabilityMap.at_set_eq]
    cases hd : p.destination with
    | none => rfl
    | some write => exact congrArg (·.at feature) (hwrite write hd _ _)
  · rw [if_neg hvalid, if_neg hvalid]
    split_ifs with hbus hfeature hfeature
    · rfl
    · rfl
    · subst hfeature
      exact (DaliCapabilityMap.at_set_eq _ _ _ _).trans (if_pos rfl)
    · exact (DaliCapabilityMap.at_set_eq _ _ _ _).trans (if_neg hfeature)

theorem at_probe (address : ShortAddress) (nowMs : UInt64) {p : CoreProbe} (hp : p ∈ coreProbes)
    (probed : DaliDeviceRecord × σ) (feature : CapabilityFeature) :
    (probe client address nowMs p.feature p.command p.destination probed).1.capabilities.at feature =
      if p.feature = feature then
        ((probeQuery client address p.feature p.command probed).map Query.result).foldl
          CapabilityEntry.received (probed.1.capabilities.at feature)
      else probed.1.capabilities.at feature := by
  unfold probe probeQuery
  by_cases h : (probed.1.capabilities.at p.feature).state = .unsupported
  · rw [if_pos h, if_pos h]
    exact (ite_self _).symm
  · rw [if_neg h, if_neg h]
    exact at_receiveProbe nowMs hp _ _ feature

theorem mem_probeQueries (address : ShortAddress) (nowMs : UInt64) (ps : List CoreProbe)
    (probed : DaliDeviceRecord × σ) {q : Query}
    (hq : q ∈ probeQueries client address nowMs ps probed) :
    q.address = address ∧ ∃ p ∈ ps, q.command = p.command := by
  induction ps generalizing probed with
  | nil => cases hq
  | cons p ps ih =>
      rcases List.mem_append.1 hq with hq | hq
      · unfold probeQuery at hq
        split_ifs at hq
        · cases hq
        · rw [List.mem_singleton.1 hq]
          exact ⟨rfl, p, List.mem_cons_self, rfl⟩
      · obtain ⟨haddress, p', hp', hcommand⟩ := ih _ hq
        exact ⟨haddress, p', List.mem_cons_of_mem p hp', hcommand⟩

theorem at_probeAll_of_not_mem (address : ShortAddress) (nowMs : UInt64) (ps : List CoreProbe)
    (hps : ps ⊆ coreProbes) (probed : DaliDeviceRecord × σ) (feature : CapabilityFeature)
    (hfeature : ∀ p ∈ ps, p.feature ≠ feature) :
    (probeAll client address nowMs ps probed).1.capabilities.at feature =
      probed.1.capabilities.at feature := by
  induction ps generalizing probed with
  | nil => rfl
  | cons p ps ih =>
      rw [List.cons_subset] at hps
      have hrest := ih hps.2 (probe client address nowMs p.feature p.command p.destination probed)
        fun p' hp' => hfeature p' (List.mem_cons_of_mem p hp')
      rw [at_probe client address nowMs hps.1, if_neg (hfeature p List.mem_cons_self)] at hrest
      exact hrest

theorem answersFrom_probeQuery (address : ShortAddress) (p : CoreProbe) (command : DaliCommand)
    (probed : DaliDeviceRecord × σ) :
    answersFrom address command (probeQuery client address p.feature p.command probed) =
      if p.command = command then
        (probeQuery client address p.feature p.command probed).map Query.result
      else [] := by
  unfold probeQuery
  split_ifs <;> simp [answersFrom, *]

/-- Of the queries of the probes those of one of them are its own, unless its feature is
unsupported, and its entry is changed by the answers to them. -/
theorem answersFrom_probeQueries (address : ShortAddress) (nowMs : UInt64) (ps : List CoreProbe)
    (hps : ps ⊆ coreProbes) (hfeatures : (ps.map CoreProbe.feature).Nodup)
    (hcommands : (ps.map CoreProbe.command).Nodup) (probed : DaliDeviceRecord × σ) {p : CoreProbe}
    (hp : p ∈ ps) :
    ((answersFrom address p.command (probeQueries client address nowMs ps probed)).length =
      if (probed.1.capabilities.at p.feature).state = .unsupported then 0 else 1) ∧
    (probeAll client address nowMs ps probed).1.capabilities.at p.feature =
      (answersFrom address p.command (probeQueries client address nowMs ps probed)).foldl
        CapabilityEntry.received (probed.1.capabilities.at p.feature) := by
  induction ps generalizing probed with
  | nil => cases hp
  | cons p' ps ih =>
      rw [List.cons_subset] at hps
      rw [List.map_cons, List.nodup_cons] at hfeatures hcommands
      rw [probeQueries, answersFrom_append]
      rcases List.mem_cons.1 hp with rfl | hp
      · have hothers : answersFrom address p.command (probeQueries client address nowMs ps
            (probe client address nowMs p.feature p.command p.destination probed)) = [] := by
          refine answersFrom_eq_nil fun q hq hqp => ?_
          obtain ⟨-, p', hp', hcommand⟩ := mem_probeQueries client address nowMs ps _ hq
          exact hcommands.1 (List.mem_map.2 ⟨p', hp', hcommand.symm.trans hqp.2⟩)
        rw [answersFrom_probeQuery, if_pos rfl, hothers, List.append_nil]
        refine ⟨?_, ?_⟩
        · unfold probeQuery
          split_ifs <;> rfl
        · have hkept := at_probeAll_of_not_mem client address nowMs ps hps.2
            (probe client address nowMs p.feature p.command p.destination probed) p.feature
            fun p' hp' heq =>
              hfeatures.1 (List.mem_map.2 ⟨p', hp', heq⟩)
          rw [at_probe client address nowMs hps.1, if_pos rfl] at hkept
          exact hkept
      · have hcommand : p'.command ≠ p.command := fun heq =>
          hcommands.1 (List.mem_map.2 ⟨p, hp, heq.symm⟩)
        have hne : p'.feature ≠ p.feature := fun heq =>
          hfeatures.1 (List.mem_map.2 ⟨p, hp, heq.symm⟩)
        have hrest := ih hps.2 hfeatures.2 hcommands.2
          (probe client address nowMs p'.feature p'.command p'.destination probed) hp
        rw [at_probe client address nowMs hps.1, if_neg hne] at hrest
        rw [answersFrom_probeQuery, if_neg hcommand, List.nil_append]
        exact hrest

theorem mem_coreProbes_command {p : CoreProbe} (hp : p ∈ coreProbes) :
    p.command ≠ .queryControlGearPresent := by
  simp only [coreProbes, List.mem_cons, List.not_mem_nil, or_false] at hp
  rcases hp with rfl | rfl | rfl | rfl <;> decide

theorem nodup_features : (coreProbes.map CoreProbe.feature).Nodup := by decide

theorem nodup_commands : (coreProbes.map CoreProbe.command).Nodup := by decide

/-! ## The operations of a manager -/

def ManagerState.entry (state : ManagerState σ) (address : ShortAddress)
    (feature : CapabilityFeature) : CapabilityEntry :=
  DaliDeviceRecord.entryOf (state.registry.find address) feature

theorem entryOf_observe (slot : Slot) (address : ShortAddress) (nowMs : UInt64)
    (outcome : ScanOutcome) (feature : CapabilityFeature) :
    DaliDeviceRecord.entryOf (slot.observe address nowMs outcome).1.record feature =
      DaliDeviceRecord.entryOf slot.record feature := by
  obtain ⟨record, reported⟩ := slot
  cases record with
  | none =>
      cases outcome with
      | answered => exact DaliCapabilityMap.at_initial feature
      | collision | busFailure | silent => rfl
  | some record =>
      cases outcome with
      | answered | collision | busFailure => rfl
      | silent =>
          have hmissed : record.missedOnce.capabilities = record.capabilities := by
            rw [record.missedOnce_eq]
          simp only [Slot.observe]
          split_ifs
          · rfl
          · exact congrArg (·.at feature) hmissed
          · exact congrArg (·.at feature) hmissed

theorem entry_scanPresence (state : ManagerState σ) (nowMs : UInt64) (address : ShortAddress)
    (feature : CapabilityFeature) :
    ((managed client).step state (.scanPresence nowMs)).1.entry address feature =
      state.entry address feature := by
  have hslot := (scanPresence_scripted (scanAnswers client state.client) nowMs
    state.duplicateReported state.registry).1 address.index
  have hrecord := congrArg Slot.record hslot
  simp only [PresenceScan.visitSlot, PresenceScan.slot, ShortAddress.ofIndex_index] at hrecord
  simp only [managed, ManagerState.entry]
  rw [scanPresence_eq_scripted]
  change DaliDeviceRecord.entryOf ((scanPresence (scripted (scanAnswers client state.client)) nowMs
    state.duplicateReported state.registry ()).registry.find address) feature = _
  rw [hrecord]
  exact entryOf_observe _ _ _ _ feature

theorem entry_upsert (state : ManagerState σ) (other : ShortAddress) (nowMs : UInt64)
    (address : ShortAddress) (feature : CapabilityFeature) :
    ((managed client).step state (.upsert other nowMs)).1.entry address feature =
      state.entry address feature := by
  obtain ⟨raw, rfl⟩ := ShortAddress.ofIndex_surjective other
  obtain ⟨raw', rfl⟩ := ShortAddress.ofIndex_surjective address
  simp only [managed, ManagerState.entry, DaliDeviceRegistry.upsert]
  cases hfound : state.registry.find (.ofIndex raw) with
  | none =>
      change DaliDeviceRecord.entryOf ((state.registry.store (.ofIndex raw) _).find _) feature = _
      rw [DaliDeviceRegistry.find_store]
      split_ifs with h
      · subst h
        rw [hfound]
        exact DaliCapabilityMap.at_initial feature
      · rfl
  | some record =>
      change DaliDeviceRecord.entryOf ((state.registry.store (.ofIndex raw) _).find _) feature = _
      rw [DaliDeviceRegistry.find_store]
      split_ifs with h
      · subst h
        rw [hfound]
        rfl
      · rfl

theorem answersFrom_issued_eq_nil (state : ManagerState σ) (op : ManagerOp σ)
    (address : ShortAddress) {p : CoreProbe} (hp : p ∈ coreProbes)
    (h : ∀ nowMs, op ≠ .detectCoreCapabilities address nowMs) :
    answersFrom address p.command (issued client state op) = [] := by
  refine answersFrom_eq_nil fun q hq hqp => ?_
  cases op with
  | scanPresence nowMs =>
      rw [issued_scanPresence] at hq
      obtain ⟨raw, -, rfl⟩ := List.mem_map.1 hq
      exact mem_coreProbes_command hp hqp.2.symm
  | detectCoreCapabilities other nowMs =>
      rw [issued_detectCoreCapabilities, detectionQueries] at hq
      cases hfound : state.registry.find other with
      | none =>
          rw [hfound] at hq
          cases hq
      | some record =>
          rw [hfound] at hq
          have haddress := (mem_probeQueries client other nowMs _ _ hq).1
          exact h nowMs (by rw [← hqp.1, haddress])
  | upsert other nowMs => cases hq
  | elsewhere duplicateReported other => cases hq

theorem entry_detection_of_ne (state : ManagerState σ) {other address : ShortAddress}
    (h : other ≠ address) (nowMs : UInt64) (feature : CapabilityFeature) :
    ((managed client).step state (.detectCoreCapabilities other nowMs)).1.entry address feature =
      state.entry address feature := by
  obtain ⟨raw, rfl⟩ := ShortAddress.ofIndex_surjective other
  obtain ⟨raw', rfl⟩ := ShortAddress.ofIndex_surjective address
  simp only [managed, ManagerState.entry, detectCoreCapabilities]
  cases hfound : state.registry.find (.ofIndex raw) with
  | none => rfl
  | some record =>
      simp only
      rw [DaliDeviceRegistry.find_store, if_neg fun heq => h (congrArg ShortAddress.ofIndex heq)]

theorem entry_detection (state : ManagerState σ) {address : ShortAddress} (nowMs : UInt64)
    {record : DaliDeviceRecord} (hfound : state.registry.find address = some record)
    (feature : CapabilityFeature) :
    ((managed client).step state (.detectCoreCapabilities address nowMs)).1.entry address feature =
      (probeAll client address nowMs coreProbes (record, state.client)).1.capabilities.at feature := by
  obtain ⟨raw, rfl⟩ := ShortAddress.ofIndex_surjective address
  simp only [managed, ManagerState.entry, detectCoreCapabilities, hfound]
  rw [DaliDeviceRegistry.find_store, if_pos rfl, probeCore_eq_probeAll]
  rfl

/-- An entry is changed by the answers to the queries of its feature that the operation sends. -/
theorem entry_step (state : ManagerState σ) (op : ManagerOp σ) (address : ShortAddress)
    {p : CoreProbe} (hp : p ∈ coreProbes) :
    ((managed client).step state op).1.entry address p.feature =
      (answersFrom address p.command (issued client state op)).foldl CapabilityEntry.received
        (state.entry address p.feature) := by
  cases op with
  | scanPresence nowMs =>
      rw [answersFrom_issued_eq_nil client state _ address hp fun _ h => (by cases h),
        entry_scanPresence]
      rfl
  | detectCoreCapabilities other nowMs =>
      by_cases h : other = address
      · subst h
        rw [issued_detectCoreCapabilities, detectionQueries]
        cases hfound : state.registry.find other with
        | none =>
            simp only [managed, ManagerState.entry, detectCoreCapabilities, hfound]
            rfl
        | some record =>
            rw [entry_detection client state nowMs hfound, ManagerState.entry, hfound]
            exact (answersFrom_probeQueries client other nowMs coreProbes (List.Subset.refl _)
              nodup_features nodup_commands (record, state.client) hp).2
      · rw [entry_detection_of_ne client state h, answersFrom_issued_eq_nil client state _ address hp
          fun nowMs heq => h (by cases heq; rfl)]
        rfl
  | upsert other nowMs =>
      rw [issued_upsert, entry_upsert]
      rfl
  | elsewhere duplicateReported other => rfl

theorem entry_step_of_no_probe (state : ManagerState σ) (op : ManagerOp σ) (address : ShortAddress)
    {feature : CapabilityFeature} (hfeature : ∀ p ∈ coreProbes, p.feature ≠ feature) :
    ((managed client).step state op).1.entry address feature = state.entry address feature := by
  cases op with
  | scanPresence nowMs => exact entry_scanPresence client state nowMs address feature
  | detectCoreCapabilities other nowMs =>
      by_cases h : other = address
      · subst h
        cases hfound : state.registry.find other with
        | none => simp only [managed, ManagerState.entry, detectCoreCapabilities, hfound]
        | some record =>
            rw [entry_detection client state nowMs hfound, ManagerState.entry, hfound]
            exact at_probeAll_of_not_mem client _ nowMs coreProbes (List.Subset.refl _) _ _ hfeature
      · exact entry_detection_of_ne client state h nowMs feature
  | upsert other nowMs => exact entry_upsert client state other nowMs address feature
  | elsewhere duplicateReported other => rfl

theorem length_answersFrom_detection (state : ManagerState σ) (address : ShortAddress)
    (nowMs : UInt64) {record : DaliDeviceRecord} (hfound : state.registry.find address = some record)
    {p : CoreProbe} (hp : p ∈ coreProbes) :
    (answersFrom address p.command
      (issued client state (.detectCoreCapabilities address nowMs))).length =
        if (record.capabilities.at p.feature).state = .unsupported then 0 else 1 := by
  rw [issued_detectCoreCapabilities, detectionQueries, hfound]
  exact (answersFrom_probeQueries client address nowMs coreProbes (List.Subset.refl _)
    nodup_features nodup_commands (record, state.client) hp).1

theorem length_answersFrom_issued (state : ManagerState σ) (op : ManagerOp σ)
    (address : ShortAddress) {p : CoreProbe} (hp : p ∈ coreProbes) :
    (answersFrom address p.command (issued client state op)).length ≤
      if (state.entry address p.feature).state = .unsupported then 0 else 1 := by
  by_cases h : ∃ nowMs, op = .detectCoreCapabilities address nowMs
  · obtain ⟨nowMs, rfl⟩ := h
    cases hfound : state.registry.find address with
    | none =>
        rw [issued_detectCoreCapabilities, detectionQueries, hfound]
        exact Nat.zero_le _
    | some record =>
        rw [length_answersFrom_detection client state address nowMs hfound hp, ManagerState.entry,
          hfound]
        exact le_of_eq rfl
  · rw [answersFrom_issued_eq_nil client state op address hp fun nowMs heq => h ⟨nowMs, heq⟩]
    exact Nat.zero_le _

theorem answersFrom_issued_of_unsupported {state : ManagerState σ} {address : ShortAddress}
    {p : CoreProbe} (hp : p ∈ coreProbes)
    (h : (state.entry address p.feature).state = .unsupported) (op : ManagerOp σ) :
    answersFrom address p.command (issued client state op) = [] := by
  have hle := length_answersFrom_issued client state op address hp
  rw [if_pos h] at hle
  exact List.eq_nil_of_length_eq_zero (Nat.le_zero.1 hle)

theorem unsupported_step {state : ManagerState σ} {address : ShortAddress}
    {feature : CapabilityFeature} (h : (state.entry address feature).state = .unsupported)
    (op : ManagerOp σ) :
    (((managed client).step state op).1.entry address feature).state = .unsupported := by
  by_cases hcore : ∃ p ∈ coreProbes, p.feature = feature
  · obtain ⟨p, hp, rfl⟩ := hcore
    rw [entry_step client state op address hp, answersFrom_issued_of_unsupported client hp h]
    exact h
  · rw [entry_step_of_no_probe client state op address fun p hp heq => hcore ⟨p, hp, heq⟩]
    exact h

/-- Once a feature is unsupported it stays so and its query is not sent again, while a detection of
a registered device asks once for each core feature that is not unsupported. -/
theorem unsupported_queries_stop {σ : Type*} (client : IDaliQueryClient σ) (flags : Vector Bool 64)
    (initial : σ) (ops more : List (ManagerOp σ)) (address : ShortAddress) :
    let start : ManagerState σ := ⟨{}, flags, initial⟩
    let state := (managed client).after start ops
    let later := (managed client).after start (ops ++ more)
    (∀ feature, (state.entry address feature).state = .unsupported →
      (later.entry address feature).state = .unsupported ∧
      ∀ op, ∀ p ∈ coreProbes, p.feature = feature →
        ∀ q ∈ issued client later op, ¬ (q.address = address ∧ q.command = p.command)) ∧
    ∀ nowMs record, later.registry.find address = some record → ∀ p ∈ coreProbes,
      ((issued client later (.detectCoreCapabilities address nowMs)).countP
        fun q => q.address = address ∧ q.command = p.command) =
          if (record.capabilities.at p.feature).state = .unsupported then 0 else 1 := by
  intro start state later
  refine ⟨fun feature h => ?_, fun nowMs record hfound p hp => ?_⟩
  · have hlater : (later.entry address feature).state = .unsupported := by
      change (((managed client).after start (ops ++ more)).entry address feature).state = _
      rw [Machine.after_append]
      exact (managed client).after_induction
        (P := fun state => (state.entry address feature).state = .unsupported)
        (fun state op h => unsupported_step client h op) h more
    refine ⟨hlater, ?_⟩
    rintro op p hp rfl q hq hqp
    have hnone := answersFrom_issued_of_unsupported client hp hlater op
    rw [answersFrom, List.map_eq_nil_iff, List.filter_eq_nil_iff] at hnone
    exact hnone q hq (decide_eq_true hqp)
  · have hlength := length_answersFrom_detection client later address nowMs hfound hp
    rwa [answersFrom, List.length_map, ← List.countP_eq_length_filter] at hlength

def silentClient : IDaliQueryClient Unit :=
  scripted fun _ => ⟨.noResponse, .temporarilyUnavailable 0, 4, .timeout⟩

/-- Two unanswered detections, and a third. -/
theorem unsupported_queries_stop_example :
    let later := (managed silentClient).after ⟨{}, Vector.replicate 64 false, ()⟩
      ([.upsert (.ofIndex 5) 0, .detectCoreCapabilities (.ofIndex 5) 0,
        .detectCoreCapabilities (.ofIndex 5) 1] ++ [.detectCoreCapabilities (.ofIndex 5) 2])
    ∀ q ∈ issued silentClient later (.detectCoreCapabilities (.ofIndex 5) 3),
      ¬ (q.address = .ofIndex 5 ∧ q.command = .queryStatus) :=
  (((unsupported_queries_stop silentClient (Vector.replicate 64 false) ()
    [.upsert (.ofIndex 5) 0, .detectCoreCapabilities (.ofIndex 5) 0,
      .detectCoreCapabilities (.ofIndex 5) 1] [.detectCoreCapabilities (.ofIndex 5) 2]
    (.ofIndex 5)).1 .basicStatus (by decide +kernel)).2 (.detectCoreCapabilities (.ofIndex 5) 3)
      ⟨.basicStatus, .queryStatus, none⟩ List.mem_cons_self rfl)

end DeviceManager

end DaliEdge
