import DaliEdge.QueryLog
import DaliEdge.ManagerIsolation
import DaliEdge.History

/-!
# The effects of one scan

A scan queries each address once, in ascending order, and what it makes of an address is
decided by the record and the flag of that address and by the answer to its own query. The batch
has room for every change, and the flag says whether a collision was reported at the address by
some scan of the process since the last valid response there.
-/

namespace DaliEdge

namespace DiscoveryBatch

theorem add_fst_iff (batch : DiscoveryBatch) (change : DiscoveryChange) :
    (batch.add change).1 = true ↔ batch.changes.length < 64 := by
  have hle := batch.length_le
  unfold add
  split_ifs with h
  · exact iff_of_false (fun hfalse => (by cases hfalse)) (by omega)
  · exact iff_of_true rfl (by omega)

theorem length_add_le (batch : DiscoveryBatch) (change : DiscoveryChange) :
    (batch.add change).2.changes.length ≤ batch.changes.length + 1 := by
  unfold add
  split_ifs
  · exact Nat.le_succ _
  · exact le_of_eq List.length_append

end DiscoveryBatch

namespace DeviceManager

variable {σ : Type*} (client : IDaliQueryClient σ) (nowMs : UInt64)

/-! ## One scan -/

theorem length_scanAddress_le (scan : PresenceScan σ) (raw : Fin 64) :
    (PresenceScan.scanAddress client nowMs scan raw).batch.changes.length ≤
      scan.batch.changes.length + 1 := by
  rw [scanAddress_eq]
  change (PresenceScan.receive nowMs raw _ scan).batch.changes.length ≤ _
  rw [(PresenceScan.receive_writes nowMs raw scan _).batch_eq]
  split
  · exact Nat.le_succ _
  · exact DiscoveryBatch.length_add_le _ _

theorem length_foldl_scanAddress_le (raws : List (Fin 64)) (scan : PresenceScan σ) :
    (raws.foldl (PresenceScan.scanAddress client nowMs) scan).batch.changes.length ≤
      scan.batch.changes.length + raws.length := by
  induction raws generalizing scan with
  | nil => exact le_rfl
  | cons raw raws ih =>
      have hfirst := length_scanAddress_le client nowMs scan raw
      have hrest := ih (PresenceScan.scanAddress client nowMs scan raw)
      rw [List.foldl_cons, List.length_cons]
      omega

variable (duplicateReported : Vector Bool 64) (registry : DaliDeviceRegistry) (state : σ)

theorem scanPresence_eq_presence :
    let scan := scanPresence client nowMs duplicateReported registry state
    presence.step ⟨registry, duplicateReported⟩ ⟨nowMs, scanAnswers client state⟩ =
      (⟨scan.registry, scan.duplicateReported⟩, scan.batch) := by
  intro scan
  have heq : scan = _ := scanPresence_eq_scripted client nowMs duplicateReported registry state
  rw [heq]
  rfl

theorem slot_scanPresence (raw : Fin 64) :
    (scanPresence client nowMs duplicateReported registry state).slot raw =
      ((⟨.empty, duplicateReported, registry, state⟩ : PresenceScan σ).slot raw |>.observe
        (.ofIndex raw) nowMs (classify (scanAnswers client state (.ofIndex raw)))).1 := by
  have hslot := (scanPresence_scripted (scanAnswers client state) nowMs duplicateReported
    registry).1 raw
  rw [scanPresence_eq_scripted]
  exact hslot

theorem changesAt_scanPresence (raw : Fin 64) :
    (scanPresence client nowMs duplicateReported registry state).batch.changesAt (.ofIndex raw) =
      ((⟨.empty, duplicateReported, registry, state⟩ : PresenceScan σ).slot raw |>.observe
        (.ofIndex raw) nowMs (classify (scanAnswers client state (.ofIndex raw)))).2.toList := by
  have hchanges := changesAt_presence_step ⟨registry, duplicateReported⟩
    ⟨nowMs, scanAnswers client state⟩ (.ofIndex raw)
  rw [scanPresence_eq_presence] at hchanges
  simp only [PresenceState.slot, ShortAddress.index_ofIndex] at hchanges
  exact hchanges

theorem changes_scanPresence_ascending :
    (scanPresence client nowMs duplicateReported registry state).batch.changes.Pairwise
      fun change later => change.address.index < later.address.index := by
  have hchanges := changes_presence_step ⟨registry, duplicateReported⟩
    ⟨nowMs, scanAnswers client state⟩
  rw [scanPresence_eq_presence] at hchanges
  rw [hchanges, List.pairwise_filterMap]
  refine (List.pairwise_lt_finRange 64).imp fun {raw raw'} hlt change hchange later hlater => ?_
  obtain ⟨type, -, rfl⟩ := Option.map_eq_some_iff.1 hchange
  obtain ⟨type', -, rfl⟩ := Option.map_eq_some_iff.1 hlater
  rwa [ShortAddress.index_ofIndex, ShortAddress.index_ofIndex]

theorem uptimeMs_of_mem_scanPresence {change : DiscoveryChange}
    (h : change ∈ (scanPresence client nowMs duplicateReported registry state).batch.changes) :
    change.uptimeMs = nowMs := by
  have hchanges := changes_presence_step ⟨registry, duplicateReported⟩
    ⟨nowMs, scanAnswers client state⟩
  rw [scanPresence_eq_presence] at hchanges
  rw [hchanges] at h
  obtain ⟨raw, -, hraw⟩ := List.mem_filterMap.1 h
  obtain ⟨type, -, rfl⟩ := Option.map_eq_some_iff.1 hraw
  rfl

theorem classify_of_busFailure {result : DaliQueryResult} (h : result.outcome = .busFailure ∨
      (result.phyResult = .busPowerLost ∧ isValidResponse result = false ∧
        result.outcome ≠ .collision)) :
    classify result = .busFailure := by
  obtain ⟨hbus, hvalid, hcollision⟩ : isBusFailure result = true ∧
      isValidResponse result = false ∧ result.outcome ≠ .collision := by
    rcases h with h | ⟨hlost, hvalid, hcollision⟩
    · simp [isBusFailure, isValidResponse, h]
    · exact ⟨by simp [isBusFailure, hlost], hvalid, hcollision⟩
  rw [classify, hvalid, if_neg Bool.false_ne_true, if_neg hcollision, if_pos hbus]

/-! ## The flags over the process -/

section Process

variable {κ : Type*} [DecidableEq κ]

/-- A scan of one manager, or anything else that leaves it with another registry. -/
inductive ProcessOp (κ : Type*)
  | scan (k : κ) (scan : Scan)
  | edit (k : κ) (registry : DaliDeviceRegistry)

def edited : Machine (ProcessState κ) (ProcessOp κ) DiscoveryBatch where
  step state
    | .scan k scan => process.step state (k, scan)
    | .edit k registry =>
        ({ state with registries := Function.update state.registries k registry }, .empty)

/-- The operations of the process, each with the batch that it returned. -/
def processHistory (ops : List (ProcessOp κ)) : List (ProcessOp κ × DiscoveryBatch) :=
  ops.zip (edited.outputs {} ops)

def ReportsCollision (address : ShortAddress) (entry : ProcessOp κ × DiscoveryBatch) : Prop :=
  .duplicateAddressSuspected ∈ entry.2.changesAt address

/-- Anything but a scan with a valid response from the address. -/
def NoValidResponse (address : ShortAddress) (entry : ProcessOp κ × DiscoveryBatch) : Prop :=
  ∀ k scan, entry.1 = .scan k scan → isValidResponse (scan.answers address) = false

theorem processHistory_snoc (ops : List (ProcessOp κ)) (op : ProcessOp κ) :
    processHistory (ops ++ [op]) =
      processHistory ops ++ [(op, (edited.step (edited.after {} ops) op).2)] := by
  rw [processHistory, Machine.outputs_snoc, List.zip_append (by rw [Machine.length_outputs])]
  rfl

theorem classify_eq_answered_iff (result : DaliQueryResult) :
    classify result = .answered ↔ isValidResponse result = true := by
  unfold classify
  split_ifs with hvalid
  · exact iff_of_true rfl hvalid
  all_goals exact iff_of_false (fun h => (by cases h)) hvalid

theorem duplicate_mem_observe_iff (slot : Slot) (address : ShortAddress) (nowMs : UInt64)
    (outcome : ScanOutcome) :
    .duplicateAddressSuspected ∈ (slot.observe address nowMs outcome).2.toList ↔
      outcome = .collision ∧ slot.reported = false := by
  obtain ⟨record, reported⟩ := slot
  cases outcome with
  | answered =>
      cases record with
      | none => simp [Slot.observe]
      | some record => by_cases h : record.lifecycle = .missing <;> simp [Slot.observe, h]
  | collision => cases record <;> cases reported <;> simp [Slot.observe]
  | busFailure => simp [Slot.observe]
  | silent =>
      cases record with
      | none => simp [Slot.observe]
      | some record =>
          simp only [Slot.observe]
          split_ifs <;> simp

theorem reported_edited_step (state : ProcessState κ) (k : κ) (scan : Scan) (address : ShortAddress) :
    (edited.step state (.scan k scan)).1.duplicateReported.get address.index =
      flagStep (state.duplicateReported.get address.index) (scan.outcome address) := by
  have hslot := congrArg Slot.reported (slot_presence_step (state.view k) scan address)
  change _ = (Slot.observe _ _ _ _).1.reported at hslot
  rw [reported_observe] at hslot
  exact hslot

theorem changesAt_edited_step (state : ProcessState κ) (k : κ) (scan : Scan)
    (address : ShortAddress) :
    .duplicateAddressSuspected ∈ (edited.step state (.scan k scan)).2.changesAt address ↔
      scan.outcome address = .collision ∧
        state.duplicateReported.get address.index = false := by
  have hchanges := changesAt_presence_step (state.view k) scan address
  change .duplicateAddressSuspected ∈ (presence.step (state.view k) scan).2.changesAt address ↔ _
  rw [hchanges]
  exact duplicate_mem_observe_iff _ _ _ _

/-- The flag of an address is up exactly when a collision was reported there since the last valid
response. -/
theorem reported_iff_since (ops : List (ProcessOp κ)) (address : ShortAddress) :
    (edited.after {} ops).duplicateReported.get address.index = true ↔
      History.Since (ReportsCollision address) (NoValidResponse address) (processHistory ops) := by
  induction ops using List.reverseRecOn with
  | nil =>
      have hdown := congrArg Slot.reported (slot_initial address)
      rw [Machine.after_nil]
      refine iff_of_false (fun hup => ?_) History.not_since_nil
      exact Bool.false_ne_true (hdown.symm.trans hup)
  | append_singleton ops op ih =>
      rw [Machine.after_snoc, processHistory_snoc, History.since_snoc, ← ih]
      cases op with
      | edit k registry =>
          have hnone : ¬ ReportsCollision address
              ((.edit k registry : ProcessOp κ), DiscoveryBatch.empty) := List.not_mem_nil
          have hrest : NoValidResponse address
              ((.edit k registry : ProcessOp κ), DiscoveryBatch.empty) :=
            fun k' scan h => (by cases h)
          exact ⟨fun h => .inr ⟨hrest, h⟩, fun h => (h.resolve_left hnone).2⟩
      | scan k scan =>
          have hreports := changesAt_edited_step (edited.after {} ops) k scan address
          have hvalid : NoValidResponse address ((.scan k scan : ProcessOp κ),
              (edited.step (edited.after {} ops) (.scan k scan)).2) ↔
                scan.outcome address ≠ .answered := by
            rw [Scan.outcome, Ne, classify_eq_answered_iff, Bool.not_eq_true]
            constructor
            · exact fun h => h k scan rfl
            · rintro h k' scan' heq
              cases heq
              exact h
          rw [ReportsCollision, hreports, hvalid, reported_edited_step]
          cases scan.outcome address <;>
            cases (edited.after {} ops).duplicateReported.get address.index <;>
              simp [flagStep]

end Process

/-- One scan: its queries, its batch, what it makes of each address, and when it suspects a
duplicate. -/
theorem scan_effects {σ : Type*} (client : IDaliQueryClient σ) (nowMs : UInt64)
    (duplicateReported : Vector Bool 64) (registry : DaliDeviceRegistry) (state : σ)
    {κ : Type*} [DecidableEq κ] (ops : List (ProcessOp κ)) (k : κ) (next : Scan) :
    let start : PresenceScan σ := ⟨.empty, duplicateReported, registry, state⟩
    let scan := scanPresence client nowMs duplicateReported registry state
    let answers := scanAnswers client state
    issued client ⟨registry, duplicateReported, state⟩ (.scanPresence nowMs) =
      ((List.finRange 64).map fun raw =>
        ⟨.ofIndex raw, .queryControlGearPresent, .high, answers (.ofIndex raw)⟩) ∧
    (scan.batch.changes.Pairwise fun change later => change.address.index < later.address.index) ∧
    (∀ change ∈ scan.batch.changes, change.uptimeMs = nowMs) ∧
    (∀ visited change, visited < 64 →
      ((((List.finRange 64).take visited).foldl (PresenceScan.scanAddress client nowMs) start).batch.add
        change).1 = true) ∧
    (∀ raw, (scan.slot raw, scan.batch.changesAt (.ofIndex raw)) =
      let observed := (start.slot raw).observe (.ofIndex raw) nowMs (classify (answers (.ofIndex raw)))
      (observed.1, observed.2.toList)) ∧
    (∀ raw, (answers (.ofIndex raw)).outcome = .busFailure ∨
        ((answers (.ofIndex raw)).phyResult = .busPowerLost ∧
          isValidResponse (answers (.ofIndex raw)) = false ∧
          (answers (.ofIndex raw)).outcome ≠ .collision) →
      scan.slot raw = start.slot raw ∧ scan.batch.changesAt (.ofIndex raw) = []) ∧
    ∀ address, .duplicateAddressSuspected ∈
        (edited.step (edited.after {} ops) (.scan k next)).2.changesAt address ↔
      (next.answers address).outcome = .collision ∧
        ¬ History.Since (ReportsCollision address) (NoValidResponse address) (processHistory ops) := by
  intro start scan answers
  refine ⟨issued_scanPresence client _ nowMs,
    changes_scanPresence_ascending client nowMs duplicateReported registry state,
    fun change => uptimeMs_of_mem_scanPresence client nowMs duplicateReported registry state, ?_, ?_, ?_,
    ?_⟩
  · intro visited change hvisited
    have hlength := length_foldl_scanAddress_le client nowMs ((List.finRange 64).take visited) start
    rw [List.length_take, List.length_finRange] at hlength
    rw [DiscoveryBatch.add_fst_iff]
    exact lt_of_le_of_lt hlength (by simp only [start, DiscoveryBatch.empty, List.length_nil]; omega)
  · intro raw
    exact Prod.ext (slot_scanPresence client nowMs duplicateReported registry state raw)
      (changesAt_scanPresence client nowMs duplicateReported registry state raw)
  · intro raw hbus
    have hclassify := classify_of_busFailure hbus
    have hslot := slot_scanPresence client nowMs duplicateReported registry state raw
    have hchanges := changesAt_scanPresence client nowMs duplicateReported registry state raw
    rw [hclassify] at hslot hchanges
    exact ⟨hslot, hchanges⟩
  · intro address
    rw [changesAt_edited_step, Scan.outcome, classify_eq_collision_iff, ← reported_iff_since,
      Bool.not_eq_true]

end DeviceManager

end DaliEdge
