import DaliEdge.RecordInvariant
import DaliEdge.SlotTable

/-!
# The invariant of the device registry

A manager is scanned, asked to detect capabilities and given upserts in any order, over a client
that answers as it likes, while others in the process use the client and the static flags. Every
operation writes slots without emptying one, so the records stay and stay sound, and the counter
counts the occupied slots.
-/

namespace DaliEdge

namespace DaliDeviceRegistry

def Counted (registry : DaliDeviceRegistry) : Prop :=
  registry.count = registry.records.countP Option.isSome

theorem find_ofIndex (registry : DaliDeviceRegistry) (raw : Fin 64) :
    registry.find (.ofIndex raw) = registry.records.get raw := by
  rw [find, ShortAddress.index_ofIndex]

theorem find_initial (address : ShortAddress) : ({} : DaliDeviceRegistry).find address = none := by
  change (Vector.replicate 64 none)[address.index.val] = none
  exact Vector.getElem_replicate _

theorem counted_initial : ({} : DaliDeviceRegistry).Counted := by
  rw [Counted, SlotTable.countP_eq_card_filter, Finset.filter_false_of_mem, Finset.card_empty]
  intro raw _
  rw [← find_ofIndex, find_initial]
  exact Bool.false_ne_true

variable {registry later latest : DaliDeviceRegistry} {raw : Fin 64}
  {record : Option DaliDeviceRecord} {clock : Option UInt64}

/-- Writing a slot without emptying it occupies one more slot if it was free. -/
theorem countP_of_write
    (hfind : ∀ other, later.find (.ofIndex other) =
      if raw = other then record else registry.find (.ofIndex other))
    (hkept : (registry.find (.ofIndex raw)).isSome = true → record.isSome = true) :
    later.records.countP Option.isSome = registry.records.countP Option.isSome +
      if (registry.find (.ofIndex raw)).isNone ∧ record.isSome then 1 else 0 := by
  simp only [find_ofIndex] at hfind hkept
  rw [find_ofIndex, SlotTable.countP_eq_card_filter, SlotTable.countP_eq_card_filter]
  by_cases hnew : (registry.records.get raw).isNone ∧ record.isSome
  · have hinsert : (Finset.univ.filter fun i => (later.records.get i).isSome = true) =
        insert raw (Finset.univ.filter fun i => (registry.records.get i).isSome = true) := by
      ext i
      rw [Finset.mem_insert, Finset.mem_filter, Finset.mem_filter, hfind]
      by_cases hi : raw = i
      · simp [hi, hnew.2]
      · simp [hi, Ne.symm hi]
    have hfree : raw ∉ Finset.univ.filter fun i => (registry.records.get i).isSome = true := by
      intro hmem
      have hsome := (Finset.mem_filter.1 hmem).2
      rw [Option.isNone_iff_eq_none.1 hnew.1] at hsome
      exact Bool.false_ne_true hsome
    rw [if_pos hnew, hinsert, Finset.card_insert_of_notMem hfree]
  · have hsame : (registry.records.get raw).isSome = record.isSome := by
      cases hold : registry.records.get raw with
      | some old => exact (hkept (by rw [hold]; rfl)).symm
      | none =>
          rw [hold] at hnew
          exact (Bool.eq_false_iff.2 fun hrecord => hnew ⟨rfl, hrecord⟩).symm
    rw [if_neg hnew, Nat.add_zero]
    congr 1
    ext i
    rw [Finset.mem_filter, Finset.mem_filter, hfind]
    split_ifs with hi
    · rw [← hi, hsame]
    · rfl

/-- What an operation at the time `clock` may do to a registry. -/
structure Evolves (clock : Option UInt64) (registry later : DaliDeviceRegistry) : Prop where
  slot : ∀ raw, SlotEvolves (.ofIndex raw) clock (registry.find (.ofIndex raw))
    (later.find (.ofIndex raw))
  counted : registry.Counted → later.Counted

namespace Evolves

theorem refl (registry : DaliDeviceRegistry) : Evolves clock registry registry :=
  ⟨fun _ => SlotEvolves.refl _, id⟩

theorem trans (h : Evolves clock registry later) (h' : Evolves clock later latest) :
    Evolves clock registry latest :=
  ⟨fun raw => (h.slot raw).trans (h'.slot raw), h'.counted ∘ h.counted⟩

theorem of_write
    (hfind : ∀ other, later.find (.ofIndex other) =
      if raw = other then record else registry.find (.ofIndex other))
    (hslot : SlotEvolves (.ofIndex raw) clock (registry.find (.ofIndex raw)) record)
    (hcount : later.count = registry.count +
      if (registry.find (.ofIndex raw)).isNone ∧ record.isSome then 1 else 0) :
    Evolves clock registry later where
  slot other := by
    rw [hfind]
    split_ifs with hother
    · rwa [← hother]
    · exact SlotEvolves.refl _
  counted hcounted := by
    rw [Counted, hcount, countP_of_write hfind hslot.isSome, hcounted]

theorem store {old new : DaliDeviceRecord} (hold : registry.find (.ofIndex raw) = some old)
    (hslot : SlotEvolves (.ofIndex raw) clock (some old) (some new)) :
    Evolves clock registry (registry.store (.ofIndex raw) new) := by
  refine of_write (fun other => registry.find_store raw other new) ?_ ?_
  · rwa [hold]
  · rw [hold]
    rfl

end Evolves

theorem upsert_evolves (registry : DaliDeviceRegistry) (address : ShortAddress) (nowMs : UInt64) :
    Evolves (some nowMs) registry (registry.upsert address nowMs).2 := by
  obtain ⟨raw, rfl⟩ := ShortAddress.ofIndex_surjective address
  rw [upsert]
  cases hfound : registry.find (.ofIndex raw) with
  | none =>
      have hslot : SlotEvolves (.ofIndex raw) (some nowMs) none (some
          { address := .ofIndex raw, firstSeenUptimeMs := nowMs, lastSeenUptimeMs := nowMs }) :=
        ⟨.created nowMs, rfl, rfl⟩
      refine Evolves.of_write (fun other => registry.find_store raw other _) ?_ ?_
      · rwa [hfound]
      · rw [hfound]
        rfl
  | some record => exact Evolves.store hfound ⟨fun h => h.touched nowMs, rfl, .inr rfl⟩

end DaliDeviceRegistry

namespace DeviceManager

open DaliDeviceRegistry

section AnyClient

variable {σ : Type*} (client : IDaliQueryClient σ)

theorem detectCoreCapabilities_evolves (address : ShortAddress) (nowMs : UInt64)
    (registry : DaliDeviceRegistry) (state : σ) :
    Evolves (some nowMs) registry
      (detectCoreCapabilities client address nowMs registry state).2.1 := by
  obtain ⟨raw, rfl⟩ := ShortAddress.ofIndex_surjective address
  rw [detectCoreCapabilities]
  cases hfound : registry.find (.ofIndex raw) with
  | none => exact Evolves.refl registry
  | some record =>
      have hsame := probeCore_sameDevice client (.ofIndex raw) nowMs (record, state)
      exact Evolves.store hfound ⟨fun h => h.sameDevice hsame, hsame.firstSeen_eq,
        .inl hsame.lastSeen_eq⟩

theorem receive_evolves (nowMs : UInt64) (raw : Fin 64) (result : DaliQueryResult)
    (scan : PresenceScan σ) :
    Evolves (some nowMs) scan.registry (PresenceScan.receive nowMs raw result scan).registry := by
  have hwrites := PresenceScan.receive_writes nowMs raw scan result
  refine Evolves.of_write (fun other => ?_)
    ((scan.slot raw).observe_evolves (.ofIndex raw) nowMs (classify result)) hwrites.count_eq
  have hslot := congrArg Slot.record (hwrites.slot_eq other)
  rwa [apply_ite Slot.record] at hslot

theorem foldl_scanAddress_evolves (nowMs : UInt64) (raws : List (Fin 64)) (scan : PresenceScan σ) :
    Evolves (some nowMs) scan.registry
      (raws.foldl (PresenceScan.scanAddress client nowMs) scan).registry := by
  induction raws generalizing scan with
  | nil => exact Evolves.refl _
  | cons raw raws ih =>
      have hvisit : Evolves (some nowMs) scan.registry
          (PresenceScan.scanAddress client nowMs scan raw).registry := by
        rw [scanAddress_eq]
        exact receive_evolves nowMs raw _ scan
      rw [List.foldl_cons]
      exact hvisit.trans (ih _)

/-! ## Runs -/

/-- A manager with its client, and the static flags of its process. -/
structure ManagerState (σ : Type*) where
  registry : DaliDeviceRegistry := {}
  duplicateReported : Vector Bool 64
  client : σ

/-- A call on a manager, or what others in the process leave of the flags and the client. -/
inductive ManagerOp (σ : Type*)
  | scanPresence (nowMs : UInt64)
  | detectCoreCapabilities (address : ShortAddress) (nowMs : UInt64)
  | upsert (address : ShortAddress) (nowMs : UInt64)
  | elsewhere (duplicateReported : Vector Bool 64) (client : σ)

def ManagerOp.clock : ManagerOp σ → Option UInt64
  | .scanPresence nowMs => some nowMs
  | .detectCoreCapabilities _ nowMs => some nowMs
  | .upsert _ nowMs => some nowMs
  | .elsewhere _ _ => none

def managed : Machine (ManagerState σ) (ManagerOp σ) DiscoveryBatch where
  step state
    | .scanPresence nowMs =>
        let scan := scanPresence client nowMs state.duplicateReported state.registry state.client
        (⟨scan.registry, scan.duplicateReported, scan.client⟩, scan.batch)
    | .detectCoreCapabilities address nowMs =>
        let detected := detectCoreCapabilities client address nowMs state.registry state.client
        (⟨detected.2.1, state.duplicateReported, detected.2.2⟩, detected.1)
    | .upsert address nowMs =>
        ({ state with registry := (state.registry.upsert address nowMs).2 }, .empty)
    | .elsewhere duplicateReported client =>
        (⟨state.registry, duplicateReported, client⟩, .empty)

theorem step_evolves (state : ManagerState σ) (op : ManagerOp σ) :
    Evolves op.clock state.registry ((managed client).step state op).1.registry := by
  cases op with
  | scanPresence nowMs =>
      exact foldl_scanAddress_evolves client nowMs (List.finRange 64)
        ⟨.empty, state.duplicateReported, state.registry, state.client⟩
  | detectCoreCapabilities address nowMs =>
      exact detectCoreCapabilities_evolves client address nowMs _ _
  | upsert address nowMs => exact upsert_evolves _ address nowMs
  | elsewhere duplicateReported state => exact Evolves.refl _

variable (flags : Vector Bool 64) (initial : σ) (ops : List (ManagerOp σ))

theorem counted_after (state : ManagerState σ) (h : state.registry.Counted) :
    ((managed client).after state ops).registry.Counted :=
  (managed client).after_induction (P := fun state => state.registry.Counted)
    (fun state op => (step_evolves client state op).counted) h ops

theorem sound_after (raw : Fin 64) {record : DaliDeviceRecord}
    (hrecord : ((managed client).after ⟨{}, flags, initial⟩ ops).registry.find (.ofIndex raw) =
      some record) : record.Sound (.ofIndex raw) := by
  revert record
  refine (managed client).after_induction (P := fun state => ∀ {record},
    state.registry.find (.ofIndex raw) = some record → record.Sound (.ofIndex raw)) ?_ ?_ ops
  · intro state op ih later hlater
    have hslot := (step_evolves client state op).slot raw
    rw [hlater] at hslot
    cases hrecord : state.registry.find (.ofIndex raw) with
    | none =>
        rw [hrecord] at hslot
        exact hslot.1
    | some record =>
        rw [hrecord] at hslot
        exact hslot.1 (ih hrecord)
  · intro record hrecord
    rw [find_initial] at hrecord
    cases hrecord

theorem kept_after (state : ManagerState σ) (raw : Fin 64) {record : DaliDeviceRecord}
    (hrecord : state.registry.find (.ofIndex raw) = some record) :
    ∃ later, ((managed client).after state ops).registry.find (.ofIndex raw) = some later ∧
      later.firstSeenUptimeMs = record.firstSeenUptimeMs := by
  refine (managed client).after_induction (P := fun state => ∃ later,
    state.registry.find (.ofIndex raw) = some later ∧
      later.firstSeenUptimeMs = record.firstSeenUptimeMs) ?_ ⟨record, hrecord, rfl⟩ ops
  rintro state op ⟨later, hlater, hfirst⟩
  have hslot := (step_evolves client state op).slot raw
  rw [hlater] at hslot
  cases hlatest : ((managed client).step state op).1.registry.find (.ofIndex raw) with
  | none =>
      rw [hlatest] at hslot
      exact hslot.elim
  | some latest =>
      rw [hlatest] at hslot
      exact ⟨latest, rfl, hslot.2.1.trans hfirst⟩

/-- A record was last seen at the time of some operation, and not before it was first seen. -/
theorem seen_after (raw : Fin 64) (hclock : (ops.filterMap ManagerOp.clock).Pairwise (· ≤ ·))
    {record : DaliDeviceRecord}
    (hrecord : ((managed client).after ⟨{}, flags, initial⟩ ops).registry.find (.ofIndex raw) =
      some record) :
    record.firstSeenUptimeMs ≤ record.lastSeenUptimeMs ∧
      record.lastSeenUptimeMs ∈ ops.filterMap ManagerOp.clock := by
  induction ops using List.reverseRecOn generalizing record with
  | nil =>
      rw [Machine.after_nil, find_initial] at hrecord
      cases hrecord
  | append_singleton ops op ih =>
      rw [Machine.after_snoc] at hrecord
      have hslot := (step_evolves client ((managed client).after ⟨{}, flags, initial⟩ ops) op).slot raw
      rw [hrecord] at hslot
      rw [List.filterMap_append, List.pairwise_append] at hclock
      obtain ⟨hops, -, hle⟩ := hclock
      have hmem : ∀ t, op.clock = some t → t ∈ [op].filterMap ManagerOp.clock := by
        intro t ht
        rw [List.filterMap_cons_some ht]
        exact List.mem_cons_self
      rw [List.filterMap_append, List.mem_append]
      cases hold : ((managed client).after ⟨{}, flags, initial⟩ ops).registry.find (.ofIndex raw) with
      | none =>
          rw [hold] at hslot
          obtain ⟨-, hfirst, hlast⟩ := hslot
          rw [hlast]
          exact ⟨UInt64.le_refl _, .inr (hmem _ hfirst)⟩
      | some old =>
          rw [hold] at hslot
          obtain ⟨-, hfirst, hlast⟩ := hslot
          obtain ⟨hseen, hin⟩ := ih hops hold
          rw [hfirst]
          rcases hlast with hlast | hlast
          · rw [hlast]
            exact ⟨hseen, .inl hin⟩
          · exact ⟨UInt64.le_trans hseen (hle _ hin _ (hmem _ hlast)), .inr (hmem _ hlast)⟩

end AnyClient

/-- The invariant of the registry after any run on a fresh manager. -/
theorem registry_invariant {σ : Type*} (client : IDaliQueryClient σ) (flags : Vector Bool 64)
    (initial : σ) (ops : List (ManagerOp σ)) :
    let registry := ((managed client).after ⟨{}, flags, initial⟩ ops).registry
    registry.count = registry.records.countP Option.isSome ∧
      ∀ raw record, registry.records.get raw = some record →
        record.Sound (.ofIndex raw) ∧
        (∀ more, ∃ later,
          ((managed client).after ⟨{}, flags, initial⟩ (ops ++ more)).registry.records.get raw =
            some later ∧ later.firstSeenUptimeMs = record.firstSeenUptimeMs) ∧
        ((ops.filterMap ManagerOp.clock).Pairwise (· ≤ ·) →
          record.firstSeenUptimeMs ≤ record.lastSeenUptimeMs) := by
  refine ⟨counted_after client ops _ counted_initial, fun raw record hrecord => ?_⟩
  rw [← find_ofIndex] at hrecord
  refine ⟨sound_after client flags initial ops raw hrecord, fun more => ?_, fun hclock => ?_⟩
  · rw [Machine.after_append, ← find_ofIndex]
    exact kept_after client more _ raw hrecord
  · exact (seen_after client flags initial ops raw hclock hrecord).1

/-- A device that is upserted and then not answered by anyone stays in its slot. -/
theorem registry_invariant_upserted : ∃ later,
    ((managed (scripted fun _ => {})).after ⟨{}, Vector.replicate 64 false, ()⟩
      ([.upsert (.ofIndex 5) 100] ++ [.scanPresence 200, .scanPresence 300])).registry.records.get 5 =
        some later ∧ later.firstSeenUptimeMs = 100 :=
  ((registry_invariant (scripted fun _ => {}) (Vector.replicate 64 false) ()
    [.upsert (.ofIndex 5) 100]).2 5
      { address := .ofIndex 5, firstSeenUptimeMs := 100, lastSeenUptimeMs := 100 }
      (by decide +kernel)).2.1 [.scanPresence 200, .scanPresence 300]

end DeviceManager

end DaliEdge
