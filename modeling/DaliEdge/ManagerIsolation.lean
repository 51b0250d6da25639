import DaliEdge.PresenceRuns

/-!
# Several managers in one process

The flags of the presence scan are static, so all managers of a process share them. The
registry of a manager is nevertheless what it would be alone. Its batches are, as long as at
every collision the shared flag says what the manager's own flag would say.
-/

namespace DaliEdge

namespace DeviceManager

/-! ## The registry does not depend on the flags -/

section Registry

variable {σ : Type*} (nowMs : UInt64) (raw : Fin 64) (result : DaliQueryResult)

theorem record_observe_congr (record : Option DaliDeviceRecord) (flag flag' : Bool)
    (address : ShortAddress) (outcome : ScanOutcome) :
    ((⟨record, flag⟩ : Slot).observe address nowMs outcome).1.record =
      ((⟨record, flag'⟩ : Slot).observe address nowMs outcome).1.record := by
  cases record with
  | none => cases outcome <;> rfl
  | some record =>
      cases outcome with
      | answered => rfl
      | collision => rfl
      | busFailure => rfl
      | silent =>
          simp only [Slot.observe]
          split
          · rfl
          · split <;> rfl

theorem registry_receive_congr (scan scan' : PresenceScan σ)
    (h : scan.registry = scan'.registry) :
    (PresenceScan.receive nowMs raw result scan).registry =
      (PresenceScan.receive nowMs raw result scan').registry := by
  have hwrites := PresenceScan.receive_writes nowMs raw scan result
  have hwrites' := PresenceScan.receive_writes nowMs raw scan' result
  have hfind : ∀ other, (scan.slot other).record = (scan'.slot other).record := fun other =>
    congrArg (fun registry : DaliDeviceRegistry => registry.find (.ofIndex other)) h
  have hobserved : ((scan.slot raw).observe (.ofIndex raw) nowMs (classify result)).1.record =
      ((scan'.slot raw).observe (.ofIndex raw) nowMs (classify result)).1.record := by
    simp only [PresenceScan.slot, h]
    exact record_observe_congr nowMs _ _ _ _ _
  refine DaliDeviceRegistry.ext_find (fun other => ?_) ?_
  · have hslot := congrArg Slot.record (hwrites.slot_eq other)
    have hslot' := congrArg Slot.record (hwrites'.slot_eq other)
    rw [apply_ite Slot.record, hobserved, hfind] at hslot
    rw [apply_ite Slot.record] at hslot'
    exact hslot.trans hslot'.symm
  · rw [hwrites.count_eq, hwrites'.count_eq, hobserved, hfind, h]

theorem registry_scanPresence_congr (answers : ShortAddress → DaliQueryResult)
    (flags flags' : Vector Bool 64) (registry : DaliDeviceRegistry) :
    (scanPresence (scripted answers) nowMs flags registry ()).registry =
      (scanPresence (scripted answers) nowMs flags' registry ()).registry := by
  have hfold : ∀ (raws : List (Fin 64)) (scan scan' : PresenceScan Unit),
      scan.registry = scan'.registry →
      (raws.foldl (PresenceScan.scanAddress (scripted answers) nowMs) scan).registry =
        (raws.foldl (PresenceScan.scanAddress (scripted answers) nowMs) scan').registry := by
    intro raws
    induction raws with
    | nil => exact fun scan scan' h => h
    | cons raw raws ih =>
        intro scan scan' h
        exact ih _ _ (registry_receive_congr nowMs raw (answers (.ofIndex raw)) scan scan' h)
  exact hfold _ _ _ rfl

end Registry

/-! ## The flag of an address -/

def flagStep (reported : Bool) : ScanOutcome → Bool
  | .answered => false
  | .collision => true
  | .busFailure => reported
  | .silent => reported

/-- Of the outcomes that are answers or collisions the last one is a collision. -/
def collidedLast (outcomes : List ScanOutcome) : Bool := outcomes.foldl flagStep false

theorem reported_observe (slot : Slot) (address : ShortAddress) (nowMs : UInt64)
    (outcome : ScanOutcome) :
    (slot.observe address nowMs outcome).1.reported = flagStep slot.reported outcome := by
  obtain ⟨record, reported⟩ := slot
  cases record with
  | none => cases outcome <;> rfl
  | some record =>
      cases outcome with
      | answered => rfl
      | collision => rfl
      | busFailure => rfl
      | silent =>
          simp only [Slot.observe]
          split
          · rfl
          · split <;> rfl

theorem observe_report_congr (record : Option DaliDeviceRecord) (flag flag' : Bool)
    (address : ShortAddress) (nowMs : UInt64) (outcome : ScanOutcome) :
    ((⟨record, flag⟩ : Slot).observe address nowMs outcome).2 =
        ((⟨record, flag'⟩ : Slot).observe address nowMs outcome).2 ↔
      (outcome = .collision → flag = flag') := by
  cases outcome with
  | answered => cases record <;> simp [Slot.observe]
  | busFailure => cases record <;> simp [Slot.observe]
  | silent =>
      cases record with
      | none => simp [Slot.observe]
      | some record =>
          simp only [Slot.observe]
          split
          · simp
          · split <;> simp
  | collision => cases record <;> cases flag <;> cases flag' <;> simp [Slot.observe]

theorem reported_presence_after (scans : List Scan) (address : ShortAddress) :
    ((presence.after {} scans).slot address).reported =
      collidedLast (scans.map fun scan => scan.outcome address) := by
  induction scans using List.reverseRecOn with
  | nil => rw [Machine.after_nil, slot_initial]; rfl
  | append_singleton scans scan ih =>
      rw [slot_after_snoc, reported_observe, ih, List.map_append, collidedLast, collidedLast,
        List.foldl_append]
      rfl

/-! ## The managers of one process -/

section Process

variable {κ : Type*} [DecidableEq κ]

structure ProcessState (κ : Type*) where
  registries : κ → DaliDeviceRegistry := fun _ => {}
  duplicateReported : Vector Bool 64 := Vector.replicate 64 false

/-- The state of the process as manager `k` sees it. -/
def ProcessState.view (state : ProcessState κ) (k : κ) : PresenceState :=
  ⟨state.registries k, state.duplicateReported⟩

def process : Machine (ProcessState κ) (κ × Scan) DiscoveryBatch where
  step state turn :=
    let r := presence.step (state.view turn.1) turn.2
    (⟨Function.update state.registries turn.1 r.1.registry, r.1.duplicateReported⟩, r.2)

/-- The scans of manager `k`. -/
def scansOf (k : κ) (turns : List (κ × Scan)) : List Scan :=
  (turns.filter fun turn => turn.1 = k).map (·.2)

/-- The batches of manager `k` in a run of the process. -/
def batchesOf (k : κ) (turns : List (κ × Scan)) : List DiscoveryBatch :=
  ((turns.zip (process.outputs {} turns)).filter fun turn => turn.1.1 = k).map (·.2)

/-- Every manager reports and keeps what it would if it ran alone on its own scans. -/
def Independent (turns : List (κ × Scan)) : Prop :=
  ∀ k, batchesOf k turns = presence.outputs {} (scansOf k turns) ∧
    (process.after {} turns).registries k = (presence.after {} (scansOf k turns)).registry

/-- Where this scan ends in a collision, the last answer or collision at the address was a
collision for the whole process if and only if it was one for the manager itself. -/
def SameFlags (turns : List (κ × Scan)) (turn : κ × Scan) : Prop :=
  ∀ address, (turn.2.answers address).outcome = .collision →
    collidedLast (turns.map fun t => t.2.outcome address) =
      collidedLast ((scansOf turn.1 turns).map fun scan => scan.outcome address)

theorem scansOf_snoc (k : κ) (turns : List (κ × Scan)) (turn : κ × Scan) :
    scansOf k (turns ++ [turn]) = scansOf k turns ++ if turn.1 = k then [turn.2] else [] := by
  rw [scansOf, List.filter_append, List.map_append]
  by_cases h : turn.1 = k <;> simp [scansOf, h]

theorem batchesOf_snoc (k : κ) (turns : List (κ × Scan)) (turn : κ × Scan) :
    batchesOf k (turns ++ [turn]) = batchesOf k turns ++
      if turn.1 = k then [(process.step (process.after {} turns) turn).2] else [] := by
  rw [batchesOf, Machine.outputs_snoc, List.zip_append (by rw [Machine.length_outputs]),
    List.filter_append, List.map_append]
  by_cases h : turn.1 = k <;> simp [batchesOf, h]

theorem registries_process_after (turns : List (κ × Scan)) (k : κ) :
    (process.after {} turns).registries k = (presence.after {} (scansOf k turns)).registry := by
  induction turns using List.reverseRecOn with
  | nil => rfl
  | append_singleton turns turn ih =>
      rw [Machine.after_snoc, scansOf_snoc]
      by_cases h : turn.1 = k
      · subst h
        rw [if_pos rfl, Machine.after_snoc]
        change Function.update _ turn.1 _ turn.1 = _
        rw [Function.update_self]
        change (scanPresence _ _ _ ((process.after {} turns).registries turn.1) ()).registry = _
        rw [ih]
        exact registry_scanPresence_congr _ _ _ _ _
      · rw [if_neg h, List.append_nil, ← ih]
        exact Function.update_of_ne (fun heq => h heq.symm) ..

theorem flags_process_after (turns : List (κ × Scan)) (k : κ) (address : ShortAddress) :
    (((process.after {} turns).view k).slot address).reported =
      collidedLast (turns.map fun turn => turn.2.outcome address) := by
  induction turns using List.reverseRecOn generalizing k with
  | nil => exact (congrArg Slot.reported (slot_initial address))
  | append_singleton turns turn ih =>
      have hstep := slot_presence_step ((process.after {} turns).view turn.1) turn.2 address
      rw [Machine.after_snoc]
      change ((presence.step ((process.after {} turns).view turn.1) turn.2).1.slot
        address).reported = _
      rw [hstep]
      change (Slot.observe _ _ _ _).1.reported = _
      rw [reported_observe, ih, List.map_append, collidedLast, collidedLast, List.foldl_append]
      rfl

end Process

/-- Two scans with equal answers over equal registries give the same batch exactly when the flags
agree where there is a collision. -/
theorem batch_eq_iff (state state' : PresenceState) (scan : Scan)
    (h : state.registry = state'.registry) :
    (presence.step state scan).2 = (presence.step state' scan).2 ↔
      ∀ address, (scan.answers address).outcome = .collision →
        (state.slot address).reported = (state'.slot address).reported := by
  have hreport : ∀ address, ((slotMachine address).step (state.slot address) scan).2 =
      ((slotMachine address).step (state'.slot address) scan).2 ↔
        ((scan.answers address).outcome = .collision →
          (state.slot address).reported = (state'.slot address).reported) := by
    intro address
    have hslot : state'.slot address =
        ⟨state.registry.find address, (state'.slot address).reported⟩ := by
      rw [h]
      rfl
    rw [← classify_eq_collision_iff, hslot]
    exact observe_report_congr _ _ _ _ _ _
  simp only [← hreport]
  constructor
  · intro hbatch address
    have hat := congrArg (fun batch => batch.changesAt address) hbatch
    simp only [changesAt_presence_step] at hat
    cases hleft : ((slotMachine address).step (state.slot address) scan).2 <;>
      cases hright : ((slotMachine address).step (state'.slot address) scan).2 <;>
        rw [hleft, hright] at hat <;> simp_all
  · intro hall
    apply DiscoveryBatch.ext
    simp only [changes_presence_step, hall]

section Process

variable {κ : Type*} [DecidableEq κ]

theorem output_process_step (state : ProcessState κ) (turn : κ × Scan) :
    (process.step state turn).2 = (presence.step (state.view turn.1) turn.2).2 := rfl

theorem independent_snoc_iff (turns : List (κ × Scan)) (turn : κ × Scan) :
    Independent (turns ++ [turn]) ↔ Independent turns ∧ SameFlags turns turn := by
  have hbatch := batch_eq_iff ((process.after {} turns).view turn.1)
    (presence.after {} (scansOf turn.1 turns)) turn.2 (registries_process_after turns turn.1)
  simp only [flags_process_after, reported_presence_after] at hbatch
  change _ ↔ SameFlags turns turn at hbatch
  constructor
  · intro h
    have hown := (h turn.1).1
    rw [batchesOf_snoc, scansOf_snoc, if_pos rfl, if_pos rfl, Machine.outputs_snoc,
      output_process_step] at hown
    obtain ⟨-, hlast⟩ := List.append_inj' hown (by simp only [List.length_singleton])
    refine ⟨fun k => ⟨?_, registries_process_after turns k⟩, hbatch.1 (List.singleton_inj.1 hlast)⟩
    have hk := (h k).1
    rw [batchesOf_snoc, scansOf_snoc] at hk
    split at hk
    · rw [Machine.outputs_snoc] at hk
      exact (List.append_inj' hk (by simp only [List.length_singleton])).1
    · simpa using hk
  · rintro ⟨h, hsame⟩ k
    refine ⟨?_, registries_process_after _ k⟩
    rw [batchesOf_snoc, scansOf_snoc]
    split
    · rename_i hk
      subst hk
      rw [Machine.outputs_snoc, (h turn.1).1, output_process_step, hbatch.2 hsame]
    · rw [List.append_nil, List.append_nil]
      exact (h k).1

/-- The managers of a process are independent of each other exactly when at every collision the
shared flags agree with the flags that the manager would have alone. -/
theorem independent_iff (turns : List (κ × Scan)) :
    Independent turns ↔ ∀ pre turn, pre ++ [turn] <+: turns → SameFlags pre turn := by
  induction turns using List.reverseRecOn with
  | nil =>
      constructor
      · intro _ pre turn hpre
        exact absurd (List.prefix_nil.1 hpre) (by simp)
      · exact fun _ k => ⟨rfl, rfl⟩
  | append_singleton turns turn ih =>
      rw [independent_snoc_iff, ih]
      constructor
      · rintro ⟨hall, hlast⟩ pre other hpre
        rcases List.prefix_concat_iff.1 hpre with heq | hpre
        · obtain ⟨rfl, hother⟩ := List.append_inj' heq rfl
          rw [List.singleton_inj.1 hother]
          exact hlast
        · exact hall pre other hpre
      · intro hall
        exact ⟨fun pre other hpre => hall pre other (hpre.trans (List.prefix_append _ _)),
          hall turns turn List.prefix_rfl⟩

end Process

/-- A first manager meets a collision, then a second one does. -/
theorem not_independent_of_collisions :
    ¬ Independent [(true, collisionScan), (false, collisionScan)] := by
  intro h
  have hsame := ((independent_snoc_iff [(true, collisionScan)] (false, collisionScan)).1 h).2
    ⟨0, by decide⟩ rfl
  revert hsame
  decide

end DeviceManager

end DaliEdge
