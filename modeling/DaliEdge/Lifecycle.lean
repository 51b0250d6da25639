import DaliEdge.PresenceRuns

/-!
# The lifecycle of a device in the discovery events

The changes reported for an address should read discovered, missing, recovered, missing, and so
on. A collision on a missing device breaks this: the record leaves the missing state without a
recovery, and the next unanswered scan reports it missing again. As long as no scan meets a
missing device with a collision the order holds.
-/

namespace DaliEdge

namespace DeviceManager

def isLifecycleChange : DiscoveryChangeType → Bool
  | .duplicateAddressSuspected => false
  | _ => true

/-- The lifecycle change that comes at place `n`. -/
def lifecycleChange : ℕ → DiscoveryChangeType
  | 0 => .deviceDiscovered
  | n + 1 => if n % 2 = 0 then .deviceMissing else .deviceRecovered

def lifecycleWord (n : ℕ) : List DiscoveryChangeType := (List.range n).map lifecycleChange

/-- The changes are a prefix of discovered, missing, recovered, missing, recovered, … -/
def IsLifecycle (word : List DiscoveryChangeType) : Prop := word = lifecycleWord word.length

/-- The lifecycle changes that a run of scans reports for an address. -/
def lifecycleAt (state : PresenceState) (scans : List Scan) (address : ShortAddress) :
    List DiscoveryChangeType :=
  (reportsAt state scans address).filter isLifecycleChange

/-- At every address the lifecycle changes come in order, and a device that is present again
after it was missing was reported as recovered. -/
def FollowsLifecycle (scans : List Scan) : Prop :=
  ∀ address, IsLifecycle (lifecycleAt {} scans address) ∧
    ∀ record, (presence.after {} scans).registry.find address = some record →
      record.present = true → (lifecycleAt {} scans address).getLast? ≠ some .deviceMissing

/-- No device that is missing meets this scan with a collision. -/
def NoCollisionWhileMissing (state : PresenceState) (scan : Scan) : Prop :=
  ∀ address record, state.registry.find address = some record → record.lifecycle = .missing →
    (scan.answers address).outcome ≠ .collision

theorem length_lifecycleWord (n : ℕ) : (lifecycleWord n).length = n := by
  rw [lifecycleWord, List.length_map, List.length_range]

theorem lifecycleWord_succ (n : ℕ) :
    lifecycleWord (n + 1) = lifecycleWord n ++ [lifecycleChange n] := by
  rw [lifecycleWord, List.range_succ, List.map_append]
  rfl

theorem isLifecycle_lifecycleWord (n : ℕ) : IsLifecycle (lifecycleWord n) := by
  rw [IsLifecycle, length_lifecycleWord]

theorem not_isLifecycle_of_missing_twice (word : List DiscoveryChangeType) :
    ¬ IsLifecycle (word ++ [.deviceMissing] ++ [.deviceMissing]) := by
  intro h
  rw [IsLifecycle, List.length_append, List.length_append, List.length_singleton,
    lifecycleWord_succ, lifecycleWord_succ] at h
  obtain ⟨hword, hlast⟩ := List.append_inj' h rfl
  obtain ⟨-, hprev⟩ := List.append_inj' hword rfl
  rw [List.singleton_inj] at hlast hprev
  cases hn : word.length with
  | zero =>
      rw [hn] at hprev
      cases hprev
  | succ n =>
      rw [hn, lifecycleChange] at hlast hprev
      split at hlast
      · split at hprev
        · omega
        · cases hprev
      · cases hlast

/-! ## What one scan preserves -/

/-- The record agrees with the lifecycle changes reported so far. -/
def Tracks (word : List DiscoveryChangeType) : Option DaliDeviceRecord → Prop
  | none => word = []
  | some record => ∃ n, word = lifecycleWord (n + 1) ∧
      (record.lifecycle = .missing ↔ n % 2 = 1) ∧ (record.present = true ↔ n % 2 = 0)

theorem Tracks.isLifecycle {word : List DiscoveryChangeType} {record : Option DaliDeviceRecord}
    (h : Tracks word record) : IsLifecycle word := by
  cases record with
  | none => exact h ▸ isLifecycle_lifecycleWord 0
  | some record =>
      obtain ⟨n, rfl, -⟩ := h
      exact isLifecycle_lifecycleWord _

theorem Tracks.getLast_ne {word : List DiscoveryChangeType} {record : DaliDeviceRecord}
    (h : Tracks word (some record)) (hpresent : record.present = true) :
    word.getLast? ≠ some .deviceMissing := by
  obtain ⟨n, rfl, -, hn⟩ := h
  rw [lifecycleWord_succ, List.getLast?_append, List.getLast?_singleton]
  intro hlast
  rw [Option.some_or, Option.some_inj] at hlast
  cases n with
  | zero => cases hlast
  | succ n =>
      have heven := hn.1 hpresent
      rw [lifecycleChange, if_neg (by omega)] at hlast
      cases hlast

theorem Tracks.next {word : List DiscoveryChangeType} {record : DaliDeviceRecord}
    (h : Tracks word (some record)) (next : DaliDeviceRecord)
    (hnext : next.lifecycle = .missing ↔ record.lifecycle ≠ .missing)
    (hpresent : next.present = true ↔ record.lifecycle = .missing) :
    Tracks (word ++ [if record.lifecycle = .missing then .deviceRecovered else .deviceMissing])
      (some next) := by
  obtain ⟨n, rfl, hmissing, -⟩ := h
  refine ⟨n + 1, ?_, ?_, ?_⟩
  · rw [lifecycleWord_succ (n + 1), lifecycleChange]
    by_cases hm : record.lifecycle = .missing
    · have hodd := hmissing.1 hm
      rw [if_pos hm, if_neg (by omega)]
    · rw [if_neg hm, if_pos]
      rw [hmissing] at hm
      omega
  · rw [hnext, Ne, hmissing]
    omega
  · rw [hpresent, hmissing]
    omega

theorem Tracks.same {word : List DiscoveryChangeType} {record : DaliDeviceRecord}
    (h : Tracks word (some record)) (same : DaliDeviceRecord)
    (hsame : same.lifecycle = .missing ↔ record.lifecycle = .missing)
    (hpresent : same.present = record.present) : Tracks word (some same) := by
  obtain ⟨n, rfl, hmissing, hn⟩ := h
  exact ⟨n, rfl, hsame.trans hmissing, by rw [hpresent, hn]⟩

theorem Tracks.present {word : List DiscoveryChangeType} {record : DaliDeviceRecord}
    (h : Tracks word (some record)) (hm : record.lifecycle ≠ .missing) : record.present = true := by
  obtain ⟨n, rfl, hmissing, hn⟩ := h
  rw [Ne, hmissing] at hm
  rw [hn]
  omega

theorem Tracks.observe {word : List DiscoveryChangeType} {slot : Slot} (h : Tracks word slot.record)
    (address : ShortAddress) (nowMs : UInt64) (outcome : ScanOutcome)
    (hc : ∀ record, slot.record = some record → record.lifecycle = .missing →
      outcome ≠ .collision) :
    Tracks (word ++ (slot.observe address nowMs outcome).2.toList.filter isLifecycleChange)
      (slot.observe address nowMs outcome).1.record := by
  obtain ⟨record, reported⟩ := slot
  cases record with
  | none =>
      change word = [] at h
      subst h
      cases outcome with
      | answered =>
          exact ⟨0, rfl, by simp [DaliDeviceRecord.discovered], by simp [DaliDeviceRecord.discovered]⟩
      | collision => cases reported <;> rfl
      | busFailure => rfl
      | silent => rfl
  | some record =>
      cases outcome with
      | answered =>
          by_cases hm : record.lifecycle = .missing
          · have hnext := h.next (record.seen nowMs) (by simp [DaliDeviceRecord.seen, hm])
              (by simp [DaliDeviceRecord.seen, hm])
            rw [if_pos hm] at hnext
            simp only [Slot.observe, if_pos hm]
            exact hnext
          · have hsame := h.same (record.seen nowMs) (by simp [DaliDeviceRecord.seen, hm])
              (by simp [DaliDeviceRecord.seen, h.present hm])
            simp only [Slot.observe, if_neg hm]
            rwa [Option.toList_none, List.filter_nil, List.append_nil]
      | collision =>
          have hm : record.lifecycle ≠ .missing := fun hm => hc record rfl hm rfl
          have hsame := h.same record.duplicated (by simp [DaliDeviceRecord.duplicated, hm]) rfl
          have hnone : ((⟨some record, reported⟩ : Slot).observe address nowMs
              .collision).2.toList.filter isLifecycleChange = [] := by cases reported <;> rfl
          rw [hnone, List.append_nil]
          exact hsame
      | busFailure =>
          rw [show (⟨some record, reported⟩ : Slot).observe address nowMs .busFailure =
            (⟨some record, reported⟩, none) from rfl, Option.toList_none, List.filter_nil,
            List.append_nil]
          exact h
      | silent =>
          by_cases hm : record.lifecycle = .missing
          · rw [Slot.observe_silent_missing address nowMs reported hm, Option.toList_none,
              List.filter_nil, List.append_nil]
            exact h
          · by_cases hlost : record.missedOnce.missedPresenceChecks ≥ 3
            · have hnext := h.next record.missedOnce.lost (by simp [DaliDeviceRecord.lost, hm])
                (by simp [DaliDeviceRecord.lost, hm])
              rw [if_neg hm] at hnext
              rw [Slot.observe_silent_lost address nowMs reported hm hlost]
              exact hnext
            · rw [Slot.observe_silent_missed address nowMs reported hm hlost, Option.toList_none,
                List.filter_nil, List.append_nil]
              exact h.same record.missedOnce (by simp) (by simp)

theorem lifecycleAt_snoc (state : PresenceState) (scans : List Scan) (scan : Scan)
    (address : ShortAddress) :
    lifecycleAt state (scans ++ [scan]) address = lifecycleAt state scans address ++
      (((presence.after state scans).slot address).observe address scan.nowMs
        (scan.outcome address)).2.toList.filter isLifecycleChange := by
  rw [lifecycleAt, reportsAt_snoc, List.filter_append]
  rfl

theorem tracks_of_meets {scans : List Scan} (h : presence.Meets NoCollisionWhileMissing {} scans)
    (address : ShortAddress) :
    Tracks (lifecycleAt {} scans address) ((presence.after {} scans).slot address).record := by
  refine Machine.meets_induction presence (P := fun scans => Tracks (lifecycleAt {} scans address)
    ((presence.after {} scans).slot address).record) ?_ ?_ h
  · rw [Machine.after_nil, slot_initial]
    rfl
  · intro scans scan _ hscan ih
    rw [lifecycleAt_snoc, slot_after_snoc]
    refine ih.observe address scan.nowMs (scan.outcome address) fun record hrecord hm hc => ?_
    exact hscan address record hrecord hm ((classify_eq_collision_iff _).1 hc)

/-! ## What happens after a collision on a missing device -/

/-- A record that is missing was reported so last, and has used up its missed checks. -/
def MissingReported (word : List DiscoveryChangeType) (record : Option DaliDeviceRecord) : Prop :=
  ∀ r, record = some r → r.lifecycle = .missing →
    3 ≤ r.missedPresenceChecks ∧ word.getLast? = some .deviceMissing

theorem MissingReported.observe {word : List DiscoveryChangeType} {slot : Slot}
    (h : MissingReported word slot.record) (address : ShortAddress) (nowMs : UInt64)
    (outcome : ScanOutcome) :
    MissingReported
      (word ++ (slot.observe address nowMs outcome).2.toList.filter isLifecycleChange)
      (slot.observe address nowMs outcome).1.record := by
  obtain ⟨record, reported⟩ := slot
  intro r hr hm
  cases record with
  | none =>
      cases outcome <;> cases hr
      cases hm
  | some record =>
      cases outcome with
      | answered => cases hr; cases hm
      | collision => cases hr; cases hm
      | busFailure =>
          cases hr
          simpa [Slot.observe] using h r rfl hm
      | silent =>
          by_cases hmissing : record.lifecycle = .missing
          · rw [Slot.observe_silent_missing address nowMs reported hmissing] at hr ⊢
            simpa using h r hr hm
          · by_cases hlost : record.missedOnce.missedPresenceChecks ≥ 3
            · rw [Slot.observe_silent_lost address nowMs reported hmissing hlost] at hr ⊢
              cases hr
              exact ⟨hlost, by simp [isLifecycleChange]⟩
            · rw [Slot.observe_silent_missed address nowMs reported hmissing hlost] at hr
              cases hr
              rw [DaliDeviceRecord.lifecycle_missedOnce] at hm
              exact absurd hm hmissing

theorem missingReported_after (scans : List Scan) (address : ShortAddress) :
    MissingReported (lifecycleAt {} scans address)
      ((presence.after {} scans).slot address).record := by
  induction scans using List.reverseRecOn with
  | nil =>
      rw [Machine.after_nil, slot_initial]
      exact fun r hr => nomatch hr
  | append_singleton scans scan ih =>
      rw [lifecycleAt_snoc, slot_after_snoc]
      exact ih.observe address scan.nowMs (scan.outcome address)

theorem observe_silent_duplicated (address : ShortAddress) (nowMs : UInt64)
    {record : DaliDeviceRecord} (reported : Bool) (h : 3 ≤ record.missedPresenceChecks) :
    ((⟨some record.duplicated, reported⟩ : Slot).observe address nowMs .silent).2 =
      some .deviceMissing := by
  have hlost : record.duplicated.missedOnce.missedPresenceChecks ≥ 3 := by
    rw [DaliDeviceRecord.missedPresenceChecks_missedOnce]
    change 3 ≤ if record.missedPresenceChecks < 3 then _ else record.missedPresenceChecks
    rwa [if_neg (by omega)]
  rw [Slot.observe_silent_lost address nowMs reported (by simp [DaliDeviceRecord.duplicated]) hlost]

/-- A scan in which a missing device collides, then a silent one: the device is reported missing
a second time. -/
theorem not_followsLifecycle_of_collision {scans : List Scan} {scan : Scan}
    (h : ¬ NoCollisionWhileMissing (presence.after {} scans) scan) :
    ¬ FollowsLifecycle (scans ++ [scan] ++ [silentScan]) := by
  rw [NoCollisionWhileMissing] at h
  push Not at h
  obtain ⟨address, record, hrecord, hm, hc⟩ := h
  have hslot := PresenceState.slot_of_find hrecord
  obtain ⟨hmissed, hlast⟩ :=
    missingReported_after scans address record (congrArg Slot.record hslot) hm
  obtain ⟨word, hword⟩ := List.getLast?_eq_some_iff.1 hlast
  have hcollision : scan.outcome address = .collision := (classify_eq_collision_iff _).2 hc
  intro hfollows
  have hlife := (hfollows address).1
  rw [lifecycleAt_snoc, lifecycleAt_snoc, slot_after_snoc, hslot, hword, hcollision] at hlife
  generalize ((presence.after {} scans).slot address).reported = reported at hlife
  have hfirst : ((⟨some record, reported⟩ : Slot).observe address scan.nowMs
      .collision).2.toList.filter isLifecycleChange = [] := by cases reported <;> rfl
  have hsecond := observe_silent_duplicated address silentScan.nowMs true hmissed
  rw [hfirst, List.append_nil] at hlife
  change IsLifecycle (word ++ [.deviceMissing] ++ (((⟨some record.duplicated, true⟩ : Slot).observe
    address silentScan.nowMs .silent).2.toList.filter isLifecycleChange)) at hlife
  rw [hsecond] at hlife
  exact not_isLifecycle_of_missing_twice word hlife

/-- The lifecycle is followed in every run without a collision on a missing device; a run with
one goes wrong within a scan. -/
theorem followsLifecycle_runs (scans : List Scan) :
    (presence.Meets NoCollisionWhileMissing {} scans → FollowsLifecycle scans) ∧
      (¬ presence.Meets NoCollisionWhileMissing {} scans →
        ∃ pre, pre <+: scans ∧ ¬ FollowsLifecycle (pre ++ [silentScan])) := by
  constructor
  · intro h address
    have htracks := tracks_of_meets h address
    refine ⟨htracks.isLifecycle, fun record hrecord hpresent => ?_⟩
    change Tracks _ ((presence.after {} scans).registry.find address) at htracks
    rw [hrecord] at htracks
    exact htracks.getLast_ne hpresent
  · intro h
    obtain ⟨pre, scan, hpre, hscan⟩ := Machine.exists_prefix_of_not_meets presence h
    exact ⟨pre ++ [scan], hpre, not_followsLifecycle_of_collision hscan⟩

/-- Found, three silent scans, a collision and one more silent scan. -/
theorem not_followsLifecycle_after_collision :
    ¬ FollowsLifecycle
      [answeredScan, silentScan, silentScan, silentScan, collisionScan, silentScan] := by
  intro h
  have hlife := (h ⟨0, by decide⟩).1
  rw [lifecycleAt, reportsAt_eq, slot_initial] at hlife
  revert hlife
  exact not_isLifecycle_of_missing_twice [.deviceDiscovered]

theorem followsLifecycle_outage : FollowsLifecycle [answeredScan, silentScan, silentScan, silentScan] :=
  (followsLifecycle_runs [answeredScan, silentScan, silentScan, silentScan]).1
    ⟨fun _ _ _ _ => nofun, fun _ _ _ _ => nofun, fun _ _ _ _ => nofun, fun _ _ _ _ => nofun, trivial⟩

end DeviceManager

end DaliEdge
