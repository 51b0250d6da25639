import DaliEdge.DemoEvents
import DaliEdge.DemoLifecycle

/-!
# The outages that the demo controller reports

A device that a step finds missing or recovered is published exactly when its light has had no
change of that kind before, since nothing clears its alarm. So every such change of a run is
published as long as no light is lost a second time, which the times of the steps decide.
-/

namespace DaliEdge

namespace DemoController

open DeviceManager (Slot isLifecycleChange lifecycleChange lifecycleWord lifecycleWord_succ
  length_lifecycleWord changesAt_presence_step)

variable (duplicateReported : Vector Bool 64) (address : ShortAddress)

/-- Every device that a step finds missing or recovered is published in that step. -/
def ForwardsChanges (demo : DemoController) (nowMs : UInt64) : Prop :=
  ∀ change ∈ (demo.step nowMs).2.changes.changes,
    change.type = .deviceMissing ∨ change.type = .deviceRecovered →
      ∃ record ∈ (demo.step nowMs).2.published,
        record.op = .publish (eventFrame (changeEvent nowMs change)) ∧ record.answer = .published true

/-- The light at address 3 answers, is away for three steps in a row, answers again and is away
for another three. -/
def TwoOutages (times : List UInt64) : Prop :=
  ∃ first gone back again, times.map away = first ++ gone ++ back ++ again ∧
    false ∈ first ∧ List.replicate 3 true <:+: gone ∧
    false ∈ back ∧ List.replicate 3 true <:+: again

theorem changesAt_step (times : List UInt64) (nowMs : UInt64) :
    ((machine.after (started duplicateReported) times).step nowMs).2.changes.changesAt
      address = (found duplicateReported address times nowMs).2.toList := by
  rw [(step_presence _ nowMs).2, changesAt_presence_step]
  change (Slot.observe _ _ _ _).2.toList = _
  rw [outcome_demoScan]
  rfl

variable {address}

theorem mem_changes_iff {times : List UInt64} {nowMs : UInt64} {change : DiscoveryChange}
    (h : change ∈ ((machine.after (started duplicateReported) times).step
      nowMs).2.changes.changes) :
    change.type ∈ (found duplicateReported change.address times nowMs).2.toList := by
  rw [← changesAt_step]
  exact List.mem_map_of_mem (List.mem_filter.2 ⟨h, decide_eq_true rfl⟩)

theorem value_le_of_found {times : List UInt64} {nowMs : UInt64} {type : DiscoveryChangeType}
    (h : type ∈ (found duplicateReported address times nowMs).2.toList) : address.value ≤ 3 := by
  by_contra hgt
  have hunanswered : ∀ nowMs, unanswered address nowMs = true := by
    intro nowMs
    simp [unanswered, UInt8.not_le.1 hgt]
  have hlifecycle : ¬ 1 ≤ (lifecycle duplicateReported address times).length := by
    rw [← phases_iff_lifecycle]
    rintro ⟨earlier, later, hword, -, hanswer⟩
    have hmem : false ∈ times.map (unanswered address) := by
      rw [hword]
      exact List.mem_append_right _ hanswer
    obtain ⟨other, -, hother⟩ := List.mem_map.1 hmem
    rw [hunanswered] at hother
    cases hother
  have htracks := (lifecycle_tracks duplicateReported address times).1
  rw [found, hunanswered] at h
  cases hslot : slotAfter duplicateReported address times with
  | mk record reported =>
      rw [hslot] at htracks h
      cases record with
      | none => exact List.not_mem_nil h
      | some record =>
          obtain ⟨n, hn, -⟩ := htracks
          rw [hn, length_lifecycleWord] at hlifecycle
          exact hlifecycle (by omega)

theorem ready_after (times : List UInt64) :
    (machine.after (started duplicateReported) times).outbox.Ready := by
  induction times using List.reverseRecOn with
  | nil => exact ready_started duplicateReported
  | append_singleton times nowMs ih =>
      rw [after_snoc]
      exact (step_announces _ nowMs ih fun change h =>
        value_le_of_found duplicateReported (mem_changes_iff duplicateReported h)).ready

theorem announces_after (times : List UInt64) (nowMs : UInt64) :
    Announces (machine.after (started duplicateReported) times).outbox
      (machine.after (started duplicateReported) (times ++ [nowMs])).outbox
      (((machine.after (started duplicateReported) times).step
          nowMs).2.changes.changes.map changeAlarm ++
        (List.finRange 4).flatMap (faultAlarms nowMs))
      ((machine.after (started duplicateReported) times).step nowMs).2.published := by
  rw [after_snoc]
  exact step_announces _ nowMs (ready_after duplicateReported times) fun change h =>
    value_le_of_found duplicateReported (mem_changes_iff duplicateReported h)

/-- The changes that are reported for an outage: its beginning and its end. -/
def IsOutageChange (type : DiscoveryChangeType) : Prop :=
  type = .deviceMissing ∨ type = .deviceRecovered

variable {type : DiscoveryChangeType}

theorem IsOutageChange.eq_of_eventType (h : IsOutageChange type) {other : DiscoveryChangeType}
    (heq : changeEventType other = changeEventType type) : other = type := by
  rcases h with rfl | rfl <;> cases other <;> first | rfl | cases heq

theorem IsOutageChange.isLifecycleChange (h : IsOutageChange type) :
    isLifecycleChange type = true := by
  rcases h with rfl | rfl <;> rfl

theorem mem_stepAlarms_iff (h : IsOutageChange type) (times : List UInt64) (nowMs : UInt64) :
    (address.value, changeEventType type) ∈
        ((machine.after (started duplicateReported) times).step
          nowMs).2.changes.changes.map changeAlarm ++
        (List.finRange 4).flatMap (faultAlarms nowMs) ↔
      type ∈ (found duplicateReported address times nowMs).2.toList := by
  have hfault : (address.value, changeEventType type) ∉
      (List.finRange 4).flatMap (faultAlarms nowMs) :=
    not_mem_faultAlarms nowMs _ (by rcases h with rfl | rfl <;> simp [changeEventType])
  rw [List.mem_append, or_iff_left hfault, List.mem_map]
  constructor
  · rintro ⟨change, hchange, heq⟩
    obtain ⟨haddress, htype⟩ := Prod.mk_inj.1 heq
    obtain rfl : change.type = type := h.eq_of_eventType htype
    obtain rfl : change.address = address := by
      cases ha : change.address
      cases address
      rw [ha] at haddress
      cases haddress
      rfl
    exact mem_changes_iff duplicateReported hchange
  · intro hfound
    rw [← changesAt_step] at hfound
    obtain ⟨change, hchange, rfl⟩ := List.mem_map.1 hfound
    obtain ⟨hmem, haddress⟩ := List.mem_filter.1 hchange
    exact ⟨change, hmem, by rw [changeAlarm, of_decide_eq_true haddress]⟩

theorem isActive_iff_mem_lifecycle (h : IsOutageChange type) (times : List UInt64) :
    (machine.after (started duplicateReported) times).events.IsActive
        (address.value, changeEventType type) ↔
      type ∈ lifecycle duplicateReported address times := by
  induction times using List.reverseRecOn with
  | nil =>
      have hinactive := (EventManager.keyed_init.isActive_iff_ne_none
        (address.value, changeEventType type)).not_left.2 (EventManager.board_init _)
      exact iff_of_false hinactive List.not_mem_nil
  | append_singleton times nowMs ih =>
      have hactive := (announces_after duplicateReported times nowMs).isActive_iff
        (address.value, changeEventType type)
      change EventManager.IsActive _ _ ↔ EventManager.IsActive _ _ ∨ _ at hactive
      rw [lifecycle_snoc, List.mem_append, ← ih, List.mem_filter,
        and_iff_left h.isLifecycleChange, ← mem_stepAlarms_iff duplicateReported h]
      exact hactive

theorem forwardsChanges_iff (times : List UInt64) (nowMs : UInt64) :
    ForwardsChanges (machine.after (started duplicateReported) times) nowMs ↔
      ∀ address type, IsOutageChange type →
        type ∈ (found duplicateReported address times nowMs).2.toList →
        type ∉ lifecycle duplicateReported address times := by
  have hannounces := announces_after duplicateReported times nowMs
  constructor
  · intro hforwards address type h hfound
    rw [← changesAt_step] at hfound
    obtain ⟨change, hchange, rfl⟩ := List.mem_map.1 hfound
    obtain ⟨hmem, haddress⟩ := List.mem_filter.1 hchange
    obtain rfl := of_decide_eq_true haddress
    have hpublished := hforwards change hmem h
    rw [eventFrame_eq (severity_changeEvent nowMs change)] at hpublished
    rw [← isActive_iff_mem_lifecycle duplicateReported h]
    exact ((hannounces.forwarded_iff _).1 hpublished).2
  · intro hnew change hchange h
    have hfound := mem_changes_iff duplicateReported hchange
    have hinactive := hnew _ _ h hfound
    rw [← isActive_iff_mem_lifecycle duplicateReported h] at hinactive
    rw [eventFrame_eq (severity_changeEvent nowMs change)]
    exact (hannounces.forwarded_iff _).2 ⟨(mem_stepAlarms_iff duplicateReported h times nowMs).2 hfound, hinactive⟩

/-! ## Runs -/

theorem mem_lifecycleWord_iff {n : ℕ} (h : IsOutageChange (lifecycleChange n)) :
    lifecycleChange n ∈ lifecycleWord n ↔ 3 ≤ n := by
  constructor
  · intro hmem
    by_contra hlt
    obtain rfl | rfl | rfl : n = 0 ∨ n = 1 ∨ n = 2 := by omega
    · exact List.not_mem_nil hmem
    · exact absurd hmem (by decide)
    · exact absurd hmem (by decide)
  · intro hle
    rw [lifecycleWord, List.mem_map]
    rcases h with h | h
    · exact ⟨1, List.mem_range.2 (by omega), h.symm⟩
    · exact ⟨2, List.mem_range.2 (by omega), h.symm⟩

theorem lifecycle_eq (address : ShortAddress) (times : List UInt64) :
    lifecycle duplicateReported address times = lifecycleWord (lifecycle duplicateReported address times).length :=
  (lifecycle_tracks duplicateReported address times).1.isLifecycle

theorem lifecycle_of_found {times : List UInt64} {nowMs : UInt64}
    (hlife : isLifecycleChange type = true)
    (h : type ∈ (found duplicateReported address times nowMs).2.toList) :
    type = lifecycleChange (lifecycle duplicateReported address times).length ∧
      (lifecycle duplicateReported address (times ++ [nowMs])).length =
        (lifecycle duplicateReported address times).length + 1 := by
  have hsnoc := lifecycle_snoc duplicateReported address times nowMs
  rw [Option.mem_toList] at h
  rw [Option.mem_def.1 h, Option.toList_some, List.filter_singleton, hlife, cond_true] at hsnoc
  have hlength := congrArg List.length hsnoc
  rw [List.length_append, List.length_singleton] at hlength
  have hnext := lifecycle_eq duplicateReported address (times ++ [nowMs])
  rw [hlength, lifecycleWord_succ, hsnoc] at hnext
  obtain ⟨-, hlast⟩ := List.append_inj' hnext rfl
  exact ⟨List.singleton_inj.1 hlast, hlength⟩

theorem length_lifecycle_snoc (address : ShortAddress) (times : List UInt64) (nowMs : UInt64) :
    (lifecycle duplicateReported address (times ++ [nowMs])).length =
        (lifecycle duplicateReported address times).length ∨
      ∃ type ∈ (found duplicateReported address times nowMs).2.toList,
        isLifecycleChange type = true := by
  rw [lifecycle_snoc, List.length_append]
  rcases List.eq_nil_or_concat ((found duplicateReported address times nowMs).2.toList.filter
    isLifecycleChange) with hnil | ⟨front, type, hconcat⟩
  · rw [hnil]
    exact .inl rfl
  · have hmem : type ∈ (found duplicateReported address times nowMs).2.toList.filter
        isLifecycleChange := by
      rw [hconcat]
      simp
    exact .inr ⟨type, List.mem_filter.1 hmem⟩

/-- A run publishes all outages exactly when no lifecycle is longer than found, lost and found. -/
theorem forwards_iff_length (times : List UInt64) :
    machine.Meets ForwardsChanges (started duplicateReported) times ↔
      ∀ address, (lifecycle duplicateReported address times).length ≤ 3 := by
  induction times using List.reverseRecOn with
  | nil => exact iff_of_true trivial fun address => Nat.zero_le 3
  | append_singleton times nowMs ih =>
      rw [Machine.meets_snoc, ih, forwardsChanges_iff]
      constructor
      · rintro ⟨hle, hnew⟩ address
        have hbefore := hle address
        rcases length_lifecycle_snoc duplicateReported address times nowMs with
          hsame | ⟨type, hfound, hlife⟩
        · rwa [hsame]
        · obtain ⟨htype, hlength⟩ := lifecycle_of_found duplicateReported hlife hfound
          by_contra hgt
          have hthree : (lifecycle duplicateReported address times).length = 3 := by omega
          rw [hthree] at htype
          have houtage : IsOutageChange type := .inl htype
          refine hnew address type houtage hfound ?_
          rw [lifecycle_eq, hthree, htype]
          exact (mem_lifecycleWord_iff (.inl rfl)).2 le_rfl
      · intro hle
        have hbefore : ∀ address, (lifecycle duplicateReported address times).length ≤ 3 := by
          intro address
          have hafter := hle address
          rw [lifecycle_snoc, List.length_append] at hafter
          omega
        refine ⟨hbefore, fun address type houtage hfound hmem => ?_⟩
        obtain ⟨htype, hlength⟩ :=
          lifecycle_of_found duplicateReported houtage.isLifecycleChange hfound
        have hafter := hle address
        rw [lifecycle_eq, htype] at hmem
        rw [htype] at houtage
        have hthree := (mem_lifecycleWord_iff houtage).1 hmem
        omega

theorem twoOutages_iff (times : List UInt64) : TwoOutages times ↔
    Outages.Phases 2 4 (times.map away) := by
  constructor
  · rintro ⟨first, gone, back, again, hword, hfirst, hgone, hback, hagain⟩
    exact ⟨_, again, hword, ⟨_, back, rfl, ⟨_, gone, rfl, ⟨[], first, rfl, trivial, hfirst⟩,
      hgone⟩, hback⟩, hagain⟩
  · rintro ⟨_, again, hword, ⟨_, back, rfl, ⟨_, gone, rfl, ⟨found, first, rfl, -, hfirst⟩, hgone⟩,
      hback⟩, hagain⟩
    exact ⟨found ++ first, gone, back, again, hword, List.mem_append_right _ hfirst, hgone, hback,
      hagain⟩

theorem twoOutages_of_phases {times : List UInt64}
    (h : Outages.Phases 2 4 (times.map (unanswered address))) : TwoOutages times := by
  obtain ⟨hanswered, hmissed⟩ : false ∈ times.map (unanswered address) ∧
      true ∈ times.map (unanswered address) := by
    obtain ⟨_, again, hword, ⟨_, back, rfl, -, hback⟩, hagain⟩ := h
    have htrue : true ∈ again := hagain.subset List.mem_cons_self
    rw [hword]
    exact ⟨List.mem_append_left _ (List.mem_append_right _ hback), List.mem_append_right _ htrue⟩
  obtain ⟨answeredMs, -, hanswered⟩ := List.mem_map.1 hanswered
  obtain ⟨missedMs, -, hmissed⟩ := List.mem_map.1 hmissed
  have hthree : address.value = 3 := by
    simp only [unanswered, Bool.or_eq_false_iff, decide_eq_false_iff_not] at hanswered
    simp only [unanswered, Bool.or_eq_true, decide_eq_true_eq, Bool.and_eq_true] at hmissed
    exact (hmissed.resolve_left hanswered.1).1
  have haway : times.map (unanswered address) = times.map away :=
    List.map_congr_left fun nowMs _ => by simp [unanswered, hthree]
  rw [haway] at h
  exact (twoOutages_iff times).2 h

theorem not_forwards_of_twoOutages {times : List UInt64} (h : TwoOutages times) :
    ¬ machine.Meets ForwardsChanges (started duplicateReported) times := by
  rw [forwards_iff_length, not_forall]
  have hthree : times.map away = times.map (unanswered ⟨3, by decide⟩) :=
    List.map_congr_left fun nowMs _ => by simp [unanswered]
  rw [twoOutages_iff, hthree, phases_iff_lifecycle duplicateReported] at h
  exact ⟨⟨3, by decide⟩, by omega⟩

/-- Every device that a run of the demo finds missing or recovered is published in that step,
exactly when the times of the steps do not hold two outages. -/
theorem changes_forwarded_iff (times : List UInt64) :
    machine.Meets ForwardsChanges (started duplicateReported) times ↔ ¬ TwoOutages times := by
  constructor
  · intro hforwards htwo
    exact not_forwards_of_twoOutages duplicateReported htwo hforwards
  · intro hnone
    rw [forwards_iff_length]
    intro address
    by_contra hgt
    have hphases : ¬ Outages.Phases 2 4 (times.map (unanswered address)) := fun h =>
      hnone (twoOutages_of_phases h)
    rw [phases_iff_lifecycle duplicateReported] at hphases
    omega

/-- The second time that the light at address 3 is lost nothing is published. -/
theorem second_outage_not_forwarded : ¬ ∀ (duplicateReported : Vector Bool 64) (times : List UInt64),
    machine.Meets ForwardsChanges (started duplicateReported) times := by
  intro h
  have hrun := h (Vector.replicate 64 false) [0, 2000, 2500, 3000, 4000, 6000, 6500, 7000]
  refine not_forwards_of_twoOutages _ ⟨[false], [true, true, true], [false], [true, true, true],
    ?_, ?_, List.infix_rfl, ?_, List.infix_rfl⟩ hrun <;> decide

end DemoController

end DaliEdge
