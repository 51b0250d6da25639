import DaliEdge.AlarmBoard

/-!
# The capacity of the alarm table

The table holds any 128 alarms. Raising an alarm leaves it active unless it is a new one and the
table is full; then the call changes nothing and returns nothing, as it does for a repeated alarm.
-/

namespace DaliEdge

open EventManager (kCapacity)

namespace AlarmBoard

variable {b b' : AlarmBoard}

theorem Step.raised_iff {event : LightEvent} {out : Option EventTransition}
    (h : b.Step b' (.raise event) out) :
    b'.alarms event.alarm ≠ none ↔ b.alarms event.alarm ≠ none ∨ b.size < kCapacity := by
  cases h with
  | activate absent room alarms_eq next_eq =>
      refine iff_of_true ?_ (Or.inr room)
      rw [alarms_eq, Function.update_self]
      exact Option.some_ne_none _
  | overflow absent full same =>
      rw [same]
      exact iff_of_false (not_not.2 absent) (by rw [absent, full]; simp)
  | escalate present above updates | overwrite present notAbove updates =>
      refine iff_of_true ?_ (Or.inl ?_)
      · rw [updates.alarms_eq, Function.update_self]
        exact Option.some_ne_none _
      · rw [present]
        exact Option.some_ne_none _

theorem Step.alarms_of_room {event : LightEvent} {out : Option EventTransition}
    (h : b.Step b' (.raise event) out) (habsent : b.alarms event.alarm = none)
    (hroom : b.size < kCapacity) (k : AlarmKey) :
    b'.alarms k ≠ none ↔ b.alarms k ≠ none ∨ k = event.alarm := by
  cases h with
  | activate absent room alarms_eq next_eq =>
      rw [alarms_eq]
      by_cases hk : k = event.alarm
      · rw [hk, Function.update_self]
        exact iff_of_true (Option.some_ne_none _) (Or.inr rfl)
      · rw [Function.update_of_ne hk]
        simp [hk]
  | overflow absent full => exact absurd full hroom.ne
  | escalate present | overwrite present =>
      rw [habsent] at present
      cases present

end AlarmBoard

namespace EventManager

variable {m : EventManager}

theorem Keyed.isActive_iff_ne_none (h : m.Keyed) (k : AlarmKey) :
    m.IsActive k ↔ m.board.alarms k ≠ none := by
  rw [h.isActive_iff, Option.ne_none_iff_exists']

theorem Keyed.raise_of_full (h : m.Keyed) {event : LightEvent} (hnew : ¬ m.IsActive event.alarm)
    (hfull : m.activeCount = kCapacity) : m.raise event = (m, none) := by
  have hfind : m.find event.shortAddress event.type = none := by
    rw [h.isActive_iff_ne_none, not_not] at hnew
    exact (find_eq_none_iff event.alarm).2 hnew
  have hunused : m.unused = none := by
    rw [h.unused_eq_none_iff, h.size_board]
    exact hfull
  rw [raise, hfind, hunused]

theorem Keyed.lost_of_full (h : m.Keyed) {event : LightEvent} (hnew : ¬ m.IsActive event.alarm)
    (hfull : m.activeCount = kCapacity) :
    (m.raise event).2 = none ∧ ¬ (m.raise event).1.IsActive event.alarm := by
  rw [h.raise_of_full hnew hfull]
  exact ⟨rfl, hnew⟩

theorem Keyed.isActive_raise_iff (h : m.Keyed) (event : LightEvent) :
    (m.raise event).1.IsActive event.alarm ↔
      m.IsActive event.alarm ∨ m.activeCount < kCapacity := by
  obtain ⟨hkeyed, hstep⟩ := h.raise_step event
  rw [hkeyed.isActive_iff_ne_none, h.isActive_iff_ne_none, hstep.raised_iff, h.size_board]

theorem Keyed.of_raise_none (h : m.Keyed) {event : LightEvent} (hnone : (m.raise event).2 = none) :
    m.IsActive event.alarm ∨ m.activeCount = kCapacity := by
  have hstep := (h.raise_step event).2
  rw [hnone] at hstep
  rw [h.isActive_iff, ← h.size_board]
  cases hstep with
  | overflow absent full => exact Or.inr full
  | overwrite present => exact Or.inl ⟨_, present⟩

/-- After every run a raised alarm is active, unless it is a new one and 128 others are active;
then the call changes nothing, and only then does a new alarm return no transition. -/
theorem raise_of_run (ops : List EventOp) (event : LightEvent) :
    (((run ops).raise event).1.IsActive event.alarm ↔
        (run ops).IsActive event.alarm ∨ (run ops).activeCount < kCapacity) ∧
      (¬ (run ops).IsActive event.alarm → (run ops).activeCount = kCapacity →
        (run ops).raise event = (run ops, none)) ∧
      (((run ops).raise event).2 = none →
        (run ops).IsActive event.alarm ∨ (run ops).activeCount = kCapacity) :=
  ⟨(keyed_run ops).isActive_raise_iff event, (keyed_run ops).raise_of_full,
    (keyed_run ops).of_raise_none⟩

/-! ## Filling the table -/

theorem size_of_keys {b : AlarmBoard} {keys : List AlarmKey} (hnodup : keys.Nodup)
    (h : ∀ k, b.alarms k ≠ none ↔ k ∈ keys) : b.size = keys.length := by
  have hset : {k | b.alarms k ≠ none} = (keys.toFinset : Set AlarmKey) := by
    ext k
    rw [Set.mem_ofPred_eq, h, List.coe_toFinset, Set.mem_ofPred_eq]
  rw [AlarmBoard.size, hset, Set.ncard_coe_finset, List.toFinset_card_of_nodup hnodup]

theorem alarms_of_raised (events : List LightEvent) (hnodup : (events.map LightEvent.alarm).Nodup)
    (hlen : events.length ≤ kCapacity) (k : AlarmKey) :
    (run (events.map .raise)).board.alarms k ≠ none ↔ k ∈ events.map LightEvent.alarm := by
  induction events using List.reverseRecOn generalizing k with
  | nil => simp [board_init]
  | append_singleton events event ih =>
      rw [List.map_append, List.map_singleton] at hnodup ⊢
      rw [List.map_append, List.map_singleton]
      rw [List.length_append, List.length_singleton] at hlen
      obtain ⟨hbefore, -, hdisjoint⟩ := List.nodup_append.1 hnodup
      have hih := ih hbefore (by omega)
      have habsent : (run (events.map .raise)).board.alarms event.alarm = none := by
        by_contra hne
        have hmem := (hih event.alarm).1 hne
        exact hdisjoint _ hmem _ (List.mem_singleton_self _) rfl
      have hroom : (run (events.map .raise)).board.size < kCapacity := by
        rw [size_of_keys hbefore hih, List.length_map]
        omega
      rw [(run_step _ (.raise event)).alarms_of_room habsent hroom, hih, List.mem_append,
        List.mem_singleton]

theorem raised_full (events : List LightEvent) (hnodup : (events.map LightEvent.alarm).Nodup)
    (hlen : events.length = kCapacity) :
    (run (events.map .raise)).activeCount = kCapacity ∧
      ∀ k, (run (events.map .raise)).IsActive k ↔ k ∈ events.map LightEvent.alarm := by
  have hkeys := alarms_of_raised events hnodup hlen.le
  constructor
  · rw [← (keyed_run _).size_board, size_of_keys hnodup hkeys, List.length_map, hlen]
  · intro k
    rw [(keyed_run _).isActive_iff_ne_none, hkeys]

/-- A failure of the given kind at each of the 64 short addresses. -/
def failures (type : LightEventType) : List LightEvent :=
  (List.range 64).map fun i => { shortAddress := UInt8.ofNat i, type, severity := .critical }

def everyFailure : List LightEvent := failures .lampFailure ++ failures .controlGearFailure

theorem nodup_failures (type : LightEventType) :
    ((failures type).map LightEvent.alarm).Nodup := by
  rw [failures, List.map_map]
  refine List.Nodup.map_on (fun i hi j hj h => ?_) List.nodup_range
  have haddress : (UInt8.ofNat i).toNat = (UInt8.ofNat j).toNat :=
    congrArg (fun alarm : AlarmKey => alarm.1.toNat) h
  rw [List.mem_range] at hi hj
  rwa [UInt8.toNat_ofNat_of_lt' (hi.trans (by decide)),
    UInt8.toNat_ofNat_of_lt' (hj.trans (by decide))] at haddress

theorem type_of_mem_failures {type : LightEventType} {alarm : AlarmKey}
    (h : alarm ∈ (failures type).map LightEvent.alarm) : alarm.2 = type := by
  rw [failures, List.map_map] at h
  obtain ⟨i, -, rfl⟩ := List.mem_map.1 h
  rfl

theorem nodup_everyFailure : (everyFailure.map LightEvent.alarm).Nodup := by
  rw [everyFailure, List.map_append]
  refine (nodup_failures _).append (nodup_failures _) fun alarm hlamp hgear => ?_
  have hsame := (type_of_mem_failures hlamp).symm.trans (type_of_mem_failures hgear)
  exact LightEventType.noConfusion hsame

def missingDevice : LightEvent := { shortAddress := 0, type := .deviceMissing, severity := .critical }

/-- With a lamp failure and a control gear failure active at all 64 addresses, raising a missing
device returns nothing and leaves no such alarm active. -/
theorem not_active_after_overflow :
    ¬ (run (everyFailure.map .raise)).IsActive missingDevice.alarm ∧
      ((run (everyFailure.map .raise)).raise missingDevice).2 = none ∧
      ¬ ((run (everyFailure.map .raise)).raise missingDevice).1.IsActive missingDevice.alarm := by
  obtain ⟨hfull, hactive⟩ := raised_full everyFailure nodup_everyFailure rfl
  have hnew : ¬ (run (everyFailure.map .raise)).IsActive missingDevice.alarm := by
    rw [hactive]
    decide +kernel
  exact ⟨hnew, (keyed_run _).lost_of_full hnew hfull⟩

end EventManager

end DaliEdge
