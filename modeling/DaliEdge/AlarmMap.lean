import DaliEdge.AlarmBoard

/-!
# The event manager as a map

The alarms of the manager form a map of at most 128 keys. Each call changes the entry of one key
at most: an absent key enters with a fresh entry, a present one is escalated or overwritten, and
a cleared one leaves the map with its entry.
-/

namespace DaliEdge

open EventManager (kCapacity)

/-- The alarm that a call is about; for a reminder, the one that it repeats. -/
def EventOp.alarm? (op : EventOp) (out : Option EventTransition) : Option AlarmKey :=
  match op with
  | .raise event => some event.alarm
  | .clear address type _ => some (address, type)
  | .acknowledge address type => some (address, type)
  | .reminder _ _ => out.map fun transition => transition.event.alarm

namespace AlarmBoard

variable {b b' : AlarmBoard} {op : EventOp} {out : Option EventTransition}

theorem Updates.of_ne {k k' : AlarmKey} {item : Option Active} (h : b.Updates b' k item)
    (hne : k' ≠ k) : b'.alarms k' = b.alarms k' := by
  rw [h.alarms_eq, Function.update_of_ne hne]

theorem Updates.self {k : AlarmKey} {item : Option Active} (h : b.Updates b' k item) :
    b'.alarms k = item := by
  rw [h.alarms_eq, Function.update_self]

theorem Step.other (h : b.Step b' op out) (k : AlarmKey) (hk : op.alarm? out ≠ some k) :
    b'.alarms k = b.alarms k := by
  have hne : ∀ k', op.alarm? out = some k' → k ≠ k' := by
    rintro k' hk' rfl
    exact hk hk'
  cases h with
  | activate absent room alarms_eq next_eq => rw [alarms_eq, Function.update_of_ne (hne _ rfl)]
  | escalate present above updates => exact updates.of_ne (hne _ rfl)
  | overwrite present notAbove updates => exact updates.of_ne (hne _ rfl)
  | clear present updates => exact updates.of_ne (hne _ rfl)
  | acknowledge present updates => exact updates.of_ne (hne _ rfl)
  | remind present due updates => exact updates.of_ne (hne _ rfl)
  | overflow _ _ same | clearAbsent _ same | acknowledgeAbsent _ same | quiet _ same => rw [same]

theorem Step.raise_absent {event : LightEvent} (h : b.Step b' (.raise event) out)
    (habsent : b.alarms event.alarm = none) (hroom : b.size < kCapacity) :
    out = some ⟨b.stamp event, .activated, false⟩ ∧
      b'.alarms event.alarm = some ⟨true, b.stamp event, false, event.timestamp⟩ := by
  have htimestamp : (b.stamp event).timestamp = event.timestamp := by
    unfold stamp
    split_ifs <;> rfl
  cases h with
  | activate absent room alarms_eq next_eq =>
      refine ⟨rfl, ?_⟩
      rw [alarms_eq, Function.update_self, htimestamp]
  | overflow absent full => exact absurd full hroom.ne
  | escalate present | overwrite present =>
      rw [habsent] at present
      cases present

theorem Step.raise_present {event : LightEvent} {item : Active} (h : b.Step b' (.raise event) out)
    (hpresent : b.alarms event.alarm = some item) :
    if item.event.severity.code < event.severity.code then
      out = some ⟨event, .escalated, item.acknowledged⟩ ∧
        b'.alarms event.alarm = some { item with event, lastEmitted := event.timestamp }
    else out = none ∧ b'.alarms event.alarm = some { item with event } := by
  cases h with
  | activate absent | overflow absent =>
      rw [hpresent] at absent
      cases absent
  | escalate present above updates =>
      obtain rfl := Option.some.inj (hpresent.symm.trans present)
      rw [if_pos above]
      exact ⟨rfl, updates.self⟩
  | overwrite present notAbove updates =>
      obtain rfl := Option.some.inj (hpresent.symm.trans present)
      rw [if_neg notAbove]
      exact ⟨rfl, updates.self⟩

theorem Step.clear_present {address : UInt8} {type : LightEventType} {timestamp : UInt64}
    {item : Active} (h : b.Step b' (.clear address type timestamp) out)
    (hpresent : b.alarms (address, type) = some item) :
    out = some ⟨{ item.event with timestamp }, .cleared, item.acknowledged⟩ ∧
      b'.alarms (address, type) = none := by
  cases h with
  | clear present updates =>
      obtain rfl := Option.some.inj (hpresent.symm.trans present)
      exact ⟨rfl, updates.self⟩
  | clearAbsent absent =>
      rw [hpresent] at absent
      cases absent

theorem Step.clear_absent {address : UInt8} {type : LightEventType} {timestamp : UInt64}
    (h : b.Step b' (.clear address type timestamp) out)
    (habsent : b.alarms (address, type) = none) : out = none ∧ b' = b := by
  cases h with
  | clear present =>
      rw [habsent] at present
      cases present
  | clearAbsent _ same => exact ⟨rfl, same⟩

theorem Step.acknowledge_present {address : UInt8} {type : LightEventType} {item : Active}
    (h : b.Step b' (.acknowledge address type) out)
    (hpresent : b.alarms (address, type) = some item) :
    b'.alarms (address, type) = some { item with acknowledged := true } := by
  cases h with
  | acknowledge present updates =>
      obtain rfl := Option.some.inj (hpresent.symm.trans present)
      exact updates.self
  | acknowledgeAbsent absent =>
      rw [hpresent] at absent
      cases absent

end AlarmBoard

namespace EventManager

variable {m : EventManager}

def entry (m : EventManager) (k : AlarmKey) : Option Active := m.board.alarms k

theorem Keyed.entry_eq_some_iff (h : m.Keyed) (k : AlarmKey) (item : Active) :
    m.entry k = some item ↔
      ∃ i : Fin 128, (m.active.get i).used = true ∧ (m.active.get i).key = k ∧
        m.active.get i = item :=
  SlotTable.entry_eq_some_iff h k item

theorem Keyed.activeCount_eq (h : m.Keyed) : m.activeCount = {k | m.IsActive k}.ncard := by
  rw [← h.size_board, AlarmBoard.size]
  congr 1
  ext k
  rw [Set.mem_ofPred_eq, Set.mem_ofPred_eq, h.isActive_iff, Option.ne_none_iff_exists']

theorem Keyed.size_lt_of_free (h : m.Keyed) {i : Fin 128} (hfree : (m.active.get i).used = false) :
    m.board.size < kCapacity := by
  refine lt_of_le_of_ne h.size_le fun hfull => ?_
  have hused := SlotTable.free_eq_none_iff.1 (h.unused_eq_none_iff.2 hfull) i
  rw [hfree] at hused
  cases hused

theorem Keyed.entry_clear (h : m.Keyed) (address : UInt8) (type : LightEventType)
    (timestamp : UInt64) : (m.clear address type timestamp).1.entry (address, type) = none ∧
      (m.clear address type timestamp).2 = (m.entry (address, type)).map fun item =>
        ⟨{ item.event with timestamp }, .cleared, item.acknowledged⟩ := by
  have hstep := (h.clear_step address type timestamp).2
  cases hentry : m.entry (address, type) with
  | none =>
      obtain ⟨hout, hsame⟩ := hstep.clear_absent hentry
      refine ⟨?_, hout⟩
      rw [entry, hsame]
      exact hentry
  | some item =>
      obtain ⟨hout, hgone⟩ := hstep.clear_present hentry
      exact ⟨hgone, hout⟩

theorem Keyed.not_isActive_of_entry (h : m.Keyed) {k : AlarmKey} (hentry : m.entry k = none) :
    ¬ m.IsActive k := by
  intro hactive
  obtain ⟨item, hitem⟩ := (h.isActive_iff k).1 hactive
  exact absurd (hentry.symm.trans hitem) nofun

theorem entry_first (event : LightEvent) : (run [.raise event]).entry event.alarm =
    some ⟨true, (board {}).stamp event, false, event.timestamp⟩ := by
  have hroom : (board {}).size < kCapacity := keyed_init.size_lt_of_free (used_init 0)
  have hstep := run_step [] (.raise event)
  rw [List.nil_append, run_nil] at hstep
  exact (hstep.raise_absent (board_init event.alarm) hroom).2

theorem entry_first_of_ne (event : LightEvent) {k : AlarmKey} (hk : k ≠ event.alarm) :
    (run [.raise event]).entry k = none := by
  have hstep := run_step [] (.raise event)
  rw [List.nil_append, run_nil] at hstep
  exact (hstep.other k fun heq => hk (Option.some.inj heq).symm).trans (board_init k)

/-- After every run the manager is a map of at most 128 alarms, each call changes the entry of its
own alarm only, and an alarm that enters the map, cleared before or not, does so with a fresh
entry. -/
theorem bounded_map (ops : List EventOp) :
    let m := run ops
    (∀ i j : Fin 128, (m.active.get i).used = true → (m.active.get j).used = true →
      (m.active.get i).key = (m.active.get j).key → i = j) ∧
    m.activeCount = {k | m.IsActive k}.ncard ∧ m.activeCount ≤ 128 ∧
    (∀ k item, m.entry k = some item ↔ ∃ i : Fin 128, (m.active.get i).used = true ∧
      (m.active.get i).key = k ∧ m.active.get i = item) ∧
    (∀ event, m.entry event.alarm = none → (∃ i : Fin 128, (m.active.get i).used = false) →
      ∃ stamped, stamped = (if event.eventId = 0 then { event with eventId := m.nextEventId }
          else event) ∧
        (m.raise event).2 = some ⟨stamped, .activated, false⟩ ∧
        (m.raise event).1.entry event.alarm = some ⟨true, stamped, false, event.timestamp⟩) ∧
    (∀ event item, m.entry event.alarm = some item →
      if item.event.severity.code < event.severity.code then
        (m.raise event).2 = some ⟨event, .escalated, item.acknowledged⟩ ∧
          (m.raise event).1.entry event.alarm =
            some { item with event, lastEmitted := event.timestamp }
      else (m.raise event).2 = none ∧
        (m.raise event).1.entry event.alarm = some { item with event }) ∧
    (∀ address type timestamp, (m.clear address type timestamp).1.entry (address, type) = none ∧
      (m.clear address type timestamp).2 = (m.entry (address, type)).map fun item =>
        ⟨{ item.event with timestamp }, .cleared, item.acknowledged⟩) ∧
    (∀ address type item, m.entry (address, type) = some item →
      (m.acknowledge address type).1.entry (address, type) =
        some { item with acknowledged := true }) ∧
    ∀ op k, op.alarm? (m.apply op).2 ≠ some k → (m.apply op).1.entry k = m.entry k := by
  intro m
  have hkeyed := keyed_run ops
  refine ⟨hkeyed, hkeyed.activeCount_eq, ?_, hkeyed.entry_eq_some_iff, ?_, ?_, ?_, ?_, ?_⟩
  · rw [← hkeyed.size_board]
    exact hkeyed.size_le
  · rintro event habsent ⟨i, hfree⟩
    exact ⟨_, rfl,
      (hkeyed.raise_step event).2.raise_absent habsent (hkeyed.size_lt_of_free hfree)⟩
  · intro event item hpresent
    exact (hkeyed.raise_step event).2.raise_present hpresent
  · exact fun address type timestamp => hkeyed.entry_clear address type timestamp
  · intro address type item hpresent
    exact (hkeyed.acknowledge_step address type).2.acknowledge_present hpresent
  · intro op k hk
    exact (hkeyed.apply_step op).2.other k hk

/-- A critical alarm is acknowledged and cleared, and raised again as a warning. -/
theorem bounded_map_reraised :
    ((run [.raise (thermal .critical 10), .acknowledge 3 .thermalWarning,
        .clear 3 .thermalWarning 20]).raise (thermal .warning 30)).1.entry (3, .thermalWarning) =
      some ⟨true, { thermal .warning 30 with eventId := 2 }, false, 30⟩ := by
  obtain ⟨-, -, -, -, -, -, hclear, -⟩ := bounded_map [.raise (thermal .critical 10),
    .acknowledge 3 .thermalWarning]
  have hgone := (hclear 3 .thermalWarning 20).1
  obtain ⟨-, -, -, -, hraise, -⟩ := bounded_map [.raise (thermal .critical 10),
    .acknowledge 3 .thermalWarning, .clear 3 .thermalWarning 20]
  obtain ⟨stamped, rfl, -, hentry⟩ := hraise (thermal .warning 30) hgone ⟨0, by decide +kernel⟩
  exact hentry

end EventManager

end DaliEdge
