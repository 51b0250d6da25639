import DaliEdge.EventManager

/-!
# The board of active alarms

What the event manager is for: a map from alarms to what is known of each. A step of the board
says everything one call can do to it and what the call returns. The slot table of the manager is
such a board as long as no alarm takes two slots, which every call preserves, so each call of a
run is a step of the board.
-/

namespace DaliEdge

open EventManager (kCapacity)

structure AlarmBoard where
  alarms : AlarmKey → Option Active
  nextEventId : UInt32
  held : ∀ k item, alarms k = some item → item.used = true ∧ item.key = k

namespace AlarmBoard

noncomputable def size (b : AlarmBoard) : ℕ := {k | b.alarms k ≠ none}.ncard

/-- The event as it is activated: an event without an id gets the next one. -/
def stamp (b : AlarmBoard) (event : LightEvent) : LightEvent :=
  if event.eventId = 0 then { event with eventId := b.nextEventId } else event

def stampedNext (b : AlarmBoard) (event : LightEvent) : UInt32 :=
  if event.eventId = 0 then b.nextEventId + 1 else b.nextEventId

theorem alarm_stamp (b : AlarmBoard) (event : LightEvent) : (b.stamp event).alarm = event.alarm := by
  unfold stamp
  split_ifs <;> rfl

/-- The board `b'` differs from `b` by one alarm. -/
structure Updates (b b' : AlarmBoard) (k : AlarmKey) (item : Option Active) : Prop where
  alarms_eq : b'.alarms = Function.update b.alarms k item
  nextEventId_eq : b'.nextEventId = b.nextEventId

/-- A call and the transition it returns, by what the board holds for the alarm. -/
inductive Step (b b' : AlarmBoard) : EventOp → Option EventTransition → Prop
  | activate {event : LightEvent} (absent : b.alarms event.alarm = none)
      (room : b.size < kCapacity)
      (alarms_eq : b'.alarms = Function.update b.alarms event.alarm
        (some ⟨true, b.stamp event, false, (b.stamp event).timestamp⟩))
      (next_eq : b'.nextEventId = b.stampedNext event) :
      Step b b' (.raise event) (some ⟨b.stamp event, .activated, false⟩)
  | overflow {event : LightEvent} (absent : b.alarms event.alarm = none)
      (full : b.size = kCapacity) (same : b' = b) : Step b b' (.raise event) none
  | escalate {event : LightEvent} {item : Active} (present : b.alarms event.alarm = some item)
      (above : item.event.severity.code < event.severity.code)
      (updates : b.Updates b' event.alarm
        (some { item with event, lastEmitted := event.timestamp })) :
      Step b b' (.raise event) (some ⟨event, .escalated, item.acknowledged⟩)
  | overwrite {event : LightEvent} {item : Active} (present : b.alarms event.alarm = some item)
      (notAbove : ¬ item.event.severity.code < event.severity.code)
      (updates : b.Updates b' event.alarm (some { item with event })) :
      Step b b' (.raise event) none
  | clear {address : UInt8} {type : LightEventType} {timestamp : UInt64} {item : Active}
      (present : b.alarms (address, type) = some item)
      (updates : b.Updates b' (address, type) none) :
      Step b b' (.clear address type timestamp)
        (some ⟨{ item.event with timestamp }, .cleared, item.acknowledged⟩)
  | clearAbsent {address : UInt8} {type : LightEventType} {timestamp : UInt64}
      (absent : b.alarms (address, type) = none) (same : b' = b) :
      Step b b' (.clear address type timestamp) none
  | acknowledge {address : UInt8} {type : LightEventType} {item : Active}
      (present : b.alarms (address, type) = some item)
      (updates : b.Updates b' (address, type) (some { item with acknowledged := true })) :
      Step b b' (.acknowledge address type) none
  | acknowledgeAbsent {address : UInt8} {type : LightEventType}
      (absent : b.alarms (address, type) = none) (same : b' = b) :
      Step b b' (.acknowledge address type) none
  | remind {timestamp intervalMs : UInt64} {item : Active}
      (present : b.alarms item.key = some item) (due : item.due timestamp intervalMs = true)
      (updates : b.Updates b' item.key (some { item with
        event := { item.event with timestamp }, lastEmitted := timestamp })) :
      Step b b' (.reminder timestamp intervalMs)
        (some ⟨{ item.event with timestamp }, .reminder, item.acknowledged⟩)
  | quiet {timestamp intervalMs : UInt64}
      (rest : ∀ k item, b.alarms k = some item → item.due timestamp intervalMs = false)
      (same : b' = b) : Step b b' (.reminder timestamp intervalMs) none

end AlarmBoard

namespace EventManager

variable {m : EventManager}

def Keyed (m : EventManager) : Prop := SlotTable.Distinct (·.used) Active.key m.active

def board (m : EventManager) : AlarmBoard where
  alarms := SlotTable.entry (·.used) Active.key m.active
  nextEventId := m.nextEventId
  held _ _ h := SlotTable.entry_some h

theorem find_eq_lookup (m : EventManager) (k : AlarmKey) :
    m.find k.1 k.2 = SlotTable.lookup (·.used) Active.key m.active k := by
  unfold find SlotTable.lookup
  congr 1
  funext i
  rw [Bool.and_assoc, ← Bool.decide_and]
  congr 2
  exact propext Prod.mk_inj.symm

theorem find_eq_none_iff (k : AlarmKey) : m.find k.1 k.2 = none ↔ m.board.alarms k = none := by
  rw [find_eq_lookup]
  exact (SlotTable.entry_eq_none_iff k).symm

theorem of_find_eq_some {k : AlarmKey} {i : Fin 128} (h : m.find k.1 k.2 = some i) :
    (m.active.get i).used = true ∧ (m.active.get i).key = k ∧
      m.board.alarms k = some (m.active.get i) := by
  rw [find_eq_lookup] at h
  obtain ⟨hused, hkey⟩ := SlotTable.lookup_some h
  exact ⟨hused, hkey, SlotTable.entry_of_lookup h⟩

theorem unused_eq_free (m : EventManager) : m.unused = SlotTable.free (·.used) m.active := rfl

namespace Keyed

theorem size_board (h : m.Keyed) : m.board.size = m.activeCount := SlotTable.ncard_entry h

theorem unused_eq_none_iff (h : m.Keyed) : m.unused = none ↔ m.board.size = kCapacity := by
  rw [unused_eq_free, SlotTable.free_eq_none_iff_countP, h.size_board]
  rfl

theorem size_le (h : m.Keyed) : m.board.size ≤ kCapacity := by
  rw [h.size_board]
  exact SlotTable.countP_le

theorem isActive_iff (h : m.Keyed) (k : AlarmKey) :
    m.IsActive k ↔ ∃ item, m.board.alarms k = some item := by
  constructor
  · rintro ⟨i, hused, hkey⟩
    exact ⟨m.active.get i, (SlotTable.entry_eq_some_iff h k _).2 ⟨i, hused, hkey, rfl⟩⟩
  · rintro ⟨item, hitem⟩
    obtain ⟨i, hused, hkey, -⟩ := (SlotTable.entry_eq_some_iff h k item).1 hitem
    exact ⟨i, hused, hkey⟩

theorem stores_iff (h : m.Keyed) (k : AlarmKey) (severity : EventSeverity) :
    m.Stores k severity ↔ (m.board.alarms k).map (·.event.severity) = some severity := by
  rw [Option.map_eq_some_iff]
  constructor
  · rintro ⟨i, hused, hkey, hsev⟩
    exact ⟨m.active.get i, (SlotTable.entry_eq_some_iff h k _).2 ⟨i, hused, hkey, rfl⟩, hsev⟩
  · rintro ⟨item, hitem, hsev⟩
    obtain ⟨i, hused, hkey, rfl⟩ := (SlotTable.entry_eq_some_iff h k item).1 hitem
    exact ⟨i, hused, hkey, hsev⟩

theorem replace (h : m.Keyed) {i : Fin 128} (item : Active) (hold : (m.active.get i).used = true)
    (hused : item.used = true) (hkey : item.key = (m.active.get i).key) :
    (m.store i item).Keyed ∧
      m.board.Updates (m.store i item).board (m.active.get i).key (some item) := by
  obtain ⟨hd, hentry⟩ := SlotTable.replace_used h hold hused hkey
  rw [hkey] at hentry
  exact ⟨hd, hentry, rfl⟩

/-! ## Each call is a step of the board -/

theorem raise_step (h : m.Keyed) (event : LightEvent) :
    (m.raise event).1.Keyed ∧
      m.board.Step (m.raise event).1.board (.raise event) (m.raise event).2 := by
  unfold raise
  cases hfind : m.find event.shortAddress event.type with
  | none =>
      have habsent : m.board.alarms event.alarm = none := (find_eq_none_iff event.alarm).1 hfind
      cases hunused : m.unused with
      | none => exact ⟨h, .overflow habsent (h.unused_eq_none_iff.1 hunused) rfl⟩
      | some i =>
          have hroom : m.board.size < kCapacity := by
            refine lt_of_le_of_ne h.size_le fun hfull => ?_
            rw [h.unused_eq_none_iff.2 hfull] at hunused
            cases hunused
          let item : Active := ⟨true, m.board.stamp event, false, (m.board.stamp event).timestamp⟩
          have hkey : item.key = event.alarm := m.board.alarm_stamp event
          have hnone : SlotTable.lookup (·.used) Active.key m.active item.key = none := by
            rw [hkey, ← find_eq_lookup]
            exact hfind
          obtain ⟨hd, hentry⟩ := SlotTable.insert_free h (SlotTable.free_some hunused) rfl hnone
          rw [hkey] at hentry
          exact ⟨hd, .activate habsent hroom hentry rfl⟩
  | some i =>
      obtain ⟨hused, hkey, hpresent⟩ := of_find_eq_some (k := event.alarm) hfind
      dsimp only
      split_ifs with habove
      · obtain ⟨hd, hupd⟩ := h.replace
          { m.active.get i with event, lastEmitted := event.timestamp } hused hused hkey.symm
        rw [hkey] at hupd
        exact ⟨hd, .escalate hpresent habove hupd⟩
      · obtain ⟨hd, hupd⟩ := h.replace { m.active.get i with event } hused hused hkey.symm
        rw [hkey] at hupd
        exact ⟨hd, .overwrite hpresent habove hupd⟩

theorem clear_step (h : m.Keyed) (address : UInt8) (type : LightEventType) (timestamp : UInt64) :
    (m.clear address type timestamp).1.Keyed ∧
      m.board.Step (m.clear address type timestamp).1.board (.clear address type timestamp)
        (m.clear address type timestamp).2 := by
  unfold clear
  cases hfind : m.find address type with
  | none => exact ⟨h, .clearAbsent ((find_eq_none_iff (address, type)).1 hfind) rfl⟩
  | some i =>
      obtain ⟨hused, hkey, hpresent⟩ := of_find_eq_some (k := (address, type)) hfind
      obtain ⟨hd, hentry⟩ := SlotTable.remove_used h hused
        (e := { m.active.get i with event := { (m.active.get i).event with timestamp }, used := false }) rfl
      rw [hkey] at hentry
      exact ⟨hd, .clear hpresent ⟨hentry, rfl⟩⟩

theorem acknowledge_step (h : m.Keyed) (address : UInt8) (type : LightEventType) :
    (m.acknowledge address type).1.Keyed ∧
      m.board.Step (m.acknowledge address type).1.board (.acknowledge address type) none := by
  unfold acknowledge
  cases hfind : m.find address type with
  | none => exact ⟨h, .acknowledgeAbsent ((find_eq_none_iff (address, type)).1 hfind) rfl⟩
  | some i =>
      obtain ⟨hused, hkey, hpresent⟩ := of_find_eq_some (k := (address, type)) hfind
      obtain ⟨hd, hupd⟩ := h.replace { m.active.get i with acknowledged := true } hused hused rfl
      rw [hkey] at hupd
      exact ⟨hd, .acknowledge hpresent hupd⟩

theorem reminder_step (h : m.Keyed) (timestamp intervalMs : UInt64) :
    (m.reminder timestamp intervalMs).1.Keyed ∧
      m.board.Step (m.reminder timestamp intervalMs).1.board (.reminder timestamp intervalMs)
        (m.reminder timestamp intervalMs).2 := by
  unfold reminder
  dsimp only
  cases hdue : (List.finRange 128).find? fun i =>
      (m.active.get i).used && (m.active.get i).due timestamp intervalMs with
  | none =>
      refine ⟨h, .quiet (fun k item hitem => ?_) rfl⟩
      obtain ⟨i, hused, -, rfl⟩ := (SlotTable.entry_eq_some_iff h k item).1 hitem
      have hi := List.find?_eq_none.1 hdue i (List.mem_finRange i)
      simpa [hused] using hi
  | some i =>
      have hi := List.find?_some hdue
      rw [Bool.and_eq_true] at hi
      obtain ⟨hd, hupd⟩ := h.replace { m.active.get i with
        event := { (m.active.get i).event with timestamp }, lastEmitted := timestamp } hi.1 hi.1 rfl
      exact ⟨hd, .remind (SlotTable.entry_of_used h hi.1) hi.2 hupd⟩

/-- Every call keeps the alarms in slots of their own and is a step of the board. -/
theorem apply_step (h : m.Keyed) (op : EventOp) :
    (m.apply op).1.Keyed ∧ m.board.Step (m.apply op).1.board op (m.apply op).2 := by
  cases op with
  | raise event => exact h.raise_step event
  | clear address type timestamp => exact h.clear_step address type timestamp
  | acknowledge address type => exact h.acknowledge_step address type
  | reminder timestamp intervalMs => exact h.reminder_step timestamp intervalMs

end Keyed

/-! ## Runs -/

theorem used_init (i : Fin 128) : (({} : EventManager).active.get i).used = false := by
  have hget : ({} : EventManager).active.get i = {} := Vector.getElem_replicate i.isLt
  rw [hget]

theorem keyed_init : Keyed {} := by
  intro i j hi
  exact absurd ((used_init i).symm.trans hi) Bool.false_ne_true

theorem board_init (k : AlarmKey) : (board {}).alarms k = none := by
  rw [← find_eq_none_iff, find_eq_lookup, SlotTable.lookup_eq_none_iff]
  intro i hi
  exact absurd ((used_init i).symm.trans hi) Bool.false_ne_true

theorem keyed_run (ops : List EventOp) : (run ops).Keyed :=
  machine.after_induction (fun _ op h => (h.apply_step op).1) keyed_init ops

theorem run_step (ops : List EventOp) (op : EventOp) :
    (run ops).board.Step (run (ops ++ [op])).board op ((run ops).apply op).2 := by
  rw [run_snoc]
  exact ((keyed_run ops).apply_step op).2

end EventManager

end DaliEdge
