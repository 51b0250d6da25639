import DaliEdge.Machine
import DaliEdge.SlotTable
import DaliEdge.Types
import Mathlib.Data.List.ReduceOption

/-!
# The event manager

A fixed table of alarms, one for each address and event type that is active. Raising an alarm
activates it, escalates it or overwrites the stored event in silence; clearing it frees its slot;
a reminder repeats the first alarm in the table whose interval has passed. Every call that a peer
should hear of returns a transition.
-/

namespace DaliEdge

abbrev AlarmKey := UInt8 × LightEventType

def LightEvent.alarm (event : LightEvent) : AlarmKey := (event.shortAddress, event.type)

inductive EventAction
  | activated | escalated | cleared | reminder
  deriving DecidableEq

structure EventTransition where
  event : LightEvent
  action : EventAction
  acknowledged : Bool
  deriving DecidableEq

structure Active where
  used : Bool := false
  event : LightEvent := {}
  acknowledged : Bool := false
  lastEmitted : UInt64 := 0
  deriving DecidableEq

namespace Active

def key (item : Active) : AlarmKey := item.event.alarm

/-- The interval has passed since the alarm was last emitted, and the clock has not gone back. -/
def due (item : Active) (timestamp intervalMs : UInt64) : Bool :=
  !(timestamp < item.lastEmitted || timestamp - item.lastEmitted < intervalMs)

end Active

structure EventManager where
  active : Vector Active 128 := Vector.replicate 128 {}
  nextEventId : UInt32 := 1

namespace EventManager

def kCapacity : ℕ := 128

def find (m : EventManager) (address : UInt8) (type : LightEventType) : Option (Fin 128) :=
  (List.finRange 128).find? fun i =>
    let item := m.active.get i
    item.used && item.event.shortAddress = address && item.event.type = type

def unused (m : EventManager) : Option (Fin 128) :=
  (List.finRange 128).find? fun i => !(m.active.get i).used

/-- Write a slot through the pointer that a search returned. -/
def store (m : EventManager) (i : Fin 128) (item : Active) : EventManager :=
  { m with active := m.active.set i item }

def raise (m : EventManager) (event : LightEvent) : EventManager × Option EventTransition :=
  match m.find event.shortAddress event.type with
  | none =>
      match m.unused with
      | some i =>
          let assigned := event.eventId = 0
          let event := if assigned then { event with eventId := m.nextEventId } else event
          let nextEventId := if assigned then m.nextEventId + 1 else m.nextEventId
          ({ m.store i ⟨true, event, false, event.timestamp⟩ with nextEventId },
            some ⟨event, .activated, false⟩)
      | none => (m, none)
  | some i =>
      let existing := m.active.get i
      if existing.event.severity.code < event.severity.code then
        (m.store i { existing with event, lastEmitted := event.timestamp },
          some ⟨event, .escalated, existing.acknowledged⟩)
      else (m.store i { existing with event }, none)

def clear (m : EventManager) (address : UInt8) (type : LightEventType) (timestamp : UInt64) :
    EventManager × Option EventTransition :=
  match m.find address type with
  | none => (m, none)
  | some i =>
      let existing := m.active.get i
      let event := { existing.event with timestamp }
      (m.store i { existing with event, used := false },
        some ⟨event, .cleared, existing.acknowledged⟩)

def acknowledge (m : EventManager) (address : UInt8) (type : LightEventType) :
    EventManager × Bool :=
  match m.find address type with
  | none => (m, false)
  | some i => (m.store i { m.active.get i with acknowledged := true }, true)

def reminder (m : EventManager) (timestamp intervalMs : UInt64) :
    EventManager × Option EventTransition :=
  let isDue := fun i => (m.active.get i).used && (m.active.get i).due timestamp intervalMs
  match (List.finRange 128).find? isDue with
  | none => (m, none)
  | some i =>
      let item := m.active.get i
      let event := { item.event with timestamp }
      (m.store i { item with event, lastEmitted := timestamp },
        some ⟨event, .reminder, item.acknowledged⟩)

def activeCount (m : EventManager) : ℕ := m.active.countP (·.used)

end EventManager

/-- A call on the manager that changes its table. -/
inductive EventOp
  | raise (event : LightEvent)
  | clear (address : UInt8) (type : LightEventType) (timestamp : UInt64)
  | acknowledge (address : UInt8) (type : LightEventType)
  | reminder (timestamp intervalMs : UInt64)
  deriving DecidableEq

namespace EventManager

def apply (m : EventManager) : EventOp → EventManager × Option EventTransition
  | .raise event => m.raise event
  | .clear address type timestamp => m.clear address type timestamp
  | .acknowledge address type => ((m.acknowledge address type).1, none)
  | .reminder timestamp intervalMs => m.reminder timestamp intervalMs

/-- The manager as a machine: it reads a call and returns the transition to publish, if any. -/
def machine : Machine EventManager EventOp (Option EventTransition) := ⟨apply⟩

@[simp] theorem machine_step (m : EventManager) (op : EventOp) : machine.step m op = m.apply op :=
  rfl

/-- The state after the calls `ops` on an empty manager. -/
def run (ops : List EventOp) : EventManager := machine.after {} ops

/-- The transitions returned by the calls `ops` on an empty manager, in order. -/
def transitions (ops : List EventOp) : List EventTransition := (machine.outputs {} ops).reduceOption

@[simp] theorem run_nil : run [] = {} := rfl

theorem run_snoc (ops : List EventOp) (op : EventOp) :
    run (ops ++ [op]) = ((run ops).apply op).1 := machine.after_snoc {} ops op

theorem transitions_snoc (ops : List EventOp) (op : EventOp) :
    transitions (ops ++ [op]) = transitions ops ++ ((run ops).apply op).2.toList := by
  rw [transitions, Machine.outputs_snoc, List.reduceOption_append, List.reduceOption_singleton]
  rfl

def IsActive (m : EventManager) (k : AlarmKey) : Prop :=
  ∃ i : Fin 128, (m.active.get i).used = true ∧ (m.active.get i).key = k

def Stores (m : EventManager) (k : AlarmKey) (severity : EventSeverity) : Prop :=
  ∃ i : Fin 128, (m.active.get i).used = true ∧ (m.active.get i).key = k ∧
    (m.active.get i).event.severity = severity

def thermal (severity : EventSeverity) (timestamp : UInt64) : LightEvent :=
  { shortAddress := 3, type := .thermalWarning, severity, timestamp }

end EventManager

end DaliEdge
