import DaliEdge.FrameErrors
import DaliEdge.Machine
import DaliEdge.RingBuffer
import Mathlib.Data.List.Forall2

/-!
# The event history

A ring of 128 stored events, each with a checksum over the bytes in front of it. Appending seals
the event and drops the oldest when the ring is full; recovery passes over the records whose
checksum does not match. The checksum loop is the one of the frame codec, so a changed `crc` and
an error inside sixteen consecutive bits are both seen, and recovery returns the records that
nothing happened to.
-/

namespace DaliEdge

open RingBuffer ShiftRegister

/-- The object representation of a stored event: the `n` bytes in front of the member `crc`, with
their padding, and `crc`. -/
structure StoredEvent (n : ℕ) where
  bytes : Vector UInt8 n
  crc : UInt16 := 0
  deriving DecidableEq

namespace StoredEvent

variable {n : ℕ}

def checksum (event : StoredEvent n) : UInt16 :=
  event.bytes.toList.foldl FrameCodec.crcByte 0xFFFF

/-- The record that `append` stores. -/
def sealed (event : StoredEvent n) : StoredEvent n :=
  let event := { event with crc := 0 }
  { event with crc := event.checksum }

theorem crc_sealed (event : StoredEvent n) : event.sealed.crc = event.sealed.checksum := rfl

end StoredEvent

structure EventHistory (n : ℕ) where
  records : Vector (StoredEvent n) 128
  head : ℕ := 0
  size : ℕ := 0
  size_le : size ≤ 128 := by decide

namespace EventHistory

variable {n : ℕ}

/-- The array index `(head_ + i) % kCapacity`. -/
def slot (history : EventHistory n) (i : ℕ) : Fin 128 := RingBuffer.index 128 history.head i

def append (event : StoredEvent n) (history : EventHistory n) : Bool × EventHistory n :=
  let records := history.records.set (history.slot history.size) event.sealed
  if h : history.size < 128 then (true, ⟨records, history.head, history.size + 1, h⟩)
  else (true, ⟨records, (history.head + 1) % 128, history.size, history.size_le⟩)

def recover (history : EventHistory n) : List (StoredEvent n) :=
  (List.range history.size).foldl (fun recovered i =>
    let event := history.records.get (history.slot i)
    if event.crc = event.checksum then recovered ++ [event] else recovered) []

/-- Put `event` in the place of a retained record, counted from the oldest. -/
def damage (place : ℕ) (event : StoredEvent n) (history : EventHistory n) : EventHistory n :=
  if place < history.size then
    { history with records := history.records.set (history.slot place) event }
  else history

def corruptNewestForTest (history : EventHistory n) : EventHistory n :=
  if history.size = 0 then history
  else
    let index := history.slot (history.size - 1)
    let newest := history.records.get index
    { history with records := history.records.set index { newest with crc := newest.crc ^^^ 0xFFFF } }

def contents (history : EventHistory n) : List (StoredEvent n) :=
  RingBuffer.contents history.records history.head history.size

@[simp] theorem length_contents (history : EventHistory n) :
    history.contents.length = history.size :=
  RingBuffer.length_contents ..

theorem contents_append (event : StoredEvent n) (history : EventHistory n) :
    (history.append event).2.contents = (history.contents ++ [event.sealed]).rtake 128 := by
  obtain ⟨records, head, size, hle⟩ := history
  rw [append]
  split_ifs with h
  · exact contents_grow records head h event.sealed
  · obtain rfl : size = 128 := Nat.le_antisymm hle (not_lt.1 h)
    exact contents_overwrite records head event.sealed

theorem contents_damage (place : ℕ) (event : StoredEvent n) (history : EventHistory n) :
    (history.damage place event).contents = history.contents.set place event := by
  rw [damage]
  split_ifs with h
  · exact contents_set history.records history.head history.size_le h event
  · rw [List.set_eq_of_length_le]
    rw [length_contents]
    exact not_lt.1 h

theorem corruptNewestForTest_eq (history : EventHistory n) {newest : StoredEvent n}
    (h : history.contents[history.size - 1]? = some newest) :
    history.corruptNewestForTest =
      history.damage (history.size - 1) { newest with crc := newest.crc ^^^ 0xFFFF } := by
  have hlt := (List.getElem?_eq_some_iff.1 h).1
  rw [length_contents] at hlt
  have hnewest : history.records.get (history.slot (history.size - 1)) = newest := by
    rw [contents, getElem?_contents _ _ hlt] at h
    exact Option.some_inj.1 h
  rw [corruptNewestForTest, damage, if_neg (by omega), if_pos hlt]
  simp only [hnewest]

theorem corruptNewestForTest_empty (history : EventHistory n) (h : history.size = 0) :
    history.corruptNewestForTest = history := by
  rw [corruptNewestForTest, if_pos h]

theorem recover_eq (history : EventHistory n) :
    history.recover = history.contents.filter fun event => event.crc = event.checksum := by
  have hloop : ∀ (is : List ℕ) (recovered : List (StoredEvent n)),
      is.foldl (fun recovered i =>
        let event := history.records.get (history.slot i)
        if event.crc = event.checksum then recovered ++ [event] else recovered) recovered =
      recovered ++ (is.map fun i => history.records.get (history.slot i)).filter
        fun event => event.crc = event.checksum := by
    intro is
    induction is with
    | nil => intro recovered; simp
    | cons i is ih =>
        intro recovered
        rw [List.foldl_cons, ih, List.map_cons]
        dsimp only
        split_ifs with h
        · rw [List.filter_cons_of_pos (by simpa using h), List.append_assoc]
          rfl
        · rw [List.filter_cons_of_neg (by simpa using h)]
  exact hloop (List.range history.size) []

theorem length_recover_le (history : EventHistory n) : history.recover.length ≤ 128 := by
  rw [recover_eq]
  refine (List.length_filter_le _ _).trans ?_
  rw [length_contents]
  exact history.size_le

end EventHistory

end DaliEdge
