import DaliEdge.EventHistory

/-!
# Damage to the event history

Between appends, retained records may be damaged: the `crc` of a record may change, or an error
inside sixteen consecutive bits may hit the bytes that the checksum covers. What should be left
is a window of the last 128 records, each marked once it was damaged. The ring holds that window,
and recovery returns its intact records.
-/

namespace DaliEdge

open ShiftRegister

/-- The checksum sees an error that fits into sixteen consecutive bits. -/
theorem FrameCodec.crc_ne_of_window {bytes errors : List UInt8} (h : bytes.length = errors.length)
    (hflip : true ∈ bits errors) (k : ℕ)
    (hwindow : ∀ i, (bits errors)[i]? = some true → k ≤ i ∧ i < k + 16) :
    crc (List.zipWith (fun a b => a ^^^ b) bytes errors) ≠ crc bytes := by
  intro heq
  have hsum := feed_bits_xor crcTaps 0xFFFF#16 0#16 bytes errors h
  rw [BitVec.xor_zero, ← toBitVec_crc, ← toBitVec_crc, heq] at hsum
  have hzero : feed crcTaps 0#16 (bits errors) = 0#16 := by
    rw [← BitVec.xor_right_inj (crc bytes).toBitVec, ← hsum, BitVec.xor_zero]
  exact feed_ne_zero_of_window crcTaps msb_crcTaps _ k hwindow hflip hzero

theorem StoredEvent.crc_xor_ne (crc : UInt16) : crc ^^^ 0xFFFF ≠ crc := by
  intro h
  have hmask : (0xFFFF : UInt16) = 0 := by
    rw [← UInt16.xor_right_inj crc, h, UInt16.xor_zero]
  exact absurd hmask (by decide)

namespace EventHistory

variable {n : ℕ}

/-- The kinds of damage: another `crc`, or flipped bits in a window of sixteen in front of it,
the lowest bit of each byte first. -/
inductive Damages (event damaged : StoredEvent n) : Prop
  | crc (hbytes : damaged.bytes = event.bytes) (hcrc : damaged.crc ≠ event.crc)
  | burst (errors : List UInt8) (k : ℕ) (hlength : errors.length = n)
      (hcrc : damaged.crc = event.crc)
      (hbytes : damaged.bytes.toList = List.zipWith (fun a b => a ^^^ b) event.bytes.toList errors)
      (hflip : true ∈ bits errors)
      (hwindow : ∀ i, (bits errors)[i]? = some true → k ≤ i ∧ i < k + 16)

theorem Damages.crc_ne {event damaged : StoredEvent n} (h : Damages event damaged)
    (hevent : event.crc = event.checksum) : damaged.crc ≠ damaged.checksum := by
  cases h with
  | crc hbytes hcrc =>
      rw [StoredEvent.checksum, hbytes]
      change damaged.crc ≠ event.checksum
      rwa [← hevent]
  | burst errors k hlength hcrc hbytes hflip hwindow =>
      have hsame : event.bytes.toList.length = errors.length :=
        event.bytes.length_toList.trans hlength.symm
      have hne := FrameCodec.crc_ne_of_window hsame hflip k hwindow
      rw [hcrc, hevent, StoredEvent.checksum, StoredEvent.checksum, hbytes]
      exact Ne.symm hne

/-! ## The window that should be left -/

/-- A retained record as it was appended, and whether it is undamaged. -/
structure Retained (n : ℕ) where
  record : StoredEvent n
  intact : Bool

inductive HistoryOp (n : ℕ)
  | append (event : StoredEvent n)
  | damage (place : ℕ) (event : StoredEvent n)
  | corruptNewestForTest

def storage : Machine (EventHistory n) (HistoryOp n) Unit where
  step history
    | .append event => ((history.append event).2, ())
    | .damage place event => (history.damage place event, ())
    | .corruptNewestForTest => (history.corruptNewestForTest, ())

def mark (place : ℕ) (window : List (Retained n)) : List (Retained n) :=
  window.modify place fun retained => { retained with intact := false }

/-- The last 128 records, whatever happens to them. -/
def retention : Machine (List (Retained n)) (HistoryOp n) Unit where
  step window
    | .append event => (List.rtake (window ++ [⟨event.sealed, true⟩]) 128, ())
    | .damage place _ => (mark place window, ())
    | .corruptNewestForTest => (mark (window.length - 1) window, ())

theorem retention_append (window : List (Retained n)) (event : StoredEvent n) :
    (retention.step window (.append event)).1 =
      List.rtake (window ++ [⟨event.sealed, true⟩]) 128 := by
  simp only [retention]

/-- The operation damages a retained record, or appends one. -/
def IsDamage (window : List (Retained n)) : HistoryOp n → Prop
  | .append _ => True
  | .damage place event => ∃ retained, window[place]? = some retained ∧
      Damages retained.record event
  | .corruptNewestForTest => ∀ retained, window[window.length - 1]? = some retained →
      retained.intact = true

def HistoryOp.record : HistoryOp n → Option (StoredEvent n)
  | .append event => some event.sealed
  | .damage _ _ => none
  | .corruptNewestForTest => none

def appended (ops : List (HistoryOp n)) : List (StoredEvent n) := ops.filterMap HistoryOp.record

/-! ## The ring holds the window -/

/-- What a slot of the ring holds for a retained record. -/
structure Retained.Holds (retained : Retained n) (event : StoredEvent n) : Prop where
  crc_eq : retained.record.crc = retained.record.checksum
  of_intact : retained.intact = true → event = retained.record
  of_damaged : retained.intact = false → Damages retained.record event

theorem Retained.Holds.crc_eq_iff {retained : Retained n} {event : StoredEvent n}
    (h : retained.Holds event) : event.crc = event.checksum ↔ retained.intact = true := by
  constructor
  · intro hcrc
    by_contra hintact
    exact (h.of_damaged (Bool.not_eq_true _ ▸ hintact)).crc_ne h.crc_eq hcrc
  · intro hintact
    rw [h.of_intact hintact]
    exact h.crc_eq

theorem Retained.holds_sealed (event : StoredEvent n) :
    Retained.Holds ⟨event.sealed, true⟩ event.sealed :=
  ⟨event.crc_sealed, fun _ => rfl, fun h => by cases h⟩

theorem filter_eq_of_holds {window : List (Retained n)} {contents : List (StoredEvent n)}
    (h : List.Forall₂ Retained.Holds window contents) :
    (contents.filter fun event => event.crc = event.checksum) =
      (window.filter Retained.intact).map Retained.record := by
  induction h with
  | nil => rfl
  | @cons retained event window contents hhead _ ih =>
      by_cases hintact : retained.intact = true
      · rw [List.filter_cons_of_pos (by simpa using hhead.crc_eq_iff.2 hintact),
          List.filter_cons_of_pos hintact, List.map_cons, ih, hhead.of_intact hintact]
      · rw [List.filter_cons_of_neg (by simpa using mt hhead.crc_eq_iff.1 hintact),
          List.filter_cons_of_neg hintact, ih]

theorem forall₂_mark_set {window : List (Retained n)} {contents : List (StoredEvent n)}
    (h : List.Forall₂ Retained.Holds window contents) {place : ℕ} {retained : Retained n}
    {event : StoredEvent n} (hplace : window[place]? = some retained)
    (hdamages : Damages retained.record event) :
    List.Forall₂ Retained.Holds (mark place window) (contents.set place event) := by
  rw [mark]
  induction h generalizing place with
  | nil => cases hplace
  | @cons first slot window contents hhead htail ih =>
      cases place with
      | zero =>
          obtain rfl : first = retained := Option.some_inj.1 hplace
          exact .cons ⟨hhead.crc_eq, fun hintact => (by cases hintact), fun _ => hdamages⟩ htail
      | succ place => exact .cons hhead (ih hplace)

theorem forall₂_rtake {window : List (Retained n)} {contents : List (StoredEvent n)}
    (h : List.Forall₂ Retained.Holds window contents) (k : ℕ) :
    List.Forall₂ Retained.Holds (window.rtake k) (contents.rtake k) := by
  rw [List.rtake, List.rtake, h.length_eq]
  exact List.forall₂_drop _ h

theorem getElem?_of_holds {window : List (Retained n)} {contents : List (StoredEvent n)}
    (h : List.Forall₂ Retained.Holds window contents) {place : ℕ} {retained : Retained n}
    (hplace : window[place]? = some retained) :
    ∃ event, contents[place]? = some event ∧ retained.Holds event := by
  induction h generalizing place with
  | nil => cases hplace
  | @cons first slot window contents hhead _ ih =>
      cases place with
      | zero =>
          obtain rfl : first = retained := Option.some_inj.1 hplace
          exact ⟨slot, rfl, hhead⟩
      | succ place => exact ih hplace

theorem step_holds {window : List (Retained n)} {history : EventHistory n}
    (h : List.Forall₂ Retained.Holds window history.contents) (op : HistoryOp n)
    (hop : IsDamage window op) :
    List.Forall₂ Retained.Holds (retention.step window op).1 (storage.step history op).1.contents := by
  cases op with
  | append event =>
      have hstored : (storage.step history (.append event)).1 = (history.append event).2 := rfl
      rw [retention_append, hstored, contents_append]
      exact forall₂_rtake (List.rel_append h (.cons (Retained.holds_sealed event) .nil)) 128
  | damage place event =>
      obtain ⟨retained, hplace, hdamages⟩ := hop
      change List.Forall₂ _ (mark place window) (history.damage place event).contents
      rw [contents_damage]
      exact forall₂_mark_set h hplace hdamages
  | corruptNewestForTest =>
      change List.Forall₂ _ (mark (window.length - 1) window) history.corruptNewestForTest.contents
      have hlength : window.length = history.size := h.length_eq.trans history.length_contents
      cases hplace : window[window.length - 1]? with
      | none =>
          have hempty : window.length = 0 := by
            have hle := List.getElem?_eq_none_iff.1 hplace
            omega
          rw [corruptNewestForTest_empty history (hlength.symm.trans hempty)]
          rw [List.length_eq_zero_iff.1 hempty] at h ⊢
          exact h
      | some retained =>
          obtain ⟨newest, hnewest, hholds⟩ := getElem?_of_holds h hplace
          have heq := hholds.of_intact (hop retained hplace)
          rw [hlength] at hnewest hplace ⊢
          rw [corruptNewestForTest_eq history hnewest, contents_damage, heq]
          exact forall₂_mark_set h hplace (.crc rfl (StoredEvent.crc_xor_ne _))

theorem after_holds (records : Vector (StoredEvent n) 128) {ops : List (HistoryOp n)}
    (h : retention.Meets IsDamage [] ops) :
    List.Forall₂ Retained.Holds (retention.after [] ops)
      (storage.after { records := records } ops).contents := by
  refine Machine.meets_induction retention (P := fun ops => List.Forall₂ Retained.Holds
    (retention.after [] ops) (storage.after { records := records } ops).contents) .nil ?_ h
  intro ops op _ hop ih
  rw [Machine.after_snoc, Machine.after_snoc]
  exact step_holds ih op hop

/-! ## The records that are retained -/

theorem map_record_mark (place : ℕ) (window : List (Retained n)) :
    (mark place window).map Retained.record = window.map Retained.record := by
  apply List.ext_getElem?
  intro i
  rw [mark, List.getElem?_map, List.getElem?_map, List.getElem?_modify]
  cases window[i]? with
  | none => rfl
  | some retained =>
      change some (if place = i then _ else _ : Retained n).record = _
      split_ifs <;> rfl

theorem map_record_after (ops : List (HistoryOp n)) :
    (retention.after [] ops).map Retained.record = (appended ops).rtake 128 := by
  induction ops using List.reverseRecOn with
  | nil => exact (List.rtake_nil 128).symm
  | append_singleton ops op ih =>
      have hsnoc : appended (ops ++ [op]) = appended ops ++ [op].filterMap HistoryOp.record :=
        List.filterMap_append
      rw [Machine.after_snoc, hsnoc]
      cases op with
      | append event =>
          rw [retention_append, RingBuffer.map_rtake, List.map_append, ih]
          exact RingBuffer.rtake_rtake_append (appended ops) event.sealed 128
      | damage place event =>
          change (mark place (retention.after [] ops)).map Retained.record =
            (appended ops ++ []).rtake 128
          rw [map_record_mark, ih, List.append_nil]
      | corruptNewestForTest =>
          change (mark ((retention.after [] ops).length - 1) (retention.after [] ops)).map
            Retained.record = (appended ops ++ []).rtake 128
          rw [map_record_mark, ih, List.append_nil]

theorem contents_after_appends (records : Vector (StoredEvent n) 128)
    (events : List (StoredEvent n)) :
    (storage.after { records := records } (events.map .append)).contents =
      (events.map StoredEvent.sealed).rtake 128 := by
  induction events using List.reverseRecOn with
  | nil => exact (List.rtake_nil 128).symm
  | append_singleton events event ih =>
      rw [List.map_append, List.map_append, List.map_singleton, List.map_singleton,
        Machine.after_snoc, ← RingBuffer.rtake_rtake_append, ← ih]
      exact contents_append event _

/-- The history holds the last 128 records, and whichever of them are damaged, recovery returns
the others unaltered and in order. -/
theorem recover_after (records : Vector (StoredEvent n) 128) :
    (∀ events : List (StoredEvent n),
      (storage.after { records := records } (events.map .append)).contents =
        (events.map StoredEvent.sealed).rtake 128) ∧
    ∀ ops : List (HistoryOp n), retention.Meets IsDamage [] ops →
      let history := storage.after { records := records } ops
      let window := retention.after [] ops
      history.size = min (appended ops).length 128 ∧
        window.map Retained.record = (appended ops).rtake 128 ∧
        List.Forall₂ Retained.Holds window history.contents ∧
        history.recover = (window.filter Retained.intact).map Retained.record := by
  refine ⟨contents_after_appends records, fun ops h => ?_⟩
  have hholds := after_holds records h
  have hwindow := map_record_after ops
  have hsize : (retention.after [] ops).length = min (appended ops).length 128 := by
    have hlength := congrArg List.length hwindow
    rw [List.length_map, List.rtake, List.length_drop] at hlength
    omega
  refine ⟨?_, hwindow, hholds, ?_⟩
  · rw [← hsize, hholds.length_eq, length_contents]
  · rw [recover_eq, filter_eq_of_holds hholds]

def testEvent (b : UInt8) : StoredEvent 2 := { bytes := #v[b, 0] }

/-- An error hits two bits of the first event and the `crc` of the third is corrupted. -/
def damagedRun : List (HistoryOp 2) :=
  [.append (testEvent 1), .append (testEvent 2), .append (testEvent 3),
    .damage 0 { (testEvent 1).sealed with bytes := #v[1, 5] }, .corruptNewestForTest]

theorem recover_after_damagedRun :
    (storage.after { records := Vector.replicate 128 (testEvent 0) } damagedRun).recover =
      [(testEvent 2).sealed] := by
  have hdamages : Damages (testEvent 1).sealed { (testEvent 1).sealed with bytes := #v[1, 5] } := by
    have hwindow : ∀ i < 16, (bits [0, 5])[i]? = some true → 8 ≤ i ∧ i < 24 := by decide
    exact .burst [0, 5] 8 rfl (by dsimp only) rfl (by decide) fun i hi =>
      hwindow i (List.getElem?_eq_some_iff.1 hi).1 hi
  have hmeets : retention.Meets IsDamage [] damagedRun := by
    refine ⟨trivial, trivial, trivial, ⟨⟨(testEvent 1).sealed, true⟩, ?_, hdamages⟩, ?_, trivial⟩
    · simp only [retention_append]
      rfl
    · intro retained h
      cases h
      rfl
  exact ((recover_after (Vector.replicate 128 (testEvent 0))).2 damagedRun hmeets).2.2.2

end EventHistory

end DaliEdge
