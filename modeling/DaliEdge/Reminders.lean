import DaliEdge.AlarmMap
import DaliEdge.Drains
import DaliEdge.History
import Mathlib.Data.Set.Finite.Range

/-!
# Reminders

A call for a reminder repeats one alarm whose interval has passed, and marks it as emitted now. So
the calls of one moment drain what is due, each alarm once. The stored time is that of the alarm's
latest transition, which is why a reminder keeps its distance from the transition before it.
-/

namespace DaliEdge

/-- The time at which the transition activates, escalates or repeats the alarm. -/
def EventTransition.emission (k : AlarmKey) (t : EventTransition) : Option UInt64 :=
  if t.event.alarm = k ∧ t.action ≠ .cleared then some t.event.timestamp else none

theorem EventTransition.emission_eq {t : EventTransition} {k : AlarmKey} (hk : t.event.alarm = k)
    (h : t.action ≠ .cleared) : t.emission k = some t.event.timestamp := if_pos ⟨hk, h⟩

theorem EventTransition.emission_of_ne {t : EventTransition} {k : AlarmKey}
    (h : k ≠ t.event.alarm) : t.emission k = none := if_neg fun ht => h ht.1.symm

theorem Active.due_iff (item : Active) (timestamp intervalMs : UInt64) :
    item.due timestamp intervalMs = true ↔
      item.lastEmitted.toNat + intervalMs.toNat ≤ timestamp.toNat := by
  rw [Active.due, Bool.not_eq_true', Bool.or_eq_false_iff, decide_eq_false_iff_not,
    decide_eq_false_iff_not, UInt64.not_lt, UInt64.not_lt]
  constructor
  · rintro ⟨hle, hinterval⟩
    rw [UInt64.le_iff_toNat_le, UInt64.toNat_sub_of_le _ _ hle] at hinterval
    rw [UInt64.le_iff_toNat_le] at hle
    omega
  · intro h
    have hle : item.lastEmitted ≤ timestamp := UInt64.le_iff_toNat_le.2 (by omega)
    rw [UInt64.le_iff_toNat_le (b := timestamp - item.lastEmitted), UInt64.toNat_sub_of_le _ _ hle]
    exact ⟨hle, by omega⟩

/-! ## One step -/

namespace AlarmBoard

variable {b b' : AlarmBoard} {op : EventOp} {out : Option EventTransition}

/-- A step that writes one alarm, and emits it at the time it stores or keeps that time in
silence. -/
theorem lastEmitted_of_alarms {k₀ k : AlarmKey} {new : Option Active} {item : Active}
    (halarms : b'.alarms = Function.update b.alarms k₀ new)
    (hout : ∀ t, out = some t → t.event.alarm = k₀)
    (hnew : ∀ item, new = some item →
      (∃ t, out = some t ∧ t.action ≠ .cleared ∧ t.event.timestamp = item.lastEmitted) ∨
        out = none ∧ (b.alarms k₀).map (·.lastEmitted) = some item.lastEmitted)
    (hitem : b'.alarms k = some item) :
    (out.bind (·.emission k)).or ((b.alarms k).map (·.lastEmitted)) = some item.lastEmitted := by
  rw [halarms] at hitem
  by_cases hk : k = k₀
  · subst hk
    rw [Function.update_self] at hitem
    rcases hnew item hitem with ⟨t, rfl, haction, htime⟩ | ⟨rfl, hkept⟩
    · rw [Option.bind_some, EventTransition.emission_eq (hout t rfl) haction, htime]
      rfl
    · exact hkept
  · rw [Function.update_of_ne hk] at hitem
    have hsilent : out.bind (·.emission k) = none := by
      cases out with
      | none => rfl
      | some t =>
          apply EventTransition.emission_of_ne
          rw [hout t rfl]
          exact hk
    rw [hsilent, hitem]
    rfl

/-- After a step the stored time of an alarm is that of the transition, where this emits the alarm,
and else what it was. -/
theorem Step.lastEmitted (h : b.Step b' op out) {k : AlarmKey} {item : Active}
    (hitem : b'.alarms k = some item) :
    (out.bind (·.emission k)).or ((b.alarms k).map (·.lastEmitted)) = some item.lastEmitted := by
  cases h with
  | @activate event absent room alarms_eq next_eq =>
      apply lastEmitted_of_alarms alarms_eq _ _ hitem
      · rintro t ⟨⟩
        exact b.alarm_stamp event
      · rintro item ⟨⟩
        exact .inl ⟨_, rfl, nofun, rfl⟩
  | escalate present above updates =>
      apply lastEmitted_of_alarms updates.alarms_eq _ _ hitem
      · rintro t ⟨⟩
        rfl
      · rintro item ⟨⟩
        exact .inl ⟨_, rfl, nofun, rfl⟩
  | overwrite present notAbove updates =>
      apply lastEmitted_of_alarms updates.alarms_eq _ _ hitem
      · rintro t ⟨⟩
      · rintro item ⟨⟩
        rw [present]
        exact .inr ⟨rfl, rfl⟩
  | @clear address type timestamp item₀ present updates =>
      apply lastEmitted_of_alarms updates.alarms_eq _ _ hitem
      · rintro t ⟨⟩
        exact (b.held _ _ present).2
      · rintro item ⟨⟩
  | acknowledge present updates =>
      apply lastEmitted_of_alarms updates.alarms_eq _ _ hitem
      · rintro t ⟨⟩
      · rintro item ⟨⟩
        rw [present]
        exact .inr ⟨rfl, rfl⟩
  | remind present due updates =>
      apply lastEmitted_of_alarms updates.alarms_eq _ _ hitem
      · rintro t ⟨⟩
        rfl
      · rintro item ⟨⟩
        exact .inl ⟨_, rfl, nofun, rfl⟩
  | overflow _ _ same | clearAbsent _ same | acknowledgeAbsent _ same | quiet _ same =>
      rw [same] at hitem
      rw [hitem]
      rfl

end AlarmBoard

namespace EventManager

variable {m : EventManager} {timestamp intervalMs : UInt64}

/-- The alarm of this entry is active, and its last emission lies at least the interval before the
time. -/
def DueEntry (timestamp intervalMs : UInt64) (entry : Option Active) : Prop :=
  ∃ item, entry = some item ∧ item.lastEmitted.toNat + intervalMs.toNat ≤ timestamp.toNat

/-- What a reminder says of an entry, and what it leaves there. -/
def Repeats (timestamp : UInt64) (before : Option Active) (t : EventTransition)
    (after : Option Active) : Prop :=
  ∃ item, before = some item ∧ t = ⟨{ item.event with timestamp }, .reminder, item.acknowledged⟩ ∧
    after = some { item with event := { item.event with timestamp }, lastEmitted := timestamp }

theorem Keyed.finite_due (h : m.Keyed) : {k | DueEntry timestamp intervalMs (m.entry k)}.Finite := by
  apply (Set.finite_range fun i : Fin 128 => (m.active.get i).key).subset
  rintro k ⟨item, hitem, -⟩
  obtain ⟨i, -, hkey, -⟩ := (h.entry_eq_some_iff k item).1 hitem
  exact ⟨i, hkey⟩

/-- The calls of one moment drain the due alarms. -/
theorem reminder_drains (hinterval : 0 < intervalMs) :
    machine.Drains (.reminder timestamp intervalMs) Keyed entry (·.event.alarm)
      (DueEntry timestamp intervalMs) (Repeats timestamp) where
  keeps s hs := (hs.apply_step _).1
  quiet s hs hnone k := by
    have hstep := (hs.apply_step (.reminder timestamp intervalMs)).2
    rw [machine_step] at hnone
    rw [hnone] at hstep
    cases hstep with
    | quiet rest same =>
        constructor
        · rintro ⟨item, hitem, hdue⟩
          rw [← item.due_iff, rest k item hitem] at hdue
          cases hdue
        · exact congrFun (congrArg AlarmBoard.alarms same) k
  served s hs o hout := by
    have hstep := (hs.apply_step (.reminder timestamp intervalMs)).2
    rw [machine_step] at hout
    rw [hout] at hstep
    cases hstep with
    | remind present due updates =>
        exact ⟨⟨_, present, (Active.due_iff _ _ _).1 due⟩, _, present, rfl, updates.self⟩
  others s hs o hout k hk := by
    apply (hs.apply_step (.reminder timestamp intervalMs)).2.other
    rw [machine_step] at hout
    rw [hout]
    exact fun heq => hk (Option.some.inj heq).symm
  settled := by
    rintro before t after ⟨item, -, -, rfl⟩ ⟨item', ⟨⟩, hdue⟩
    rw [UInt64.lt_iff_toNat_lt] at hinterval
    exact absurd hdue (by simpa using hinterval.ne')

theorem lastEmitted_run (ops : List EventOp) {k : AlarmKey} {item : Active}
    (h : (run ops).entry k = some item) :
    History.latest (·.emission k) (transitions ops) = some item.lastEmitted := by
  induction ops using List.reverseRecOn generalizing item with
  | nil =>
      rw [entry, run_nil, board_init] at h
      cases h
  | append_singleton ops op ih =>
      have hstep := (run_step ops op).lastEmitted h
      rw [transitions_snoc, History.latest_append_toList]
      cases hbefore : (run ops).board.alarms k with
      | none =>
          rw [hbefore, Option.map_none, Option.or_none] at hstep
          rw [hstep, Option.some_or]
      | some before =>
          rw [hbefore, Option.map_some] at hstep
          rw [ih hbefore, hstep]

theorem reminder_apart (ops : List EventOp) {t : EventTransition}
    (h : ((run ops).reminder timestamp intervalMs).2 = some t) :
    t.event.timestamp = timestamp ∧ ∃ emitted,
      History.latest (·.emission t.event.alarm) (transitions ops) = some emitted ∧
        emitted.toNat + intervalMs.toNat ≤ timestamp.toNat := by
  have hstep := ((keyed_run ops).reminder_step timestamp intervalMs).2
  rw [h] at hstep
  cases hstep with
  | remind present due updates =>
      exact ⟨rfl, _, lastEmitted_run ops present, (Active.due_iff _ _ _).1 due⟩

/-- The calls of one moment remind of every due alarm once, in as many calls as there are due
alarms, return nothing after that, and leave the alarms that are not due. The time by which an
alarm is due is that of its latest emission, so a reminder comes at least its interval after the
alarm was last activated, escalated or repeated. -/
theorem reminders_drain (ops : List EventOp) (timestamp intervalMs : UInt64) :
    let m := run ops
    let due := {k | DueEntry timestamp intervalMs (m.entry k)}
    let calls := fun n => List.replicate n (EventOp.reminder timestamp intervalMs)
    (0 < intervalMs →
      (∃ reminded : List EventTransition,
        (∀ more, machine.outputs m (calls (due.ncard + more)) =
          reminded.map some ++ List.replicate more none) ∧
        (reminded.map (·.event.alarm)).Nodup ∧
        (∀ k, k ∈ reminded.map (·.event.alarm) ↔ k ∈ due) ∧
        ∀ t ∈ reminded, Repeats timestamp (m.entry t.event.alarm) t
          ((machine.after m (calls due.ncard)).entry t.event.alarm)) ∧
      ∀ k, k ∉ due → ∀ n, (machine.after m (calls n)).entry k = m.entry k) ∧
    (∀ k item, m.entry k = some item →
      History.latest (·.emission k) (transitions ops) = some item.lastEmitted) ∧
    ∀ t, (m.reminder timestamp intervalMs).2 = some t →
      t.event.timestamp = timestamp ∧ ∃ emitted,
        History.latest (·.emission t.event.alarm) (transitions ops) = some emitted ∧
          emitted.toNat + intervalMs.toNat ≤ timestamp.toNat := by
  intro m due calls
  have hkeyed := keyed_run ops
  refine ⟨fun hinterval => ?_, fun k item => lastEmitted_run ops, fun t => reminder_apart ops⟩
  have hdrains : machine.Drains (.reminder timestamp intervalMs) Keyed entry _ _ _ :=
    reminder_drains hinterval
  obtain ⟨reminded, houts, hnodup, hkeys, hall, hnone⟩ :=
    hdrains.drained hkeyed hkeyed.finite_due rfl
  constructor
  · refine ⟨reminded, fun more => ?_, hnodup, hkeys, hall⟩
    have hafter : (machine.after m (calls due.ncard)).Keyed :=
      machine.after_induction (fun _ op h => (h.apply_step op).1) hkeyed _
    change machine.outputs m (List.replicate (due.ncard + more) _) = _
    rw [List.replicate_add, Machine.outputs_append, houts, hdrains.silent hafter hnone]
  · intro k hk n
    exact hdrains.kept hkeyed hk n

/-- Once its interval has passed an alarm is repeated once, and keeps the time of that. -/
theorem reminders_drain_due :
    (∀ more, machine.outputs (run [.raise (thermal .warning 90)])
        (List.replicate (1 + more) (.reminder 200 50)) =
      some ⟨{ thermal .warning 200 with eventId := 1 }, .reminder, false⟩ ::
        List.replicate more none) ∧
    (machine.after (run [.raise (thermal .warning 90)]) [.reminder 200 50]).entry
        (3, .thermalWarning) =
      some ⟨true, { thermal .warning 200 with eventId := 1 }, false, 200⟩ := by
  have hentry := entry_first (thermal .warning 90)
  have hdue : {k | DueEntry 200 50 ((run [.raise (thermal .warning 90)]).entry k)} =
      {(3, .thermalWarning)} := by
    ext k
    constructor
    · rintro ⟨item, hitem, -⟩
      by_contra hk
      have hne : k ≠ (thermal .warning 90).alarm := hk
      rw [entry_first_of_ne _ hne] at hitem
      cases hitem
    · rintro rfl
      exact ⟨_, hentry, by decide⟩
  obtain ⟨⟨reminded, houts, hnodup, hmem, hall⟩, -⟩ :=
    (reminders_drain [.raise (thermal .warning 90)] 200 50).1 (by decide)
  rw [hdue] at houts hmem hall
  rw [Set.ncard_singleton] at houts hall
  have hsingle : reminded.map (·.event.alarm) = [(3, .thermalWarning)] := by
    rw [← List.perm_singleton, List.perm_ext_iff_of_nodup hnodup (List.nodup_singleton _)]
    intro k
    rw [hmem, Set.mem_singleton_iff, List.mem_singleton]
  obtain ⟨t, rfl, halarm⟩ := List.map_eq_singleton_iff.1 hsingle
  obtain ⟨item, hbefore, rfl, hafter⟩ := hall t List.mem_cons_self
  rw [halarm] at hbefore hafter
  obtain rfl := Option.some.inj (hentry.symm.trans hbefore)
  exact ⟨houts, hafter⟩

end EventManager

end DaliEdge
