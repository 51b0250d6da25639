import DaliEdge.AlarmMap
import DaliEdge.History

/-!
# Acknowledged alarms

The table keeps one flag for an alarm that is acknowledged. It says what the log of calls and
transitions says: the flag is set when the alarm was acknowledged after it was last activated,
whatever escalated, overwrote or repeated it in between. Every transition carries the flag as it
stands.
-/

namespace DaliEdge

namespace EventManager

abbrev LogEntry := EventOp × Option EventTransition

/-- The calls on an empty manager with what they returned, oldest first. -/
def log (ops : List EventOp) : List LogEntry := ops.zip (machine.outputs {} ops)

theorem log_snoc (ops : List EventOp) (op : EventOp) :
    log (ops ++ [op]) = log ops ++ [(op, ((run ops).apply op).2)] := by
  rw [log, Machine.outputs_snoc, List.zip_append (machine.length_outputs _ _).symm]
  rfl

def Activates (k : AlarmKey) (entry : LogEntry) : Prop :=
  ∃ t, entry.2 = some t ∧ t.action = .activated ∧ t.event.alarm = k

def Acknowledges (k : AlarmKey) (entry : LogEntry) : Prop := entry.1 = .acknowledge k.1 k.2

/-- The alarm was acknowledged, and not activated since. -/
def AcknowledgedSince (k : AlarmKey) (entries : List LogEntry) : Prop :=
  History.Since (Acknowledges k) (fun entry => ¬ Activates k entry) entries

end EventManager

open EventManager (LogEntry Activates Acknowledges AcknowledgedSince)

namespace AlarmBoard

variable {b b' : AlarmBoard} {op : EventOp} {out : Option EventTransition} {k : AlarmKey}

/-- How an alarm comes by the flag it has after a step. -/
inductive FlagStep (b : AlarmBoard) (k : AlarmKey) (entry : LogEntry) (item : Active) : Prop
  | activated (activates : Activates k entry) (silent : ¬ Acknowledges k entry)
      (unset : item.acknowledged = false)
  | acknowledged {old : Active} (present : b.alarms k = some old)
      (acknowledges : Acknowledges k entry) (set : item.acknowledged = true)
  | kept {old : Active} (present : b.alarms k = some old) (silent : ¬ Acknowledges k entry)
      (lasting : ¬ Activates k entry) (same : item.acknowledged = old.acknowledged)

theorem not_activates_of_action {t : EventTransition} (h : t.action ≠ .activated) :
    ¬ Activates k (op, some t) := by
  rintro ⟨_, ⟨⟩, haction, -⟩
  exact h haction

theorem not_activates_none : ¬ Activates k (op, none) := by
  rintro ⟨t, ht, -⟩
  cases ht

theorem Step.flag_of_ne (h : b.Step b' op out) (hk : op.alarm? out ≠ some k) {item : Active}
    (hitem : b'.alarms k = some item) : b.FlagStep k (op, out) item := by
  rw [h.other k hk] at hitem
  refine .kept hitem ?_ ?_ rfl
  · intro hacknowledges
    obtain rfl : op = .acknowledge k.1 k.2 := hacknowledges
    exact hk rfl
  · rintro ⟨t, rfl, haction, rfl⟩
    cases h with
    | @activate event => exact hk (congrArg some (b.alarm_stamp event).symm)
    | escalate | clear | remind => cases haction

theorem Step.flag (h : b.Step b' op out) {item : Active} (hitem : b'.alarms k = some item) :
    b.FlagStep k (op, out) item := by
  by_cases hk : op.alarm? out = some k
  swap
  · exact h.flag_of_ne hk hitem
  cases h with
  | @activate event absent room alarms_eq next_eq =>
      obtain rfl : event.alarm = k := Option.some.inj hk
      rw [alarms_eq, Function.update_self] at hitem
      obtain rfl := Option.some.inj hitem
      exact .activated ⟨_, rfl, rfl, b.alarm_stamp event⟩ nofun rfl
  | @escalate event old present above updates =>
      obtain rfl : event.alarm = k := Option.some.inj hk
      obtain rfl := Option.some.inj (updates.self.symm.trans hitem)
      exact .kept present nofun (not_activates_of_action nofun) rfl
  | @overwrite event old present notAbove updates =>
      obtain rfl : event.alarm = k := Option.some.inj hk
      obtain rfl := Option.some.inj (updates.self.symm.trans hitem)
      exact .kept present nofun not_activates_none rfl
  | @clear address type timestamp old present updates =>
      obtain rfl : (address, type) = k := Option.some.inj hk
      exact absurd (updates.self.symm.trans hitem) nofun
  | @acknowledge address type old present updates =>
      obtain rfl : (address, type) = k := Option.some.inj hk
      obtain rfl := Option.some.inj (updates.self.symm.trans hitem)
      exact .acknowledged present rfl rfl
  | @remind timestamp intervalMs old present due updates =>
      obtain rfl : old.key = k := Option.some.inj hk
      obtain rfl := Option.some.inj (updates.self.symm.trans hitem)
      exact .kept present nofun (not_activates_of_action nofun) rfl
  | @overflow _ absent _ same | @clearAbsent _ _ _ absent same
  | @acknowledgeAbsent _ _ absent same =>
      obtain rfl := Option.some.inj hk
      rw [same] at hitem
      exact absurd (absent.symm.trans hitem) nofun
  | quiet => cases hk

theorem Step.flag_of_transition {t : EventTransition} (h : b.Step b' op (some t)) :
    t.action = .activated ∧ t.acknowledged = false ∨
      t.action ≠ .activated ∧
        ∃ old, b.alarms t.event.alarm = some old ∧ t.acknowledged = old.acknowledged := by
  cases h with
  | activate => exact .inl ⟨rfl, rfl⟩
  | escalate present => exact .inr ⟨nofun, _, present, rfl⟩
  | @clear address type timestamp old present updates =>
      have hkey : old.event.alarm = (address, type) := (b.held _ _ present).2
      rw [← hkey] at present
      exact .inr ⟨nofun, _, present, rfl⟩
  | remind present => exact .inr ⟨nofun, _, present, rfl⟩

end AlarmBoard

namespace EventManager

/-- An active alarm is marked as acknowledged when it was acknowledged after its activation. -/
theorem acknowledged_iff_since (ops : List EventOp) {k : AlarmKey} {item : Active}
    (hitem : (run ops).entry k = some item) :
    item.acknowledged = true ↔ AcknowledgedSince k (log ops) := by
  induction ops using List.reverseRecOn generalizing item with
  | nil =>
      rw [run_nil, entry, board_init] at hitem
      cases hitem
  | append_singleton ops op ih =>
      rw [log_snoc, AcknowledgedSince, History.since_snoc]
      cases (run_step ops op).flag hitem with
      | activated activates silent unset =>
          refine iff_of_false (Bool.not_eq_true _ ▸ unset) ?_
          rintro (hacknowledges | ⟨hlasting, -⟩)
          · exact silent hacknowledges
          · exact hlasting activates
      | acknowledged present acknowledges set => exact iff_of_true set (.inl acknowledges)
      | kept present silent lasting same =>
          rw [or_iff_right silent, and_iff_right lasting, same]
          exact ih present

theorem log_told (ops : List EventOp) :
    History.Each (fun before entry => ∀ t, entry.2 = some t →
      (t.acknowledged = true ↔
        t.action ≠ .activated ∧ AcknowledgedSince t.event.alarm before)) (log ops) := by
  induction ops using List.reverseRecOn with
  | nil => exact History.each_nil
  | append_singleton ops op ih =>
      rw [log_snoc, History.each_append_iff, History.each_singleton, List.append_nil]
      refine ⟨ih, fun t ht => ?_⟩
      have hstep := run_step ops op
      rw [ht] at hstep
      rcases hstep.flag_of_transition with ⟨haction, hflag⟩ | ⟨haction, old, hold, hflag⟩
      · rw [haction, hflag]
        simp
      · rw [and_iff_right haction, hflag]
        exact acknowledged_iff_since ops hold

/-- After every run the flag of each active alarm, the flag of each transition at the time it was
emitted, and the answer to a further acknowledgement say what the log says. -/
theorem acknowledgements_told (ops : List EventOp) :
    (∀ k item, (run ops).entry k = some item →
      (item.acknowledged = true ↔ AcknowledgedSince k (log ops))) ∧
    History.Each (fun before entry => ∀ t, entry.2 = some t →
      (t.acknowledged = true ↔
        t.action ≠ .activated ∧ AcknowledgedSince t.event.alarm before)) (log ops) ∧
    ∀ k : AlarmKey, ((run ops).acknowledge k.1 k.2).2 = true ↔ (run ops).IsActive k := by
  refine ⟨fun k item hitem => acknowledged_iff_since ops hitem, log_told ops, fun k => ?_⟩
  have hactive := (keyed_run ops).isActive_iff k
  rw [← Option.ne_none_iff_exists', ne_eq, ← find_eq_none_iff] at hactive
  rw [hactive, acknowledge]
  cases (run ops).find k.1 k.2 with
  | none => simp
  | some i => simp

end EventManager

end DaliEdge
