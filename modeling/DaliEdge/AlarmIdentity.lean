import DaliEdge.AlarmMap
import DaliEdge.History

/-!
# The identity of an alarm

An alarm is activated under an id the manager assigns, and every later transition of that
activation should carry it. Raising an active alarm again stores the caller's event over the
activated one, id included. A run without such a call keeps its ids; after such a call the next
transition of the alarm has lost its own.
-/

namespace DaliEdge

def EventTransition.isActivation (t : EventTransition) : Bool := t.action = .activated

def activationIds (ts : List EventTransition) : List UInt32 :=
  (ts.filter (·.isActivation)).map (·.event.eventId)

def currentId (ts : List EventTransition) (k : AlarmKey) : Option UInt32 :=
  History.latest
    (fun t => if t.isActivation ∧ t.event.alarm = k then some t.event.eventId else none) ts

/-- An activation takes an id that is not zero and was not assigned before; every other transition
carries the id its alarm was last activated under. -/
def KeepsIdentity (before : List EventTransition) (t : EventTransition) : Prop :=
  if t.isActivation then t.event.eventId ≠ 0 ∧ t.event.eventId ∉ activationIds before
  else currentId before t.event.alarm = some t.event.eventId

theorem keepsIdentity_of_activation {before : List EventTransition} {t : EventTransition}
    (h : t.isActivation = true) : KeepsIdentity before t ↔
      t.event.eventId ≠ 0 ∧ t.event.eventId ∉ activationIds before := by
  rw [KeepsIdentity, if_pos h]

theorem keepsIdentity_of_not_activation {before : List EventTransition} {t : EventTransition}
    (h : t.isActivation = false) : KeepsIdentity before t ↔
      currentId before t.event.alarm = some t.event.eventId := by
  rw [KeepsIdentity, h, if_neg Bool.false_ne_true]

def StableIdentity (ops : List EventOp) : Prop :=
  History.Each KeepsIdentity (EventManager.transitions ops)

/-- The caller leaves the id of every raised event to the manager. -/
def Unassigned (ops : List EventOp) : Prop :=
  ∀ event, EventOp.raise event ∈ ops → event.eventId = 0

def EventManager.Reraises (m : EventManager) : EventOp → Prop
  | .raise event => m.IsActive event.alarm
  | _ => False

theorem Unassigned.of_prefix {ops pre : List EventOp} (h : Unassigned ops) (hp : pre <+: ops) :
    Unassigned pre := fun event hmem => h event (hp.subset hmem)

/-! ## Ids along a history -/

theorem activationIds_append_toList (ts : List EventTransition) (new : Option EventTransition) :
    activationIds (ts ++ new.toList) = activationIds ts ++ activationIds new.toList := by
  rw [activationIds, List.filter_append, List.map_append]
  rfl

theorem currentId_snoc (ts : List EventTransition) (t : EventTransition) (k : AlarmKey) :
    currentId (ts ++ [t]) k =
      if t.isActivation ∧ t.event.alarm = k then some t.event.eventId else currentId ts k := by
  rw [currentId, History.latest_snoc]
  split_ifs <;> rfl

theorem mem_activationIds_of_currentId {ts : List EventTransition} {k : AlarmKey} {eventId : UInt32}
    (h : currentId ts k = some eventId) : eventId ∈ activationIds ts := by
  obtain ⟨t, ht, hval⟩ := History.exists_of_latest _ h
  split_ifs at hval with hact
  obtain rfl := Option.some.inj hval
  exact List.mem_map_of_mem (List.mem_filter.2 ⟨ht, hact.1⟩)

theorem ne_zero_of_mem_activationIds {ts : List EventTransition}
    (h : History.Each KeepsIdentity ts) {eventId : UInt32} (hmem : eventId ∈ activationIds ts) :
    eventId ≠ 0 := by
  obtain ⟨t, ht, rfl⟩ := List.mem_map.1 hmem
  obtain ⟨hts, hact⟩ := List.mem_filter.1 ht
  obtain ⟨pre, post, rfl⟩ := List.append_of_mem hts
  have hkeeps := h pre t post rfl
  exact ((keepsIdentity_of_activation hact).1 hkeeps).1

/-! ## Assigned ids -/

/-- The ids of the first `n` activations. -/
def assignedIds (n : ℕ) : List UInt32 := (List.range n).map fun i => UInt32.ofNat (i + 1)

theorem assignedIds_succ (n : ℕ) : assignedIds (n + 1) = assignedIds n ++ [UInt32.ofNat (n + 1)] := by
  rw [assignedIds, List.range_succ, List.map_append]
  rfl

theorem toNat_ofNat_succ {i : ℕ} (h : i + 1 < 2 ^ 32) : (UInt32.ofNat (i + 1)).toNat = i + 1 :=
  UInt32.toNat_ofNat_of_lt' h

theorem next_fresh {n : ℕ} (h : n + 1 < 2 ^ 32) :
    UInt32.ofNat (n + 1) ≠ 0 ∧ UInt32.ofNat (n + 1) ∉ assignedIds n := by
  have hnext := toNat_ofNat_succ h
  constructor
  · intro hzero
    rw [hzero] at hnext
    exact absurd hnext (Nat.succ_ne_zero n).symm
  · intro hmem
    obtain ⟨i, hi, heq⟩ := List.mem_map.1 hmem
    have hlt := List.mem_range.1 hi
    have hval := congrArg UInt32.toNat heq
    rw [hnext, toNat_ofNat_succ (by omega)] at hval
    omega

/-- What holds of the board `b` after the history `ts` while no active alarm has been raised
again. -/
structure Identified (b : AlarmBoard) (ts : List EventTransition) : Prop where
  next : b.nextEventId = UInt32.ofNat ((activationIds ts).length + 1)
  ids : activationIds ts = assignedIds (activationIds ts).length
  current : ∀ k item, b.alarms k = some item → currentId ts k = some item.event.eventId
  stable : History.Each KeepsIdentity ts

namespace Identified

variable {b b' : AlarmBoard} {ts : List EventTransition}

/-- Every alarm of `b'` was held by `b` under the same id. -/
def SameIds (b b' : AlarmBoard) : Prop :=
  ∀ k item', b'.alarms k = some item' →
    ∃ item, b.alarms k = some item ∧ item.event.eventId = item'.event.eventId

theorem sameIds_of_updates {k : AlarmKey} {new : Option Active} (h : b.Updates b' k new)
    (hnew : ∀ item', new = some item' →
      ∃ item, b.alarms k = some item ∧ item.event.eventId = item'.event.eventId) :
    SameIds b b' := by
  intro k' item' hitem
  rw [h.alarms_eq] at hitem
  by_cases hk : k' = k
  · subst hk
    rw [Function.update_self] at hitem
    exact hnew item' hitem
  · rw [Function.update_of_ne hk] at hitem
    exact ⟨item', hitem, rfl⟩

theorem silent (h : Identified b ts) (hnext : b'.nextEventId = b.nextEventId)
    (hids : SameIds b b') : Identified b' ts := by
  refine ⟨hnext.trans h.next, h.ids, fun k item' hitem => ?_, h.stable⟩
  obtain ⟨item, hold, heq⟩ := hids k item' hitem
  rw [h.current k item hold, heq]

theorem report (h : Identified b ts) (item : Active) (hnext : b'.nextEventId = b.nextEventId)
    (hids : SameIds b b') {t : EventTransition} (hact : t.isActivation = false)
    (hitem : b.alarms t.event.alarm = some item) (heq : item.event.eventId = t.event.eventId) :
    Identified b' (ts ++ [t]) := by
  have hsame : activationIds (ts ++ [t]) = activationIds ts := by
    rw [activationIds, List.filter_append, List.filter_singleton, hact]
    simp [activationIds]
  have hcurrent : ∀ k, currentId (ts ++ [t]) k = currentId ts k := fun k => by
    rw [currentId_snoc, hact]
    simp
  refine ⟨?_, ?_, fun k item' hitem' => ?_, ?_⟩
  · rw [hsame]
    exact hnext.trans h.next
  · rw [hsame]
    exact h.ids
  · rw [hcurrent]
    exact (h.silent hnext hids).current k item' hitem'
  · refine (History.each_append_toList ts (some t)).2 ⟨h.stable, ?_⟩
    rintro _ ⟨⟩
    rw [keepsIdentity_of_not_activation hact, h.current _ item hitem, heq]

/-- An activation of an event that leaves its id to the manager. -/
theorem activate (h : Identified b ts) {event : LightEvent} (hid : event.eventId = 0)
    (halarms : b'.alarms = Function.update b.alarms event.alarm
      (some ⟨true, b.stamp event, false, (b.stamp event).timestamp⟩))
    (hnext : b'.nextEventId = b.stampedNext event)
    (hcount : (activationIds ts).length + 1 < 2 ^ 32) :
    Identified b' (ts ++ [⟨b.stamp event, .activated, false⟩]) := by
  have hstamp : (b.stamp event).eventId = b.nextEventId := by rw [AlarmBoard.stamp, if_pos hid]
  have hids : activationIds (ts ++ [⟨b.stamp event, .activated, false⟩]) =
      activationIds ts ++ [b.nextEventId] := by
    rw [← hstamp, activationIds, List.filter_append, List.map_append]
    rfl
  have hlen : (activationIds (ts ++ [⟨b.stamp event, .activated, false⟩])).length =
      (activationIds ts).length + 1 := by
    rw [hids, List.length_append, List.length_singleton]
  obtain ⟨hzero, hfresh⟩ := next_fresh hcount
  refine ⟨?_, ?_, fun k item hitem => ?_, ?_⟩
  · rw [hnext, AlarmBoard.stampedNext, if_pos hid, hlen, h.next]
    exact (UInt32.ofNat_add _ 1).symm
  · rw [hlen, hids, assignedIds_succ, ← h.ids, h.next]
  · rw [currentId_snoc, AlarmBoard.alarm_stamp]
    rw [halarms] at hitem
    by_cases hk : k = event.alarm
    · subst hk
      rw [Function.update_self] at hitem
      rw [if_pos ⟨rfl, rfl⟩, ← Option.some.inj hitem]
    · rw [Function.update_of_ne hk] at hitem
      rw [if_neg fun hboth => hk hboth.2.symm]
      exact h.current k item hitem
  · refine (History.each_append_toList ts (some _)).2 ⟨h.stable, ?_⟩
    rintro _ ⟨⟩
    rw [keepsIdentity_of_activation rfl, hstamp, h.next]
    exact ⟨hzero, fun hmem => hfresh (h.ids ▸ hmem)⟩

/-- A step that does not raise an active alarm keeps the ids. -/
theorem step (h : Identified b ts) {op : EventOp} {out : Option EventTransition}
    (hstep : b.Step b' op out)
    (hraise : ∀ event, op = .raise event → event.eventId = 0 ∧ b.alarms event.alarm = none)
    (hcount : (activationIds (ts ++ out.toList)).length < 2 ^ 32) :
    Identified b' (ts ++ out.toList) := by
  cases hstep with
  | activate absent room alarms_eq next_eq =>
      refine h.activate (hraise _ rfl).1 alarms_eq next_eq ?_
      rw [activationIds_append_toList, List.length_append] at hcount
      exact hcount
  | @escalate event item present above updates =>
      rw [(hraise event rfl).2] at present
      cases present
  | @overwrite event item present notAbove updates =>
      rw [(hraise event rfl).2] at present
      cases present
  | @clear address type timestamp item present updates =>
      have hkey : item.key = (address, type) := (b.held _ _ present).2
      refine h.report item updates.nextEventId_eq ?_ rfl ?_ rfl
      · exact sameIds_of_updates updates fun item' hitem => by cases hitem
      · exact (congrArg b.alarms hkey).trans present
  | acknowledge present updates =>
      rw [Option.toList_none, List.append_nil]
      refine h.silent updates.nextEventId_eq (sameIds_of_updates updates ?_)
      rintro _ ⟨⟩
      exact ⟨_, present, rfl⟩
  | remind present due updates =>
      refine h.report _ updates.nextEventId_eq ?_ rfl present rfl
      refine sameIds_of_updates updates ?_
      rintro _ ⟨⟩
      exact ⟨_, present, rfl⟩
  | overflow _ _ same | clearAbsent _ same | acknowledgeAbsent _ same | quiet _ same =>
      rw [Option.toList_none, List.append_nil, same]
      exact h

end Identified

/-! ## Runs -/

namespace EventManager

theorem identified_init : Identified (run []).board (transitions []) where
  next := rfl
  ids := rfl
  current k item h := by
    rw [run_nil, board_init] at h
    cases h
  stable := History.each_nil

theorem length_activationIds_le (ops : List EventOp) :
    (activationIds (transitions ops)).length ≤ ops.length := by
  rw [activationIds, List.length_map]
  calc ((transitions ops).filter (·.isActivation)).length
      ≤ (transitions ops).length := List.length_filter_le _ _
    _ ≤ (machine.outputs {} ops).length := List.reduceOption_length_le _
    _ = ops.length := machine.length_outputs {} ops

theorem absent_of_not_reraises {m : EventManager} (h : m.Keyed) {event : LightEvent}
    (hop : ¬ m.Reraises (.raise event)) : m.board.alarms event.alarm = none := by
  rw [Option.eq_none_iff_forall_ne_some]
  exact fun item hitem => hop ((h.isActive_iff _).2 ⟨item, hitem⟩)

theorem identified_of_meets {ops : List EventOp}
    (h : machine.Meets (fun m op => ¬ m.Reraises op) {} ops) (hids : Unassigned ops)
    (hcount : (activationIds (transitions ops)).length < 2 ^ 32) :
    Identified (run ops).board (transitions ops) := by
  revert hids hcount
  refine machine.meets_induction (P := fun pre => Unassigned pre →
    (activationIds (transitions pre)).length < 2 ^ 32 →
      Identified (run pre).board (transitions pre)) (fun _ _ => identified_init) ?_ h
  intro pre op hpre hop ih hids hcount
  rw [transitions_snoc] at hcount ⊢
  have hle : (activationIds (transitions pre)).length < 2 ^ 32 := by
    rw [activationIds_append_toList, List.length_append] at hcount
    omega
  refine (ih (hids.of_prefix (List.prefix_append pre [op])) hle).step (run_step pre op) ?_ hcount
  rintro event rfl
  refine ⟨hids event ?_, absent_of_not_reraises (keyed_run pre) hop⟩
  exact List.mem_append_right pre (List.mem_singleton_self _)

/-- After an active alarm has been raised again, clearing it returns an id it was not activated
under. -/
theorem not_stable_of_reraise {ops : List EventOp} (event : LightEvent) (hid : event.eventId = 0)
    (hactive : (run ops).IsActive event.alarm) (timestamp : UInt64) :
    ¬ StableIdentity
      (ops ++ [.raise event] ++ [.clear event.shortAddress event.type timestamp]) := by
  intro hstable
  obtain ⟨item, hitem⟩ := ((keyed_run ops).isActive_iff _).1 hactive
  obtain ⟨item', hstored, hevent⟩ : ∃ item',
      (run (ops ++ [.raise event])).board.alarms event.alarm = some item' ∧ item'.event = event := by
    have hraise := (run_step ops (.raise event)).raise_present hitem
    split_ifs at hraise
    · exact ⟨_, hraise.2, rfl⟩
    · exact ⟨_, hraise.2, rfl⟩
  obtain ⟨hout, -⟩ :=
    (run_step _ (.clear event.shortAddress event.type timestamp)).clear_present hstored
  rw [StableIdentity, transitions_snoc, hout, History.each_append_toList] at hstable
  have hcurrent := (keepsIdentity_of_not_activation rfl).1 (hstable.2 _ rfl)
  dsimp only at hcurrent
  rw [hevent, hid] at hcurrent
  exact ne_zero_of_mem_activationIds hstable.1 (mem_activationIds_of_currentId hcurrent) rfl

/-- A run keeps the identity of its alarms if none of its calls raises an active alarm; and once
a call does, the identity is lost at the latest when that alarm is cleared next. -/
theorem stableIdentity_runs (ops : List EventOp) (hids : Unassigned ops)
    (hcount : (activationIds (transitions ops)).length < 2 ^ 32) :
    (machine.Meets (fun m op => ¬ m.Reraises op) {} ops → StableIdentity ops) ∧
      (¬ machine.Meets (fun m op => ¬ m.Reraises op) {} ops →
        ∃ pre event, pre ++ [.raise event] <+: ops ∧ ∀ timestamp, ¬ StableIdentity
          (pre ++ [.raise event] ++ [.clear event.shortAddress event.type timestamp])) := by
  constructor
  · exact fun h => (identified_of_meets h hids hcount).stable
  · intro h
    obtain ⟨pre, op, hp, hop⟩ := machine.exists_prefix_of_not_meets h
    rw [not_not] at hop
    cases op with
    | raise event =>
        have hmem := hp.subset (List.mem_append_right pre (List.mem_singleton_self _))
        exact ⟨pre, event, hp, not_stable_of_reraise event (hids event hmem) hop⟩
    | clear | acknowledge | reminder => exact absurd hop id

/-- A warning raised twice and cleared: the last transition carries the id 0. -/
theorem not_stableIdentity_after_reraise :
    Unassigned [.raise (thermal .warning 100), .raise (thermal .warning 200),
        .clear 3 .thermalWarning 300] ∧
      (activationIds (transitions [.raise (thermal .warning 100), .raise (thermal .warning 200),
        .clear 3 .thermalWarning 300])).length < 2 ^ 32 ∧
      ¬ StableIdentity [.raise (thermal .warning 100), .raise (thermal .warning 200),
        .clear 3 .thermalWarning 300] := by
  refine ⟨?_, (length_activationIds_le _).trans_lt (by decide), ?_⟩
  · intro event hmem
    simp only [List.mem_cons, EventOp.raise.injEq, List.not_mem_nil, or_false, reduceCtorEq] at hmem
    rcases hmem with rfl | rfl <;> rfl
  · have hactive : (run [.raise (thermal .warning 100)]).IsActive (3, .thermalWarning) :=
      ((keyed_run _).isActive_iff _).2 ⟨_, entry_first (thermal .warning 100)⟩
    exact not_stable_of_reraise (thermal .warning 200) rfl hactive 300

/-- An alarm raised, reminded of, cleared and raised again. -/
theorem stableIdentity_two_activations :
    StableIdentity [.raise (thermal .warning 100), .reminder 500 200,
      .clear 3 .thermalWarning 600, .raise (thermal .warning 700)] := by
  have hids : Unassigned [.raise (thermal .warning 100), .reminder 500 200,
      .clear 3 .thermalWarning 600, .raise (thermal .warning 700)] := by
    intro event hmem
    simp only [List.mem_cons, EventOp.raise.injEq, List.not_mem_nil, or_false, false_or,
      reduceCtorEq] at hmem
    rcases hmem with rfl | rfl <;> rfl
  have hcount := (length_activationIds_le [.raise (thermal .warning 100), .reminder 500 200,
    .clear 3 .thermalWarning 600, .raise (thermal .warning 700)]).trans_lt (by decide : 4 < 2 ^ 32)
  refine (stableIdentity_runs _ hids hcount).1 ⟨?_, id, id, ?_, trivial⟩
  · exact keyed_init.not_isActive_of_entry (board_init _)
  · have hkeyed := keyed_run [.raise (thermal .warning 100), .reminder 500 200]
    have hcleared := (hkeyed.entry_clear 3 .thermalWarning 600).1
    exact (hkeyed.clear_step 3 .thermalWarning 600).1.not_isActive_of_entry hcleared

end EventManager

end DaliEdge
