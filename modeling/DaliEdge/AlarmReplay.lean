import DaliEdge.AlarmMap
import DaliEdge.History

/-!
# Replaying the transitions

A peer that sees only the transitions keeps a table of its own: the severity of every alarm it
knows. It agrees with the manager as long as no alarm is raised again with a severity below the
stored one. That call replaces the stored event and returns no transition, so from there on the
two tables differ.
-/

namespace DaliEdge

/-- What a peer knows: the severity of each active alarm. -/
abbrev PeerTable := AlarmKey → Option EventSeverity

namespace PeerTable

def receive (known : PeerTable) (t : EventTransition) : PeerTable :=
  let k := t.event.alarm
  match t.action with
  | .activated => Function.update known k (some t.event.severity)
  | .escalated => Function.update known k ((known k).map fun _ => t.event.severity)
  | .cleared => Function.update known k none
  | .reminder => known

def replay (ts : List EventTransition) : PeerTable := ts.foldl receive fun _ => none

theorem replay_append (ts us : List EventTransition) :
    replay (ts ++ us) = us.foldl receive (replay ts) := List.foldl_append

end PeerTable

open PeerTable

/-- An escalation is above the severity last received for its alarm. -/
def RisesAfter (received : List EventTransition) (t : EventTransition) : Prop :=
  t.action = .escalated →
    ∃ severity, replay received t.event.alarm = some severity ∧ severity.code < t.event.severity.code

/-- After every call of the run the replayed table is the manager's, and every escalation rises. -/
structure PeerAgrees (ops : List EventOp) : Prop where
  table : ∀ pre, pre <+: ops → ∀ k severity,
    replay (EventManager.transitions pre) k = some severity ↔
      (EventManager.run pre).Stores k severity
  rises : History.Each RisesAfter (EventManager.transitions ops)

/-- The call raises an active alarm with a severity below the stored one. -/
def EventManager.Lowers (m : EventManager) : EventOp → Prop
  | .raise event => ∃ severity, m.Stores event.alarm severity ∧ event.severity.code < severity.code
  | _ => False

/-! ## One step -/

namespace AlarmBoard

variable {b b' : AlarmBoard}

def severities (b : AlarmBoard) : PeerTable := fun k => (b.alarms k).map (·.event.severity)

theorem severities_of_alarms {k : AlarmKey}
    {item : Option Active} (h : b'.alarms = Function.update b.alarms k item) :
    b'.severities = Function.update b.severities k (item.map (·.event.severity)) := by
  funext k'
  rw [severities, h]
  by_cases hk : k' = k
  · rw [hk, Function.update_self, Function.update_self]
  · rw [Function.update_of_ne hk, Function.update_of_ne hk, severities]

theorem severities_present {k : AlarmKey} {item : Active} (h : b.alarms k = some item) :
    b.severities k = some item.event.severity := by
  rw [severities, h, Option.map_some]

theorem severities_kept {k : AlarmKey} {item item' : Active} (present : b.alarms k = some item)
    (updates : b.Updates b' k (some item')) (h : item'.event.severity = item.event.severity) :
    b'.severities = b.severities := by
  rw [severities_of_alarms updates.alarms_eq, Option.map_some, h]
  exact Function.update_eq_self_iff.2 (severities_present present).symm

def Lowers (b : AlarmBoard) : EventOp → Prop
  | .raise event =>
      ∃ severity, b.severities event.alarm = some severity ∧ event.severity.code < severity.code
  | _ => False

theorem not_lowers_raise_absent {event : LightEvent} (h : b.alarms event.alarm = none) :
    ¬ b.Lowers (.raise event) := by
  rintro ⟨severity, hsev, -⟩
  rw [severities, h] at hsev
  cases hsev

theorem lowers_raise_present {event : LightEvent} {item : Active}
    (h : b.alarms event.alarm = some item) :
    b.Lowers (.raise event) ↔ event.severity.code < item.event.severity.code := by
  constructor
  · rintro ⟨severity, hsev, hlt⟩
    obtain rfl := Option.some.inj ((severities_present h).symm.trans hsev)
    exact hlt
  · exact fun hlt => ⟨_, severities_present h, hlt⟩

/-- Overwriting a stored severity by one that is not above it keeps it exactly when the new one is
not below. -/
theorem severity_eq_iff {stored new : EventSeverity} (h : ¬ stored.code < new.code) :
    stored = new ↔ ¬ new.code < stored.code := by
  revert h
  cases stored <;> cases new <;> decide

/-- A table that agrees with the board before a step agrees after it, unless the step lowers a
stored severity. -/
theorem Step.receive_iff {op : EventOp} {out : Option EventTransition} (h : b.Step b' op out) :
    out.toList.foldl receive b.severities = b'.severities ↔ ¬ b.Lowers op := by
  cases h with
  | activate absent room alarms_eq next_eq =>
      refine iff_of_true ?_ (not_lowers_raise_absent absent)
      rw [severities_of_alarms alarms_eq]
      simp only [Option.toList_some, List.foldl_cons, List.foldl_nil, receive, alarm_stamp,
        Option.map_some]
  | overflow absent full same =>
      rw [same]
      exact iff_of_true rfl (not_lowers_raise_absent absent)
  | @escalate event item present above updates =>
      refine iff_of_true ?_ fun hlow =>
        UInt8.lt_asymm above ((lowers_raise_present present).1 hlow)
      rw [severities_of_alarms updates.alarms_eq]
      simp only [Option.toList_some, List.foldl_cons, List.foldl_nil, receive,
        severities_present present, Option.map_some]
  | @overwrite event item present notAbove updates =>
      rw [lowers_raise_present present, ← severity_eq_iff notAbove,
        severities_of_alarms updates.alarms_eq]
      change b.severities = _ ↔ _
      rw [Function.eq_update_self_iff, severities_present present]
      exact Option.some_inj
  | @clear address type timestamp item present updates =>
      refine iff_of_true ?_ id
      have hkey : item.key = (address, type) := (b.held _ _ present).2
      rw [severities_of_alarms updates.alarms_eq, ← hkey]
      rfl
  | acknowledge present updates =>
      exact iff_of_true (severities_kept present updates rfl).symm id
  | remind present due updates =>
      exact iff_of_true (severities_kept present updates rfl).symm id
  | clearAbsent _ same | acknowledgeAbsent _ same | quiet _ same =>
      rw [same]
      exact iff_of_true rfl id

theorem Step.rises {op : EventOp} {t : EventTransition} (h : b.Step b' op (some t))
    (ht : t.action = .escalated) :
    ∃ severity, b.severities t.event.alarm = some severity ∧
      severity.code < t.event.severity.code := by
  cases h with
  | escalate present above updates => exact ⟨_, severities_present present, above⟩
  | activate | clear | remind => cases ht

end AlarmBoard

/-! ## Runs -/

namespace EventManager

theorem lowers_iff {m : EventManager} (h : m.Keyed) (op : EventOp) :
    m.Lowers op ↔ m.board.Lowers op := by
  cases op with
  | raise event =>
      refine exists_congr fun severity => ?_
      rw [h.stores_iff]
      rfl
  | clear | acknowledge | reminder => exact Iff.rfl

theorem replay_snoc (ops : List EventOp) (op : EventOp) :
    replay (transitions (ops ++ [op])) =
      ((run ops).apply op).2.toList.foldl receive (replay (transitions ops)) := by
  rw [transitions_snoc, replay_append]

theorem peerTable_iff (ops : List EventOp) :
    (∀ k severity, replay (transitions ops) k = some severity ↔ (run ops).Stores k severity) ↔
      replay (transitions ops) = (run ops).board.severities := by
  constructor
  · intro h
    funext k
    apply Option.ext
    intro severity
    exact (h k severity).trans ((keyed_run ops).stores_iff k severity)
  · intro h k severity
    rw [h]
    exact ((keyed_run ops).stores_iff k severity).symm

theorem replay_snoc_iff {ops : List EventOp}
    (h : replay (transitions ops) = (run ops).board.severities) (op : EventOp) :
    replay (transitions (ops ++ [op])) = (run (ops ++ [op])).board.severities ↔
      ¬ (run ops).Lowers op := by
  rw [replay_snoc, h, lowers_iff (keyed_run ops)]
  exact (run_step ops op).receive_iff

theorem replay_nil : replay (transitions []) = (run []).board.severities := by
  funext k
  rw [AlarmBoard.severities, run_nil, board_init]
  rfl

theorem replay_of_meets {ops : List EventOp}
    (h : machine.Meets (fun m op => ¬ m.Lowers op) {} ops) :
    replay (transitions ops) = (run ops).board.severities := by
  refine machine.meets_induction
    (P := fun pre => replay (transitions pre) = (run pre).board.severities)
    replay_nil (fun pre op _ hop ih => ?_) h
  exact (replay_snoc_iff ih op).2 hop

theorem rises_of_meets {ops : List EventOp}
    (h : machine.Meets (fun m op => ¬ m.Lowers op) {} ops) :
    History.Each RisesAfter (transitions ops) := by
  refine machine.meets_induction (P := fun pre => History.Each RisesAfter (transitions pre))
    History.each_nil (fun pre op hpre _ ih => ?_) h
  rw [transitions_snoc, History.each_append_toList]
  refine ⟨ih, fun t ht hesc => ?_⟩
  have hstep := run_step pre op
  rw [ht] at hstep
  rw [replay_of_meets hpre]
  exact hstep.rises hesc

/-- A peer that replays the transitions agrees with the manager all along a run exactly when no
call of the run lowers the severity of an active alarm. -/
theorem peerAgrees_iff (ops : List EventOp) :
    PeerAgrees ops ↔ machine.Meets (fun m op => ¬ m.Lowers op) {} ops := by
  constructor
  · intro h
    rw [machine.meets_iff_forall_prefix]
    intro pre op hp
    have hbefore := (peerTable_iff pre).1 (h.table pre ((List.prefix_append pre [op]).trans hp))
    have hafter := (peerTable_iff (pre ++ [op])).1 (h.table (pre ++ [op]) hp)
    exact (replay_snoc_iff hbefore op).1 hafter
  · intro h
    refine ⟨fun pre hp => ?_, rises_of_meets h⟩
    exact (peerTable_iff pre).2 (replay_of_meets (Machine.Meets.of_prefix machine h hp))

theorem transitions_first (event : LightEvent) : transitions [.raise event] =
    [⟨(board {}).stamp event, .activated, false⟩] := by
  have hroom : (board {}).size < kCapacity := keyed_init.size_lt_of_free (used_init 0)
  have hstep := run_step [] (.raise event)
  have hout := (hstep.raise_absent (board_init event.alarm) hroom).1
  rw [← List.nil_append [EventOp.raise event], transitions_snoc, hout]
  rfl

theorem overwritten_first (first second : LightEvent) (hsame : second.alarm = first.alarm)
    (hle : ¬ first.severity.code < second.severity.code) :
    (run [.raise first, .raise second]).entry second.alarm =
        some ⟨true, second, false, first.timestamp⟩ ∧
      transitions [.raise first, .raise second] =
        [⟨(board {}).stamp first, .activated, false⟩] := by
  have hstored := entry_first first
  rw [← hsame] at hstored
  have hseverity : ((board {}).stamp first).severity = first.severity := by
    unfold AlarmBoard.stamp
    split_ifs <;> rfl
  have hstep := (run_step [.raise first] (.raise second)).raise_present hstored
  have hout := transitions_snoc [.raise first] (.raise second)
  rw [hseverity, if_neg hle, List.singleton_append] at hstep
  rw [transitions_first, hstep.1, List.singleton_append] at hout
  exact ⟨hstep.2, hout⟩

/-- The peer holds a critical alarm where the manager stores an informational one, and the next
escalation it receives is a warning. -/
theorem not_peerAgrees_after_lowering :
    ¬ PeerAgrees [.raise (thermal .critical 100), .raise (thermal .info 200)] ∧
      ¬ History.Each RisesAfter (transitions
        [.raise (thermal .critical 100), .raise (thermal .info 200),
          .raise (thermal .warning 300)]) := by
  obtain ⟨hentry, hsilent⟩ := overwritten_first (thermal .critical 100) (thermal .info 200) rfl
    (by decide)
  constructor
  · intro h
    have hstored : (run [.raise (thermal .critical 100), .raise (thermal .info 200)]).Stores
        (3, .thermalWarning) .info :=
      ((keyed_run _).stores_iff _ _).2 (congrArg (Option.map (·.event.severity)) hentry)
    have hreplayed := (h.table _ List.prefix_rfl (3, .thermalWarning) .info).2 hstored
    rw [hsilent] at hreplayed
    revert hreplayed
    decide
  · intro h
    have hstep := (run_step _ (.raise (thermal .warning 300))).raise_present hentry
    rw [if_pos (by decide)] at hstep
    have hlist := transitions_snoc [.raise (thermal .critical 100), .raise (thermal .info 200)]
      (.raise (thermal .warning 300))
    rw [hsilent, hstep.1, List.cons_append, List.singleton_append] at hlist
    obtain ⟨severity, hsev, hlt⟩ := h _ _ _ hlist rfl
    revert hlt
    obtain rfl : severity = .critical := (Option.some.inj hsev).symm
    decide

end EventManager

end DaliEdge
