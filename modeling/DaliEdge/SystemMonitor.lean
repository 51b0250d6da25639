import DaliEdge.History
import DaliEdge.Machine
import Mathlib.Data.UInt
import Mathlib.Order.MinMax

/-!
# The system monitor

Tasks report that they are alive, and queues how full they have been. The monitor keeps the last
report of each of its 16 tasks and the greatest of each of its 16 queues; whether the system is
healthy depends on the last heartbeat of every expected task and on nothing else.
-/

namespace DaliEdge

structure SystemMonitor where
  heartbeats : Vector UInt64 16 := Vector.replicate 16 0
  seen : Vector Bool 16 := Vector.replicate 16 false
  queueHighWaters : Vector ℕ 16 := Vector.replicate 16 0
  expectedTasks : ℕ := 0
  expectedTasks_le : expectedTasks ≤ 16 := by decide

namespace SystemMonitor

abbrev kMaximumTasks : ℕ := 16

abbrev kMaximumQueues : ℕ := 16

def setExpectedTaskCount (count : ℕ) (monitor : SystemMonitor) : SystemMonitor :=
  if h : count > kMaximumTasks then
    { monitor with expectedTasks := kMaximumTasks, expectedTasks_le := Nat.le_refl _ }
  else { monitor with expectedTasks := count, expectedTasks_le := Nat.le_of_not_gt h }

def heartbeat (taskId : ℕ) (timestampMs : UInt64) (monitor : SystemMonitor) : SystemMonitor :=
  if h : taskId < kMaximumTasks then
    { monitor with
      heartbeats := monitor.heartbeats.set taskId timestampMs
      seen := monitor.seen.set taskId true }
  else monitor

def healthy (nowMs timeoutMs : UInt64) (monitor : SystemMonitor) : Bool :=
  (List.finRange monitor.expectedTasks).all fun task =>
    let task := task.castLE monitor.expectedTasks_le
    !(!monitor.seen[task] || nowMs < monitor.heartbeats[task] ||
      nowMs - monitor.heartbeats[task] > timeoutMs)

def recordQueueHighWater (queueId value : ℕ) (monitor : SystemMonitor) : SystemMonitor :=
  if h : queueId < kMaximumQueues then
    if value > monitor.queueHighWaters[queueId] then
      { monitor with queueHighWaters := monitor.queueHighWaters.set queueId value }
    else monitor
  else monitor

def queueHighWater (queueId : ℕ) (monitor : SystemMonitor) : ℕ :=
  if h : queueId < kMaximumQueues then monitor.queueHighWaters[queueId] else 0

end SystemMonitor

def SystemMonitorTask.runOnce (nowMs : UInt64) (monitor : SystemMonitor) : SystemMonitor :=
  monitor.heartbeat 0 nowMs

inductive MonitorOp
  | setExpectedTaskCount (count : ℕ)
  | heartbeat (taskId : ℕ) (timestampMs : UInt64)
  | recordQueueHighWater (queueId value : ℕ)
  | runOnce (nowMs : UInt64)

namespace MonitorOp

/-- The heartbeat that the operation is for the task. -/
def beat (task : ℕ) : MonitorOp → Option UInt64
  | heartbeat taskId timestampMs => if taskId = task then some timestampMs else none
  | runOnce nowMs => if 0 = task then some nowMs else none
  | _ => none

/-- The fill that the operation reports of the queue. -/
def fill (queue : ℕ) : MonitorOp → Option ℕ
  | recordQueueHighWater queueId value => if queueId = queue then some value else none
  | _ => none

def expected : MonitorOp → Option ℕ
  | setExpectedTaskCount count => some count
  | _ => none

end MonitorOp

namespace SystemMonitor

def machine : Machine SystemMonitor MonitorOp Unit where
  step monitor
    | .setExpectedTaskCount count => (monitor.setExpectedTaskCount count, ())
    | .heartbeat taskId timestampMs => (monitor.heartbeat taskId timestampMs, ())
    | .recordQueueHighWater queueId value => (monitor.recordQueueHighWater queueId value, ())
    | .runOnce nowMs => (SystemMonitorTask.runOnce nowMs monitor, ())

def lastBeat (monitor : SystemMonitor) (task : Fin 16) : Option UInt64 :=
  if monitor.seen[task] then some monitor.heartbeats[task] else none

variable (monitor : SystemMonitor)

/-! ## One operation -/

theorem lastBeat_heartbeat (taskId : ℕ) (timestampMs : UInt64) (task : Fin 16) :
    (monitor.heartbeat taskId timestampMs).lastBeat task =
      if taskId = task then some timestampMs else monitor.lastBeat task := by
  unfold heartbeat
  by_cases hlt : taskId < kMaximumTasks
  · rw [dif_pos hlt]
    change (if (monitor.seen.set taskId true hlt)[task.val] then
      some (monitor.heartbeats.set taskId timestampMs hlt)[task.val] else none) = _
    rw [Vector.getElem_set, Vector.getElem_set]
    by_cases hid : taskId = task
    · rw [if_pos hid, if_pos hid, if_pos hid, if_pos rfl]
    · rw [if_neg hid, if_neg hid, if_neg hid]
      rfl
  · have hid : taskId ≠ task := fun h => hlt (h ▸ task.isLt)
    rw [dif_neg hlt, if_neg hid]

theorem healthy_iff (nowMs timeoutMs : UInt64) : monitor.healthy nowMs timeoutMs = true ↔
    ∀ task : Fin 16, task < monitor.expectedTasks → ∃ beat, monitor.lastBeat task = some beat ∧
      beat ≤ nowMs ∧ nowMs - beat ≤ timeoutMs := by
  have htask (task : Fin 16) : (!(!monitor.seen[task] || nowMs < monitor.heartbeats[task] ||
      nowMs - monitor.heartbeats[task] > timeoutMs)) = true ↔
        ∃ beat, monitor.lastBeat task = some beat ∧ beat ≤ nowMs ∧ nowMs - beat ≤ timeoutMs := by
    unfold lastBeat
    by_cases hseen : monitor.seen[task] = true
    · simp only [hseen, if_true, Option.some.injEq, exists_eq_left', Bool.not_true, Bool.false_or,
        Bool.not_or, Bool.and_eq_true, Bool.not_eq_true', decide_eq_false_iff_not, gt_iff_lt,
        UInt64.not_lt]
    · simp [hseen]
  unfold healthy
  simp only [List.all_eq_true, List.mem_finRange, true_imp_iff]
  constructor
  · exact fun h task hlt => (htask task).1 (h ⟨task, hlt⟩)
  · exact fun h task => (htask _).2 (h _ task.isLt)

theorem expectedTasks_setExpectedTaskCount (count : ℕ) :
    (monitor.setExpectedTaskCount count).expectedTasks = min count 16 := by
  unfold setExpectedTaskCount
  split_ifs with h
  · exact (Nat.min_eq_right h.le).symm
  · exact (Nat.min_eq_left (Nat.le_of_not_gt h)).symm

theorem queueHighWater_recordQueueHighWater (queueId value queue : ℕ) :
    (monitor.recordQueueHighWater queueId value).queueHighWater queue =
      if queueId = queue ∧ queue < 16 then max (monitor.queueHighWater queue) value
      else monitor.queueHighWater queue := by
  unfold recordQueueHighWater
  by_cases hlt : queueId < kMaximumQueues
  · rw [dif_pos hlt]
    by_cases hgreater : value > monitor.queueHighWaters[queueId]
    · rw [if_pos hgreater]
      unfold queueHighWater
      by_cases hqueue : queue < kMaximumQueues
      · simp only [dif_pos hqueue, Vector.getElem_set]
        by_cases hid : queueId = queue
        · subst hid
          rw [if_pos rfl, if_pos ⟨rfl, hlt⟩, max_eq_right hgreater.le]
        · rw [if_neg hid, if_neg fun h => hid h.1]
      · simp only [dif_neg hqueue]
        rw [if_neg fun h => hqueue h.2]
    · rw [if_neg hgreater]
      split_ifs with h
      · obtain ⟨rfl, -⟩ := h
        rw [queueHighWater, dif_pos hlt]
        exact (max_eq_left (Nat.le_of_not_gt hgreater)).symm
      · rfl
  · have hout : ¬ (queueId = queue ∧ queue < 16) := fun h => hlt (h.1 ▸ h.2)
    rw [dif_neg hlt, if_neg hout]

/-! ## Runs -/

theorem lastBeat_step (op : MonitorOp) (task : Fin 16) :
    (machine.step monitor op).1.lastBeat task = (op.beat task).or (monitor.lastBeat task) := by
  cases op with
  | setExpectedTaskCount count =>
      simp only [machine, MonitorOp.beat, Option.none_or, setExpectedTaskCount]
      split_ifs <;> rfl
  | heartbeat taskId timestampMs =>
      simp only [machine, MonitorOp.beat, lastBeat_heartbeat]
      split_ifs <;> rfl
  | recordQueueHighWater queueId value =>
      simp only [machine, MonitorOp.beat, Option.none_or, recordQueueHighWater]
      split_ifs <;> rfl
  | runOnce nowMs =>
      simp only [machine, MonitorOp.beat, SystemMonitorTask.runOnce, lastBeat_heartbeat]
      split_ifs <;> rfl

theorem queueHighWater_step (op : MonitorOp) {queue : ℕ} (hqueue : queue < 16) :
    (machine.step monitor op).1.queueHighWater queue =
      ((op.fill queue).toList).foldl max (monitor.queueHighWater queue) := by
  cases op with
  | setExpectedTaskCount count =>
      simp only [machine, MonitorOp.fill, setExpectedTaskCount]
      split_ifs <;> rfl
  | heartbeat taskId timestampMs =>
      simp only [machine, MonitorOp.fill, heartbeat]
      split_ifs <;> rfl
  | recordQueueHighWater queueId value =>
      simp only [machine, MonitorOp.fill, queueHighWater_recordQueueHighWater, hqueue, and_true]
      split_ifs <;> rfl
  | runOnce nowMs =>
      simp only [machine, MonitorOp.fill, SystemMonitorTask.runOnce, heartbeat]
      split_ifs <;> rfl

theorem expectedTasks_step (op : MonitorOp) :
    (machine.step monitor op).1.expectedTasks =
      (op.expected.map fun count => min count 16).getD monitor.expectedTasks := by
  cases op with
  | setExpectedTaskCount count => exact expectedTasks_setExpectedTaskCount monitor count
  | heartbeat taskId timestampMs =>
      simp only [machine, heartbeat]
      split_ifs <;> rfl
  | recordQueueHighWater queueId value =>
      simp only [machine, recordQueueHighWater]
      split_ifs <;> rfl
  | runOnce nowMs =>
      simp only [machine, SystemMonitorTask.runOnce, heartbeat]
      split_ifs <;> rfl

theorem kept_after (ops : List MonitorOp) :
    (∀ task : Fin 16, (machine.after {} ops).lastBeat task =
        History.latest (MonitorOp.beat task) ops) ∧
      (machine.after {} ops).expectedTasks =
        min ((History.latest MonitorOp.expected ops).getD 0) 16 ∧
      ∀ queue < 16, (machine.after {} ops).queueHighWater queue =
        (ops.filterMap (MonitorOp.fill queue)).foldl max 0 := by
  induction ops using List.reverseRecOn with
  | nil =>
      refine ⟨fun task => ?_, rfl, fun queue hqueue => ?_⟩
      · simp [lastBeat]
      · simp [queueHighWater, hqueue]
  | append_singleton ops op ih =>
      obtain ⟨hbeat, hexpected, hfill⟩ := ih
      rw [Machine.after_snoc]
      refine ⟨fun task => ?_, ?_, fun queue hqueue => ?_⟩
      · rw [lastBeat_step, hbeat, History.latest_snoc]
      · rw [expectedTasks_step, hexpected, History.latest_snoc]
        cases op.expected <;> rfl
      · rw [queueHighWater_step _ op hqueue, hfill queue hqueue, List.filterMap_append,
          List.foldl_append, List.filterMap_cons, List.filterMap_nil]
        cases op.fill queue <;> rfl

/-- After any run of reports the system is healthy exactly if each task that is then expected has
sent a heartbeat and the last one lies within the timeout, not in the future; tasks and queues from
16 on are not watched. The fill reported of a queue is the greatest that was recorded. -/
theorem watched (ops : List MonitorOp) (nowMs timeoutMs : UInt64) :
    let monitor := machine.after {} ops
    (monitor.healthy nowMs timeoutMs = true ↔
      ∀ task < min ((History.latest MonitorOp.expected ops).getD 0) 16,
        ∃ beat, History.latest (MonitorOp.beat task) ops = some beat ∧
          beat.toNat ≤ nowMs.toNat ∧ nowMs.toNat ≤ beat.toNat + timeoutMs.toNat) ∧
      ∀ queue, monitor.queueHighWater queue =
        if queue < 16 then (ops.filterMap (MonitorOp.fill queue)).foldl max 0 else 0 := by
  intro monitor
  obtain ⟨hbeat, hexpected, hfill⟩ := kept_after ops
  constructor
  · have hrange (beat : UInt64) : (beat ≤ nowMs ∧ nowMs - beat ≤ timeoutMs) ↔
        (beat.toNat ≤ nowMs.toNat ∧ nowMs.toNat ≤ beat.toNat + timeoutMs.toNat) := by
      rw [UInt64.le_iff_toNat_le]
      refine and_congr_right fun hle => ?_
      rw [UInt64.le_iff_toNat_le, UInt64.toNat_sub_of_le _ _ (UInt64.le_iff_toNat_le.2 hle)]
      omega
    simp only [healthy_iff, monitor, hexpected, hbeat, hrange]
    constructor
    · exact fun h task htask => h ⟨task, htask.trans_le (min_le_right _ _)⟩ htask
    · exact fun h task htask => h task htask
  · intro queue
    split_ifs with hqueue
    · exact hfill queue hqueue
    · exact dif_neg hqueue

end SystemMonitor

end DaliEdge
