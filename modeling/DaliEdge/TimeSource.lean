import DaliEdge.History
import DaliEdge.Machine
import Mathlib.Data.UInt
import Mathlib.Logic.Function.Basic

/-!
# The time source

A task that asks for the time copies the last synchronisation inside a critical section and reads
the timer after it, and other tasks come between. So an answer belongs to one synchronisation, the
last before the task's copy, with the uptime at its end; it never mixes two of them.
-/

namespace DaliEdge

/-- What the critical sections protect. -/
structure EspTimeSource where
  unixAtSyncSeconds : UInt64 := 0
  uptimeAtSyncMs : UInt64 := 0
  synchronised : Bool := false
  deriving DecidableEq

namespace EspTimeSource

def synchroniseUnixTime (unixSeconds uptimeAtSyncMs : UInt64) (_source : EspTimeSource) :
    EspTimeSource :=
  ⟨unixSeconds, uptimeAtSyncMs, true⟩

def unixTimeValid (source : EspTimeSource) : Bool := source.synchronised

/-- The second half of `unixTimeSeconds`, on what its critical section has copied. -/
def unixTimeSeconds (copied : EspTimeSource) (currentUptime : UInt64) : UInt64 :=
  if !copied.synchronised then 0
  else if currentUptime < copied.uptimeAtSyncMs then copied.unixAtSyncSeconds
  else copied.unixAtSyncSeconds + (currentUptime - copied.uptimeAtSyncMs) / 1000

end EspTimeSource

/-- What happens in a system of tasks that share the source; the timer counts microseconds. -/
inductive TimeAction (ι : Type*)
  | timer (micros : UInt64)
  | synchroniseUnixTime (unixSeconds uptimeAtSyncMs : UInt64)
  | copy (task : ι)
  | answer (task : ι)

namespace TimeAction

variable {ι : Type*}

def reader : TimeAction ι → Option ι
  | copy task | answer task => some task
  | _ => none

def synchronisation : TimeAction ι → Option (UInt64 × UInt64)
  | synchroniseUnixTime unixSeconds uptimeAtSyncMs => some (unixSeconds, uptimeAtSyncMs)
  | _ => none

def reading : TimeAction ι → Option UInt64
  | timer micros => some micros
  | _ => none

end TimeAction

structure TimeSystem (ι : Type*) where
  source : EspTimeSource := {}
  micros : UInt64 := 0
  copied : ι → EspTimeSource := fun _ => {}

namespace TimeSystem

variable {ι : Type*} [DecidableEq ι]

def uptimeMs (system : TimeSystem ι) : UInt64 := system.micros / 1000

def machine : Machine (TimeSystem ι) (TimeAction ι) (Option UInt64) where
  step system
    | .timer micros => ({ system with micros }, none)
    | .synchroniseUnixTime unixSeconds uptimeAtSyncMs =>
        ({ system with
          source := system.source.synchroniseUnixTime unixSeconds uptimeAtSyncMs }, none)
    | .copy task => ({ system with copied := Function.update system.copied task system.source }, none)
    | .answer task => (system, some ((system.copied task).unixTimeSeconds system.uptimeMs))

/-- The Unix time at an uptime, from a synchronisation. -/
def told (synchronisation : Option (UInt64 × UInt64)) (uptimeMs : UInt64) : UInt64 :=
  match synchronisation with
  | none => 0
  | some (unixSeconds, uptimeAtSyncMs) =>
      if uptimeMs < uptimeAtSyncMs then unixSeconds
      else unixSeconds + (uptimeMs - uptimeAtSyncMs) / 1000

def sourceOf (synchronisation : Option (UInt64 × UInt64)) : EspTimeSource :=
  match synchronisation with
  | none => {}
  | some (unixSeconds, uptimeAtSyncMs) => ⟨unixSeconds, uptimeAtSyncMs, true⟩

theorem unixTimeSeconds_sourceOf (synchronisation : Option (UInt64 × UInt64)) (uptimeMs : UInt64) :
    (sourceOf synchronisation).unixTimeSeconds uptimeMs = told synchronisation uptimeMs := by
  cases synchronisation <;> rfl

theorem synchronised_sourceOf (synchronisation : Option (UInt64 × UInt64)) :
    (sourceOf synchronisation).synchronised = synchronisation.isSome := by
  cases synchronisation <;> rfl

theorem kept_after (actions : List (TimeAction ι)) :
    (machine.after {} actions).source =
        sourceOf (History.latest TimeAction.synchronisation actions) ∧
      (machine.after {} actions).micros =
        (History.latest TimeAction.reading actions).getD 0 := by
  induction actions using List.reverseRecOn with
  | nil => exact ⟨rfl, rfl⟩
  | append_singleton actions action ih =>
      obtain ⟨hsource, hmicros⟩ := ih
      rw [Machine.after_snoc, History.latest_snoc, History.latest_snoc]
      cases action with
      | timer micros => exact ⟨hsource, rfl⟩
      | synchroniseUnixTime unixSeconds uptimeAtSyncMs => exact ⟨rfl, hmicros⟩
      | copy task => exact ⟨hsource, hmicros⟩
      | answer task => exact ⟨hsource, hmicros⟩

theorem copied_after (system : TimeSystem ι) (task : ι) {actions : List (TimeAction ι)}
    (h : ∀ action ∈ actions, action.reader ≠ some task) :
    (machine.after system actions).copied task = system.copied task := by
  induction actions generalizing system with
  | nil => rfl
  | cons action actions ih =>
      rw [Machine.after_cons, ih _ fun other hother => h other (List.mem_cons_of_mem _ hother)]
      cases action with
      | copy other =>
          have hne : task ≠ other := fun heq => h (.copy other) List.mem_cons_self (by rw [heq]; rfl)
          exact Function.update_of_ne hne _ _
      | _ => rfl

/-- In every interleaving of the tasks an answer is that of the last synchronisation before the copy,
at the uptime when it is given, whatever happens between the two; a task that is not overtaken by a
synchronisation answers as if it had read everything at once. The time is valid from the first
synchronisation on. -/
theorem answers_whole (before between : List (TimeAction ι)) (task : ι)
    (h : ∀ action ∈ between, action.reader ≠ some task) :
    let history := before ++ .copy task :: between
    let system := machine.after {} history
    let uptimeMs := (History.latest TimeAction.reading history).getD 0 / 1000
    (machine.step system (.answer task)).2 =
        some (told (History.latest TimeAction.synchronisation before) uptimeMs) ∧
      ((∀ action ∈ between, action.synchronisation = none) →
        (machine.step system (.answer task)).2 =
          some (told (History.latest TimeAction.synchronisation history) uptimeMs)) ∧
      (system.source.unixTimeValid = true ↔ ∃ action ∈ history, action.synchronisation.isSome) := by
  intro history system uptimeMs
  obtain ⟨hsource, hmicros⟩ := kept_after history
  obtain ⟨hbefore, -⟩ := kept_after before
  have hcopied : system.copied task =
      sourceOf (History.latest TimeAction.synchronisation before) := by
    rw [← hbefore]
    change (machine.after {} (before ++ .copy task :: between)).copied task = _
    rw [Machine.after_append, Machine.after_cons, copied_after _ task h]
    exact Function.update_self _ _ _
  have hanswer : (machine.step system (.answer task)).2 =
      some (told (History.latest TimeAction.synchronisation before) uptimeMs) := by
    have huptime : system.uptimeMs = uptimeMs := congrArg (· / 1000) hmicros
    rw [← unixTimeSeconds_sourceOf, ← hcopied, ← huptime]
    rfl
  refine ⟨hanswer, fun hquiet => ?_, ?_⟩
  · have hnone : History.latest TimeAction.synchronisation
        (.copy task :: between : List (TimeAction ι)) = none := by
      rw [History.latest_eq_none_iff]
      exact List.forall_mem_cons.2 ⟨rfl, hquiet⟩
    rw [hanswer, History.latest_append, hnone, Option.none_or]
  · have hvalid : system.source.synchronised =
        (History.latest TimeAction.synchronisation history).isSome := by
      rw [← synchronised_sourceOf, ← hsource]
    rw [EspTimeSource.unixTimeValid, hvalid, ← Option.ne_none_iff_isSome, ne_eq,
      History.latest_eq_none_iff]
    simp only [not_forall, ← Option.ne_none_iff_isSome, exists_prop, ne_eq]

/-- A task that copied the first synchronisation answers by it after the second. -/
theorem answers_whole_overtaken :
    (machine.step (machine.after {} ([.synchroniseUnixTime 1000 0] ++ .copy 1 ::
      [.synchroniseUnixTime 9000 0, .copy 2, .timer 5000000])) (.answer 1)).2 = some 1005 := by
  obtain ⟨hanswer, -, -⟩ := answers_whole [.synchroniseUnixTime 1000 0]
    [.synchroniseUnixTime 9000 0, .copy 2, .timer 5000000] 1 (by decide)
  rw [hanswer]
  decide

end TimeSystem

end DaliEdge
