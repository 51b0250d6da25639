import DaliEdge.DemoOutages
import DaliEdge.HealthScores
import DaliEdge.ScanEffects

/-!
# The lights of the demo

What the demo controller shows of its four lights follows from the times of its steps: how many of
them it has discovered, what their health scores are, and which of their alarms are active. The
light at address 3 is the only one that is ever away.
-/

namespace DaliEdge

namespace LightHealthEngine

variable {config : HealthScoringConfig}

theorem score_of_single_fault (h : config.NonNegative) {deducted : ℚ} (hpos : 0 < deducted)
    (hle : deducted ≤ 100) {observations : List HealthObservation}
    (hfault : ∀ o ∈ observations, o.deductions config = 0 ∨ o.deductions config = deducted) :
    100 - deducted ≤ (run config observations).score ∧
      ∀ o, observations.getLast? = some o → o.deductions config = deducted →
        (run config observations).score = 100 - deducted := by
  induction observations using List.reverseRecOn with
  | nil =>
      refine ⟨?_, fun o ho => absurd ho (Option.some_ne_none o).symm⟩
      change 100 - deducted ≤ 100
      linarith
  | append_singleton observations o ih =>
      obtain ⟨hlow, -⟩ := ih fun o' ho' => hfault o' (List.mem_append_left _ ho')
      have hrange := score_mem_range h observations
      rw [score_run_snoc h hrange.2]
      rcases hfault o (List.mem_append_right _ (List.mem_singleton_self o)) with hzero | hfull
      · rw [if_neg hzero.le.not_gt]
        refine ⟨le_min (by linarith) (by linarith [h.recoveryStep]), fun o' ho' hfull => ?_⟩
        rw [List.getLast?_concat, Option.some.injEq] at ho'
        rw [← ho', hzero] at hfull
        exact absurd hfull hpos.ne
      · have hcap : o.cap config = 100 - deducted := by
          rw [HealthObservation.cap, hfull, max_eq_right (by linarith)]
        rw [if_pos (hfull ▸ hpos), hcap, min_eq_right hlow]
        exact ⟨le_rfl, fun _ _ _ => rfl⟩

theorem score_of_no_fault (h : config.NonNegative) {observations : List HealthObservation}
    (hfault : ∀ o ∈ observations, o.deductions config = 0) :
    (run config observations).score = 100 := by
  induction observations using List.reverseRecOn with
  | nil => rfl
  | append_singleton observations o ih =>
      have hbefore := ih fun o' ho' => hfault o' (List.mem_append_left _ ho')
      have hzero := hfault o (List.mem_append_right _ (List.mem_singleton_self o))
      rw [score_run_snoc h hbefore.le, if_neg hzero.le.not_gt, hbefore, min_eq_left]
      linarith [h.recoveryStep]

end LightHealthEngine

namespace DemoController

def engine (demo : DemoController) (light : Fin 4) : LightHealthEngine := demo.health.get light

def healthScore (demo : DemoController) (address : UInt8) : ℚ :=
  if h : address.toNat < 4 then (demo.engine ⟨address.toNat, h⟩).score else 0

/-! ## Health -/

theorem health_announce (demo : DemoController) (event : LightEvent) :
    (demo.announce event).1.health = demo.health := by
  simp only [announce]
  split_ifs <;> rfl

theorem health_reporting (nowMs : UInt64) (demo : DemoController) (changes : List DiscoveryChange) :
    ((reporting nowMs).after demo changes).health = demo.health := by
  refine (reporting nowMs).after_induction (P := fun found => found.health = demo.health)
    (fun found change h => ?_) rfl changes
  rw [← h]
  simp only [reporting]
  split_ifs <;> exact health_announce found (changeEvent nowMs change)

theorem engine_checking_step (nowMs : UInt64) (demo : DemoController) (light other : Fin 4) :
    ((checking nowMs).step demo light).1.engine other =
      if light = other then ((demo.engine other).evaluate (observation nowMs light)).2
      else demo.engine other := by
  have hset : ((checking nowMs).step demo light).1.health =
      demo.health.set light ((demo.engine light).evaluate (observation nowMs light)).2 := by
    simp only [checking]
    split_ifs
    · exact health_announce _ _
    · rfl
  rw [engine, hset, SlotSweep.get_set]
  split_ifs with h
  · rw [h]
  · rfl

theorem engine_checking (nowMs : UInt64) (demo : DemoController) (light : Fin 4) :
    ((checking nowMs).after demo (List.finRange 4)).engine light =
      ((demo.engine light).evaluate (observation nowMs light)).2 := by
  have hslot := Machine.slot_after
    (g := fun (e : LightHealthEngine) light => (e.evaluate (observation nowMs light)).2)
    (engine_checking_step nowMs) demo (List.finRange 4) light
  have hfilter : (List.finRange 4).filter (fun other => other = light) = [light] := by
    fin_cases light <;> rfl
  rw [hslot, hfilter]
  rfl

theorem engine_step (demo : DemoController) (nowMs : UInt64) (light : Fin 4) :
    (demo.step nowMs).1.engine light =
      ((demo.engine light).evaluate (observation nowMs light)).2 := by
  have hscanned : (demo.scanned nowMs).health = demo.health := by
    simp only [scanned]
  simp only [step]
  rw [engine_checking, engine, health_reporting, hscanned]
  rfl

variable (duplicateReported : Vector Bool 64)

theorem engine_after (times : List UInt64) (light : Fin 4) :
    (machine.after (started duplicateReported) times).engine light =
      LightHealthEngine.run {} (times.map fun nowMs => observation nowMs light) := by
  induction times using List.reverseRecOn with
  | nil => fin_cases light <;> rfl
  | append_singleton times nowMs ih =>
      rw [after_snoc, engine_step, ih, List.map_append, List.map_singleton,
        LightHealthEngine.run_snoc]

theorem deductions_observation (nowMs : UInt64) (light : Fin 4) :
    (observation nowMs light).deductions {} =
      if light = 1 then 80
      else if light = 2 ∧ 1000 ≤ nowMs then 20
      else if light = 3 ∧ away nowMs = true then 40
      else 0 := by
  unfold observation HealthObservation.deductions HealthObservation.deduction
  fin_cases light
  · simp
  · simp
  · by_cases h : 1000 ≤ nowMs <;> simp [h]
  · by_cases h : away nowMs = true <;> simp [h]

theorem nonNegative_default : ({} : HealthScoringConfig).NonNegative := by
  constructor <;> decide

theorem score_of_light (light : Fin 4) (deducted : ℚ) (hpos : 0 < deducted) (hle : deducted ≤ 100)
    (h : ∀ nowMs, (observation nowMs light).deductions {} = 0 ∨
      (observation nowMs light).deductions {} = deducted) (times : List UInt64) :
    let score := ((machine.after (started duplicateReported) times).engine light).score
    100 - deducted ≤ score ∧ score ≤ 100 ∧
      ∀ nowMs, times.getLast? = some nowMs → (observation nowMs light).deductions {} = deducted →
        score = 100 - deducted := by
  intro score
  have hscore : score =
      (LightHealthEngine.run {} (times.map fun nowMs => observation nowMs light)).score :=
    congrArg LightHealthEngine.score (engine_after duplicateReported times light)
  have hfault : ∀ o ∈ times.map fun nowMs => observation nowMs light,
      o.deductions {} = 0 ∨ o.deductions {} = deducted := by
    intro o ho
    obtain ⟨nowMs, -, rfl⟩ := List.mem_map.1 ho
    exact h nowMs
  obtain ⟨hlow, hlast⟩ :=
    LightHealthEngine.score_of_single_fault nonNegative_default hpos hle hfault
  rw [hscore]
  refine ⟨hlow, (LightHealthEngine.score_mem_range nonNegative_default _).2,
    fun nowMs hnow hfull => hlast (observation nowMs light) ?_ hfull⟩
  rw [List.getLast?_map, hnow]
  rfl

/-- The scores after a run: the first light is well, the second has failed, and the others lose what
their only fault takes and recover in between. -/
theorem scores_after (times : List UInt64) :
    let demo : DemoController := machine.after (started duplicateReported) times
    demo.healthScore 0 = 100 ∧
      (times ≠ [] → demo.healthScore 1 = 20) ∧
      (80 ≤ demo.healthScore 2 ∧ demo.healthScore 2 ≤ 100 ∧
        ∀ nowMs, times.getLast? = some nowMs → 1000 ≤ nowMs → demo.healthScore 2 = 80) ∧
      (60 ≤ demo.healthScore 3 ∧ demo.healthScore 3 ≤ 100 ∧
        ∀ nowMs, times.getLast? = some nowMs → away nowMs = true → demo.healthScore 3 = 60) ∧
      ∀ address : UInt8, 4 ≤ address.toNat → demo.healthScore address = 0 := by
  intro demo
  have hwell : ∀ o ∈ times.map fun nowMs => observation nowMs 0, o.deductions {} = 0 := by
    intro o ho
    obtain ⟨nowMs, -, rfl⟩ := List.mem_map.1 ho
    rw [deductions_observation]
    rfl
  have hlamp : ∀ nowMs, (observation nowMs 1).deductions {} = 80 := fun nowMs => by
    rw [deductions_observation, if_pos rfl]
  have hwarm (nowMs : UInt64) : (observation nowMs 2).deductions {} = if 1000 ≤ nowMs then 20 else 0 := by
    rw [deductions_observation]
    by_cases h : 1000 ≤ nowMs <;> simp [h]
  have haway (nowMs : UInt64) :
      (observation nowMs 3).deductions {} = if away nowMs = true then 40 else 0 := by
    rw [deductions_observation]
    by_cases h : away nowMs = true <;> simp [h]
  obtain ⟨-, -, hsecond⟩ := score_of_light duplicateReported 1 80 (by norm_num) (by norm_num)
    (fun nowMs => .inr (hlamp nowMs)) times
  obtain ⟨hlow, hhigh, hthird⟩ := score_of_light duplicateReported 2 20 (by norm_num) (by norm_num)
    (fun nowMs => by rw [hwarm]; split_ifs <;> simp) times
  obtain ⟨hlow', hhigh', hfourth⟩ := score_of_light duplicateReported 3 40 (by norm_num)
    (by norm_num) (fun nowMs => by rw [haway]; split_ifs <;> simp) times
  have hscore (light : Fin 4) {address : UInt8} (haddress : address.toNat = light) :
      demo.healthScore address = (demo.engine light).score := by
    rw [healthScore, dif_pos (by rw [haddress]; exact light.isLt)]
    congr 2
    exact Fin.ext haddress
  rw [hscore 0 rfl, hscore 1 rfl, hscore 2 rfl, hscore 3 rfl]
  refine ⟨?_, fun hne => ?_, ⟨?_, hhigh, fun nowMs hnow hwarmed => ?_⟩,
    ⟨?_, hhigh', fun nowMs hnow hgone => ?_⟩, fun address haddress => ?_⟩
  · rw [engine_after, LightHealthEngine.score_of_no_fault nonNegative_default hwell]
  · rw [hsecond (times.getLast hne) (List.getLast?_eq_some_getLast hne) (hlamp _)]
    norm_num
  · linarith
  · rw [hthird nowMs hnow (by rw [hwarm, if_pos hwarmed])]
    norm_num
  · linarith
  · rw [hfourth nowMs hnow (by rw [haway, if_pos hgone])]
    norm_num
  · rw [healthScore, dif_neg (Nat.not_lt.2 haddress)]

/-! ## Alarms -/

open DeviceManager (isLifecycleChange lifecycleChange lifecycleWord length_lifecycleWord)

variable {duplicateReported} {address : ShortAddress} {type : DiscoveryChangeType}

variable (duplicateReported)

end DemoController

end DaliEdge
