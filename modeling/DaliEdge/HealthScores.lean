import DaliEdge.LightHealth
import DaliEdge.Machine
import Mathlib.Algebra.Order.BigOperators.Group.List
import Mathlib.Tactic.Linarith

/-!
# How the health score moves

With weights that take nothing back, an observation that deducts something caps the score at what
its deductions leave of a hundred, and one that deducts nothing raises it by the recovery step. So
the score after a block of faulty observations is the least of the caps, in whatever order and
however often they come.
-/

/-- A value that is capped again and again ends at the least of its caps. -/
theorem le_foldl_min_iff {α β : Type*} [LinearOrder β] (cap : α → β) (xs : List α) (s c : β) :
    c ≤ xs.foldl (fun t x => min t (cap x)) s ↔ c ≤ s ∧ ∀ x ∈ xs, c ≤ cap x := by
  induction xs generalizing s with
  | nil => simp
  | cons x xs ih =>
      rw [List.foldl_cons, ih, le_min_iff, List.forall_mem_cons, and_assoc]

namespace DaliEdge

/-- No weight gives anything back. -/
structure HealthScoringConfig.NonNegative (config : HealthScoringConfig) : Prop where
  confirmedLampFailure : 0 ≤ config.confirmedLampFailure
  confirmedGearFailure : 0 ≤ config.confirmedGearFailure
  deviceMissing : 0 ≤ config.deviceMissing
  criticalTemperature : 0 ≤ config.criticalTemperature
  intermittentFailure : 0 ≤ config.intermittentFailure
  currentDeviation : 0 ≤ config.currentDeviation
  powerDeviation : 0 ≤ config.powerDeviation
  thermalWarning : 0 ≤ config.thermalWarning
  poorCommunication : 0 ≤ config.poorCommunication
  recoveryStep : 0 ≤ config.recoveryStep

/-- The nine conditions that lower a health score. -/
inductive HealthCondition
  | lampFailure | gearFailure | missing | thermalCritical | thermalWarning | intermittentFault
  | currentDrift | powerDrift | poorCommunication

def HealthCondition.all : List HealthCondition :=
  [.lampFailure, .gearFailure, .missing, .thermalCritical, .thermalWarning, .intermittentFault,
    .currentDrift, .powerDrift, .poorCommunication]

def HealthScoringConfig.weight (config : HealthScoringConfig) : HealthCondition → ℚ
  | .lampFailure => config.confirmedLampFailure
  | .gearFailure => config.confirmedGearFailure
  | .missing => config.deviceMissing
  | .thermalCritical => config.criticalTemperature
  | .thermalWarning => config.thermalWarning
  | .intermittentFault => config.intermittentFailure
  | .currentDrift => config.currentDeviation
  | .powerDrift => config.powerDeviation
  | .poorCommunication => config.poorCommunication

theorem HealthScoringConfig.NonNegative.weight {config : HealthScoringConfig}
    (h : config.NonNegative) (condition : HealthCondition) : 0 ≤ config.weight condition := by
  cases condition with
  | lampFailure => exact h.confirmedLampFailure
  | gearFailure => exact h.confirmedGearFailure
  | missing => exact h.deviceMissing
  | thermalCritical => exact h.criticalTemperature
  | thermalWarning => exact h.thermalWarning
  | intermittentFault => exact h.intermittentFailure
  | currentDrift => exact h.currentDeviation
  | powerDrift => exact h.powerDeviation
  | poorCommunication => exact h.poorCommunication

namespace HealthObservation

def shows (observation : HealthObservation) : HealthCondition → Bool
  | .lampFailure => observation.lampFailure
  | .gearFailure => observation.gearFailure
  | .missing => !observation.present
  | .thermalCritical => observation.thermalCritical
  | .thermalWarning => !observation.thermalCritical && observation.thermalWarning
  | .intermittentFault => observation.intermittentFault
  | .currentDrift => observation.currentDrift
  | .powerDrift => observation.powerDrift
  | .poorCommunication => observation.poorCommunication

/-- Each condition that the observation shows takes off its weight, and nothing else does. -/
theorem deductions_eq_sum (observation : HealthObservation) (config : HealthScoringConfig) :
    observation.deductions config = (HealthCondition.all.map fun condition =>
      deduction (observation.shows condition) (config.weight condition)).sum := by
  have hthermal : (if observation.thermalCritical then config.criticalTemperature
      else deduction observation.thermalWarning config.thermalWarning) =
        deduction observation.thermalCritical config.criticalTemperature +
          deduction (!observation.thermalCritical && observation.thermalWarning)
            config.thermalWarning := by
    cases observation.thermalCritical with
    | true => exact (add_zero _).symm
    | false => exact (zero_add _).symm
  rw [deductions, hthermal]
  simp only [HealthCondition.all, List.map_cons, List.map_nil, List.sum_cons, List.sum_nil, shows,
    HealthScoringConfig.weight, add_assoc, add_zero]

theorem deduction_nonneg (condition : Bool) {weight : ℚ} (h : 0 ≤ weight) :
    0 ≤ deduction condition weight := by
  unfold deduction
  split_ifs
  · exact h
  · exact le_rfl

theorem deductions_nonneg (observation : HealthObservation) {config : HealthScoringConfig}
    (h : config.NonNegative) : 0 ≤ observation.deductions config := by
  rw [deductions_eq_sum]
  apply List.sum_nonneg
  rw [List.forall_mem_map]
  exact fun condition _ => deduction_nonneg _ (h.weight condition)

/-- The most that the observation leaves of the score. -/
def cap (observation : HealthObservation) (config : HealthScoringConfig) : ℚ :=
  max 0 (100 - observation.deductions config)

end HealthObservation

namespace LightHealthEngine

def machine : Machine LightHealthEngine HealthObservation HealthEvaluation :=
  ⟨fun engine observation => (engine.evaluate observation).swap⟩

def run (config : HealthScoringConfig) (observations : List HealthObservation) :
    LightHealthEngine :=
  machine.after { config } observations

variable {config : HealthScoringConfig} (observations : List HealthObservation)
  (observation : HealthObservation)

theorem run_snoc : run config (observations ++ [observation]) =
    ((run config observations).evaluate observation).2 :=
  machine.after_snoc _ observations observation

theorem config_run : (run config observations).config = config :=
  machine.after_induction (P := fun engine => engine.config = config) (fun _ _ h => h) rfl
    observations

theorem score_snoc : (run config (observations ++ [observation])).score =
    (run config observations).scored (observation.deductions config) := by
  rw [run_snoc]
  change (run config observations).scored (observation.deductions (run config observations).config) = _
  rw [config_run]

/-! ## One observation -/

variable {engine : LightHealthEngine} {deductions : ℚ}

theorem scored_of_pos (hle : engine.score ≤ 100) (hpos : 0 < deductions) :
    engine.scored deductions = min engine.score (max 0 (100 - deductions)) := by
  unfold scored
  dsimp only
  by_cases habove : engine.score > max 0 (100 - deductions)
  · rw [if_pos habove, min_eq_right habove.le, max_eq_left]
    exact le_max_of_le_right (by linarith)
  · have hne : ¬ (engine.score < 100 ∧ deductions = 0) := fun h => hpos.ne' h.2
    rw [if_neg habove, if_neg hne, min_eq_left (not_lt.1 habove)]

theorem scored_zero (hle : engine.score ≤ 100) (hstep : 0 ≤ engine.config.recoveryStep) :
    engine.scored 0 = min 100 (engine.score + engine.config.recoveryStep) := by
  have htarget : max 0 (100 - 0 : ℚ) = 100 := by norm_num
  unfold scored
  rw [htarget]
  dsimp only
  rw [if_neg (not_lt.2 hle)]
  rcases hle.lt_or_eq with hlt | heq
  · rw [if_pos ⟨hlt, rfl⟩]
  · rw [if_neg fun h => h.1.ne heq, heq, min_eq_left]
    linarith

/-! ## Runs -/

variable {observations observation}

theorem score_run_snoc (h : config.NonNegative) (hle : (run config observations).score ≤ 100) :
    (run config (observations ++ [observation])).score =
      if 0 < observation.deductions config then
        min (run config observations).score (observation.cap config)
      else min 100 ((run config observations).score + config.recoveryStep) := by
  rw [score_snoc]
  split_ifs with hpos
  · exact scored_of_pos hle hpos
  · have hzero : observation.deductions config = 0 :=
      le_antisymm (not_lt.1 hpos) (observation.deductions_nonneg h)
    rw [hzero, scored_zero hle (by rw [config_run]; exact h.recoveryStep), config_run]

theorem score_mem_range (h : config.NonNegative) (observations : List HealthObservation) :
    0 ≤ (run config observations).score ∧ (run config observations).score ≤ 100 := by
  induction observations using List.reverseRecOn with
  | nil =>
      change (0 : ℚ) ≤ 100 ∧ (100 : ℚ) ≤ 100
      norm_num
  | append_singleton observations observation ih =>
      rw [score_run_snoc h ih.2]
      split_ifs
      · exact ⟨le_min ih.1 (le_max_left _ _), (min_le_left _ _).trans ih.2⟩
      · exact ⟨le_min (by norm_num) (add_nonneg ih.1 h.recoveryStep), min_le_left _ _⟩

theorem score_of_faulty (h : config.NonNegative) {block : List HealthObservation}
    (hfaulty : ∀ o ∈ block, 0 < o.deductions config) (seen : List HealthObservation) :
    (run config (seen ++ block)).score =
      block.foldl (fun score o => min score (o.cap config)) (run config seen).score := by
  induction block using List.reverseRecOn with
  | nil => rw [List.append_nil, List.foldl_nil]
  | append_singleton block observation ih =>
      have hbefore := ih fun o ho => hfaulty o (List.mem_append_left _ ho)
      rw [← List.append_assoc, score_run_snoc h (score_mem_range h _).2,
        if_pos (hfaulty observation (by simp)), hbefore, List.foldl_append]
      rfl

/-- The score stays in range. An observation that deducts something caps it, whatever was seen
before and in whatever order and however often the faults come; any other one raises it by the
recovery step, up to a hundred. -/
theorem health_score_law (h : config.NonNegative) (seen : List HealthObservation) :
    (0 ≤ (run config seen).score ∧ (run config seen).score ≤ 100) ∧
    (∀ o, ((run config seen).evaluate o).1.healthScore = (run config (seen ++ [o])).score) ∧
    (∀ o, 0 < o.deductions config → (run config (seen ++ [o])).score =
      min (run config seen).score (max 0 (100 - o.deductions config))) ∧
    (∀ block block', (∀ o, o ∈ block ↔ o ∈ block') → (∀ o ∈ block, 0 < o.deductions config) →
      (run config (seen ++ block)).score = (run config (seen ++ block')).score) ∧
    ∀ o, o.deductions config = 0 → (run config (seen ++ [o])).score =
      min 100 ((run config seen).score + config.recoveryStep) := by
  have hrange := score_mem_range h seen
  refine ⟨hrange, ?_, ?_, ?_, ?_⟩
  · intro o
    rw [run_snoc]
    rfl
  · intro o hpos
    rw [score_run_snoc h hrange.2, if_pos hpos]
    rfl
  · intro block block' hmem hfaulty
    have hfaulty' : ∀ o ∈ block', 0 < o.deductions config := fun o ho => hfaulty o ((hmem o).2 ho)
    rw [score_of_faulty h hfaulty, score_of_faulty h hfaulty']
    apply eq_of_forall_le_iff
    intro c
    simp only [le_foldl_min_iff, hmem]
  · intro o hzero
    rw [score_run_snoc h hrange.2, if_neg hzero.le.not_gt]

/-- A lamp failure takes 80 off a new engine's score, and seen twice it takes no more. -/
theorem health_score_law_example :
    (run {} ([] ++ [{ lampFailure := true }])).score = 20 ∧
      (run {} ([] ++ [{ lampFailure := true }, { lampFailure := true }])).score = 20 := by
  have hweights : ({} : HealthScoringConfig).NonNegative := by
    constructor <;> decide
  have hlamp : ({ lampFailure := true } : HealthObservation).deductions {} = 80 := by
    norm_num [HealthObservation.deductions, HealthObservation.deduction]
  obtain ⟨-, -, hcap, horder, -⟩ := health_score_law hweights []
  have honce := hcap { lampFailure := true } (by rw [hlamp]; norm_num)
  rw [hlamp] at honce
  have hscore : (run {} ([] ++ [{ lampFailure := true }])).score = 20 := by
    rw [honce]
    norm_num [run, machine]
  refine ⟨hscore, (horder _ [{ lampFailure := true }] ?_ ?_).trans hscore⟩
  · intro o
    simp
  · intro o ho
    obtain rfl : o = { lampFailure := true } := by simpa using ho
    rw [hlamp]
    norm_num

end LightHealthEngine

end DaliEdge
