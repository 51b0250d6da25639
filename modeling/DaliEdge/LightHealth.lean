import DaliEdge.Types
import Mathlib.Algebra.Order.Ring.Rat

/-!
# The health of a light

An observation is weighed by the scoring configuration. The score falls to what the deductions
leave of it and recovers by a step at a time once nothing is deducted; the state of the light is
read off the observation and the score.
-/

namespace DaliEdge

inductive LightState
  | unknown | learning | offCommanded | onHealthy | dimmedHealthy | warning | serviceRequired
  | failed | missing | communicationFault | recovering
  deriving DecidableEq

structure HealthObservation where
  present : Bool := true
  commandedOn : Bool := false
  lampFailure : Bool := false
  gearFailure : Bool := false
  thermalWarning : Bool := false
  thermalCritical : Bool := false
  currentDrift : Bool := false
  powerDrift : Bool := false
  intermittentFault : Bool := false
  poorCommunication : Bool := false
  deriving DecidableEq

structure HealthScoringConfig where
  confirmedLampFailure : ℚ := 80
  confirmedGearFailure : ℚ := 80
  deviceMissing : ℚ := 70
  criticalTemperature : ℚ := 60
  intermittentFailure : ℚ := 40
  currentDeviation : ℚ := 25
  powerDeviation : ℚ := 25
  thermalWarning : ℚ := 20
  poorCommunication : ℚ := 15
  recoveryStep : ℚ := 1
  deriving DecidableEq

structure HealthEvaluation where
  healthScore : ℚ := 100
  state : LightState := .unknown
  activeFaultFlags : UInt32 := 0
  deriving DecidableEq

structure LightHealthEngine where
  config : HealthScoringConfig := {}
  score : ℚ := 100
  deriving DecidableEq

namespace HealthObservation

def deduction (condition : Bool) (weight : ℚ) : ℚ := if condition then weight else 0

/-- What the observation takes off; a critical temperature hides a thermal warning. -/
def deductions (observation : HealthObservation) (config : HealthScoringConfig) : ℚ :=
  deduction observation.lampFailure config.confirmedLampFailure +
    deduction observation.gearFailure config.confirmedGearFailure +
    deduction (!observation.present) config.deviceMissing +
    (if observation.thermalCritical then config.criticalTemperature
      else deduction observation.thermalWarning config.thermalWarning) +
    deduction observation.intermittentFault config.intermittentFailure +
    deduction observation.currentDrift config.currentDeviation +
    deduction observation.powerDrift config.powerDeviation +
    deduction observation.poorCommunication config.poorCommunication

def flag (condition : Bool) (bit : UInt32) : UInt32 := if condition then 1 <<< bit else 0

def flags (observation : HealthObservation) : UInt32 :=
  flag observation.lampFailure 0 ||| flag observation.gearFailure 1 |||
    flag (!observation.present) 2 ||| flag observation.thermalCritical 3 |||
    flag (!observation.thermalCritical && observation.thermalWarning) 4

/-- The state of a light with the given score and deductions. -/
def state (observation : HealthObservation) (score deductions : ℚ) : LightState :=
  if !observation.present then .missing
  else if observation.lampFailure || observation.gearFailure then .failed
  else if observation.thermalCritical || score < 20 then .failed
  else if score < 50 then .serviceRequired
  else if deductions > 0 then .warning
  else if !observation.commandedOn then .offCommanded
  else .onHealthy

end HealthObservation

namespace LightHealthEngine

/-- The score that `deductions` leave of the engine's score. -/
def scored (engine : LightHealthEngine) (deductions : ℚ) : ℚ :=
  let target := max 0 (100 - deductions)
  if engine.score > target then max target (engine.score - deductions)
  else if engine.score < 100 ∧ deductions = 0 then
    min 100 (engine.score + engine.config.recoveryStep)
  else engine.score

def evaluate (engine : LightHealthEngine) (observation : HealthObservation) :
    HealthEvaluation × LightHealthEngine :=
  let deductions := observation.deductions engine.config
  let score := engine.scored deductions
  (⟨score, observation.state score deductions, observation.flags⟩, { engine with score })

end LightHealthEngine

end DaliEdge
