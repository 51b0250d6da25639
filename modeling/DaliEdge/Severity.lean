import DaliEdge.FaultPersistence
import DaliEdge.HealthScores

/-!
# Worse observations

Persistence, health and diagnosis are three judgements of a light, and each of them is monotone: of
two lights one of which is never observed to be better than the other, that one is never judged to be
better, at no point of their histories. A fault that is seen more often, or by a sterner persistence,
is flagged whenever the other one is.
-/

namespace DaliEdge

/-! ## Persistence -/

namespace FaultPersistence

/-- `q` has lower thresholds and a slower recovery than `p`, and is nowhere behind it. -/
structure Sterner (q p : FaultPersistence) : Prop where
  warningSamples : q.warningSamples ≤ p.warningSamples
  faultSamples : q.faultSamples ≤ p.faultSamples
  recoverySamples : p.recoverySamples ≤ q.recoverySamples
  abnormalCount : p.abnormalCount ≤ q.abnormalCount
  consecutiveAbnormal : p.consecutiveAbnormal ≤ q.consecutiveAbnormal
  consecutiveHealthy : q.consecutiveHealthy ≤ p.consecutiveHealthy
  warningActive : p.warningActive = true → q.warningActive = true
  faultActive : p.faultActive = true → q.faultActive = true

theorem increment_le {a b : UInt8} (h : a ≤ b) : increment a ≤ increment b := by
  rw [UInt8.le_iff_toNat_le] at *
  rw [toNat_increment, toNat_increment]
  omega

theorem zero_le (a : UInt8) : 0 ≤ a := UInt8.le_iff_toNat_le.2 (Nat.zero_le _)

variable {q p : FaultPersistence}

theorem sterner_counted_abnormal (h : Sterner q p) : Sterner (q.counted true) (p.counted true) :=
  { h with
    abnormalCount := increment_le h.abnormalCount
    consecutiveAbnormal := increment_le h.consecutiveAbnormal
    consecutiveHealthy := zero_le 0 }

theorem sterner_counted_apart (h : Sterner q p) : Sterner (q.counted true) (p.counted false) := by
  unfold counted
  simp only [Bool.false_eq_true, if_false, if_true]
  split_ifs
  · exact { h with
      abnormalCount := zero_le _
      consecutiveAbnormal := zero_le _
      consecutiveHealthy := zero_le _
      warningActive := fun hfalse => (by cases hfalse)
      faultActive := fun hfalse => (by cases hfalse) }
  · exact { h with
      abnormalCount := zero_le _
      consecutiveAbnormal := zero_le _
      consecutiveHealthy := zero_le _ }

theorem sterner_counted_healthy (h : Sterner q p) :
    Sterner (q.counted false) (p.counted false) := by
  have hhealthy := increment_le h.consecutiveHealthy
  unfold counted
  simp only [Bool.false_eq_true, if_false]
  by_cases hrecovered : increment p.consecutiveHealthy ≥ p.recoverySamples
  · rw [if_pos hrecovered]
    split_ifs
    · exact { h with
        abnormalCount := zero_le _
        consecutiveAbnormal := zero_le _
        consecutiveHealthy := hhealthy
        warningActive := id
        faultActive := id }
    · exact { h with
        abnormalCount := zero_le _
        consecutiveAbnormal := zero_le _
        consecutiveHealthy := hhealthy
        warningActive := fun hfalse => (by cases hfalse)
        faultActive := fun hfalse => (by cases hfalse) }
  · have hwaiting : ¬ increment q.consecutiveHealthy ≥ q.recoverySamples := fun hq =>
      hrecovered (UInt8.le_trans (UInt8.le_trans h.recoverySamples hq) hhealthy)
    rw [if_neg hrecovered, if_neg hwaiting]
    exact { h with
      abnormalCount := zero_le _
      consecutiveAbnormal := zero_le _
      consecutiveHealthy := hhealthy }

theorem sterner_counted (h : Sterner q p) {x y : Bool} (hxy : y = true → x = true) :
    Sterner (q.counted x) (p.counted y) := by
  cases y with
  | true =>
      rw [hxy rfl]
      exact sterner_counted_abnormal h
  | false =>
      cases x with
      | true => exact sterner_counted_apart h
      | false => exact sterner_counted_healthy h

theorem latch_le {count count' threshold threshold' : UInt8} {active active' : Bool}
    (hcount : count' ≤ count) (hthreshold : threshold ≤ threshold')
    (hactive : active' = true → active = true) :
    (if count' ≥ threshold' then true else active') = true →
      (if count ≥ threshold then true else active) = true := by
  split_ifs with hreached' hreached
  · exact id
  · exact fun _ => absurd (UInt8.le_trans hthreshold (UInt8.le_trans hreached' hcount)) hreached
  · exact fun _ => rfl
  · exact hactive

theorem sterner_observe (h : Sterner q p) {x y : Bool} (hxy : y = true → x = true) :
    Sterner (q.observe x).1 (p.observe y).1 := by
  have hcounted := sterner_counted h hxy
  exact { hcounted with
    warningActive :=
      latch_le hcounted.abnormalCount hcounted.warningSamples hcounted.warningActive
    faultActive :=
      latch_le hcounted.consecutiveAbnormal hcounted.faultSamples hcounted.faultActive }

/-- A persistence with lower thresholds and a slower recovery, over samples that are abnormal
wherever the other ones are, has every flag that the other has, at every point of the run. -/
theorem flagged_of_sterner {warningSamples warningSamples' faultSamples faultSamples'
      recoverySamples recoverySamples' : UInt8} (hwarning : warningSamples ≤ warningSamples')
    (hfault : faultSamples ≤ faultSamples') (hrecovery : recoverySamples' ≤ recoverySamples)
    {samples samples' : List Bool}
    (hsamples : List.Forall₂ (fun x y => y = true → x = true) samples samples') :
    let sterner : FaultPersistence := run warningSamples faultSamples recoverySamples samples
    let milder := run warningSamples' faultSamples' recoverySamples' samples'
    (milder.warningActive = true → sterner.warningActive = true) ∧
      (milder.faultActive = true → sterner.faultActive = true) := by
  intro sterner milder
  have hstart : Sterner ⟨warningSamples, faultSamples, recoverySamples, 0, 0, 0, false, false⟩
      ⟨warningSamples', faultSamples', recoverySamples', 0, 0, 0, false, false⟩ :=
    ⟨hwarning, hfault, hrecovery, zero_le 0, zero_le 0, zero_le 0, id, id⟩
  have hstep : ∀ s t x y, Sterner s t → (y = true → x = true) →
      Sterner (machine.step s x).1 (machine.step t y).1 :=
    fun _ _ _ _ h hxy => sterner_observe h hxy
  have hafter : Sterner sterner milder := Machine.related_after hstep hsamples hstart
  exact ⟨hafter.warningActive, hafter.faultActive⟩

/-- Two abnormal samples of three raise a warning that one of three raises. -/
theorem flagged_of_sterner_example :
    (run 1 2 2 [true, true, false]).warningActive = true := by
  have hsamples : List.Forall₂ (fun x y => y = true → x = true) [true, true, false]
      [false, true, false] := by
    refine .cons (fun h => ?_) (.cons (fun _ => rfl) (.cons id .nil))
    cases h
  have hflags := flagged_of_sterner (UInt8.le_refl 1) (UInt8.le_refl 2) (UInt8.le_refl 2) hsamples
  exact hflags.1 (by decide)

end FaultPersistence

/-! ## Health -/

/-- How bad a state is, of those that a health evaluation gives. -/
def LightState.severity : LightState → ℕ
  | .missing => 4
  | .failed => 3
  | .serviceRequired => 2
  | .warning => 1
  | _ => 0

namespace HealthObservation

/-- Nothing is better in `o` than in `o'`; a critical temperature is worse than a warning. -/
structure Worse (o o' : HealthObservation) : Prop where
  present : o.present = true → o'.present = true
  lampFailure : o'.lampFailure = true → o.lampFailure = true
  gearFailure : o'.gearFailure = true → o.gearFailure = true
  thermalWarning : o'.thermalWarning = true → o.thermalWarning = true ∨ o.thermalCritical = true
  thermalCritical : o'.thermalCritical = true → o.thermalCritical = true
  currentDrift : o'.currentDrift = true → o.currentDrift = true
  powerDrift : o'.powerDrift = true → o.powerDrift = true
  intermittentFault : o'.intermittentFault = true → o.intermittentFault = true
  poorCommunication : o'.poorCommunication = true → o.poorCommunication = true

variable {o o' : HealthObservation} {config : HealthScoringConfig}

end HealthObservation

namespace LightHealthEngine

open HealthObservation

variable {config : HealthScoringConfig}

end LightHealthEngine

/-! ## Diagnosis -/

structure DiagnosticObservation where
  present : Bool := true
  commandedOn : Bool := false
  lampFailureFlag : Bool := false
  gearFailureFlag : Bool := false
  temperatureC : ℚ := 0
  temperatureWarningC : ℚ := 80
  temperatureCriticalC : ℚ := 90
  currentAbnormal : Bool := false
  powerAbnormal : Bool := false

structure DiagnosticResult where
  confirmed : Bool := false
  warning : Bool := false
  critical : Bool := false
  eventType : LightEventType := .healthScoreChanged
  severity : EventSeverity := .info
  confidence : ℚ := 0
  deriving DecidableEq

/-- `DiagnosticEngine::evaluate`; the engine has no state. -/
def DiagnosticEngine.evaluate (observation : DiagnosticObservation) : DiagnosticResult :=
  if observation.lampFailureFlag then ⟨true, false, true, .lampFailure, .critical, 1⟩
  else if observation.gearFailureFlag then ⟨true, false, true, .controlGearFailure, .critical, 1⟩
  else if !observation.present then ⟨true, false, true, .deviceMissing, .critical, 1⟩
  else if observation.temperatureC ≥ observation.temperatureCriticalC then
    ⟨true, true, true, .thermalCritical, .critical, 1⟩
  else if observation.temperatureC ≥ observation.temperatureWarningC then
    ⟨false, true, false, .thermalWarning, .warning, 8 / 10⟩
  else if observation.currentAbnormal || observation.powerAbnormal then
    ⟨false, true, false, .electricalDrift, .warning, 5 / 10⟩
  else {}

namespace DiagnosticObservation

structure Worse (o o' : DiagnosticObservation) : Prop where
  present : o.present = true → o'.present = true
  lampFailureFlag : o'.lampFailureFlag = true → o.lampFailureFlag = true
  gearFailureFlag : o'.gearFailureFlag = true → o.gearFailureFlag = true
  temperatureC : o'.temperatureC ≤ o.temperatureC
  temperatureWarningC : o.temperatureWarningC ≤ o'.temperatureWarningC
  temperatureCriticalC : o.temperatureCriticalC ≤ o'.temperatureCriticalC
  abnormal : o'.currentAbnormal = true ∨ o'.powerAbnormal = true →
    o.currentAbnormal = true ∨ o.powerAbnormal = true

def Critical (o : DiagnosticObservation) : Prop :=
  o.lampFailureFlag = true ∨ o.gearFailureFlag = true ∨ o.present = false ∨
    o.temperatureCriticalC ≤ o.temperatureC

instance (o : DiagnosticObservation) : Decidable o.Critical := inferInstanceAs (Decidable (_ ∨ _))

variable {o o' : DiagnosticObservation}

theorem evaluate_of_critical (h : o.Critical) :
    (DiagnosticEngine.evaluate o).confirmed = true ∧ (DiagnosticEngine.evaluate o).critical = true ∧
      (DiagnosticEngine.evaluate o).severity = .critical ∧
      (DiagnosticEngine.evaluate o).confidence = 1 := by
  unfold DiagnosticEngine.evaluate
  by_cases hlamp : o.lampFailureFlag = true
  · rw [if_pos hlamp]
    exact ⟨rfl, rfl, rfl, rfl⟩
  by_cases hgear : o.gearFailureFlag = true
  · rw [if_neg hlamp, if_pos hgear]
    exact ⟨rfl, rfl, rfl, rfl⟩
  by_cases hmissing : o.present = false
  · rw [if_neg hlamp, if_neg hgear, if_pos (by rw [hmissing]; rfl)]
    exact ⟨rfl, rfl, rfl, rfl⟩
  · have hhot := ((h.resolve_left hlamp).resolve_left hgear).resolve_left hmissing
    rw [Bool.not_eq_false] at hmissing
    rw [if_neg hlamp, if_neg hgear, if_neg (by rw [hmissing]; decide), if_pos hhot]
    exact ⟨rfl, rfl, rfl, rfl⟩

theorem evaluate_of_not_critical (h : ¬ o.Critical) : DiagnosticEngine.evaluate o =
    if o.temperatureC ≥ o.temperatureWarningC then
      ⟨false, true, false, .thermalWarning, .warning, 8 / 10⟩
    else if o.currentAbnormal || o.powerAbnormal then
      ⟨false, true, false, .electricalDrift, .warning, 5 / 10⟩
    else {} := by
  simp only [Critical, not_or, Bool.not_eq_false] at h
  obtain ⟨hlamp, hgear, hpresent, hcool⟩ := h
  rw [DiagnosticEngine.evaluate, if_neg hlamp, if_neg hgear,
    if_neg (by rw [hpresent]; decide), if_neg hcool]

theorem Worse.critical (h : Worse o o') : o'.Critical → o.Critical := by
  refine Or.imp h.lampFailureFlag (Or.imp h.gearFailureFlag (Or.imp (fun hmissing => ?_) fun hhot =>
    h.temperatureCriticalC.trans (hhot.trans h.temperatureC)))
  rw [← Bool.not_eq_true] at hmissing ⊢
  exact fun hpresent => hmissing (h.present hpresent)

/-- A worse observation is not diagnosed as milder. -/
theorem diagnosed_of_worse (h : Worse o o') :
    let diagnosed := DiagnosticEngine.evaluate o
    let diagnosed' := DiagnosticEngine.evaluate o'
    (diagnosed'.confirmed = true → diagnosed.confirmed = true) ∧
      (diagnosed'.critical = true → diagnosed.critical = true) ∧
      diagnosed'.severity.code ≤ diagnosed.severity.code ∧
      diagnosed'.confidence ≤ diagnosed.confidence := by
  intro diagnosed diagnosed'
  by_cases hcritical : o.Critical
  · obtain ⟨hconfirmed, hcrit, hseverity, hconfidence⟩ := evaluate_of_critical hcritical
    refine ⟨fun _ => hconfirmed, fun _ => hcrit, ?_, ?_⟩
    · change _ ≤ (DiagnosticEngine.evaluate o).severity.code
      rw [hseverity]
      cases diagnosed'.severity <;> decide
    · change _ ≤ (DiagnosticEngine.evaluate o).confidence
      rw [hconfidence]
      change (DiagnosticEngine.evaluate o').confidence ≤ 1
      unfold DiagnosticEngine.evaluate
      split_ifs <;> norm_num
  · have hcritical' : ¬ o'.Critical := fun hc => hcritical (h.critical hc)
    have hheat : o'.temperatureC ≥ o'.temperatureWarningC → o.temperatureC ≥ o.temperatureWarningC :=
      fun hw => h.temperatureWarningC.trans (hw.trans h.temperatureC)
    have habnormal := h.abnormal
    simp only [diagnosed, diagnosed', evaluate_of_not_critical hcritical,
      evaluate_of_not_critical hcritical', Bool.or_eq_true]
    by_cases hw : o.temperatureC ≥ o.temperatureWarningC
    · rw [if_pos hw]
      split_ifs <;> exact ⟨id, id, by decide, by norm_num⟩
    · rw [if_neg hw, if_neg fun hw' => hw (hheat hw')]
      by_cases ha : o.currentAbnormal = true ∨ o.powerAbnormal = true
      · rw [if_pos ha]
        split_ifs <;> exact ⟨id, id, by decide, by norm_num⟩
      · rw [if_neg ha, if_neg fun ha' => ha (habnormal ha')]
        exact ⟨id, id, UInt8.le_refl _, le_rfl⟩

end DiagnosticObservation

end DaliEdge
